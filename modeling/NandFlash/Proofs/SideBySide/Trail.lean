import NandFlash.Bus.Monitor
import NandFlash.Proofs.Sim.Session
import NandFlash.Proofs.SideBySide.Operations

/-!
# Trails

A trail is a device together with every call it has served and the device as each call has left
it. It is a bus like the device itself, and a session on it goes as on the device; but at the end
it can be asked about the middle of an operation.
-/

namespace NandFlash

variable {α β : Type}

/-- A call that has gone over a bus, and the device as it has left it. -/
structure Moment (β : Type) where
  event : BusEvent
  device : β

/-- A device and its past, the earliest moment first. -/
structure Trail (β : Type) where
  device : β
  past : List (Moment β)

namespace Trail

/-- A device that nothing is known of yet. -/
def begin (device : β) : Trail β := ⟨device, []⟩

/-- Pass a call on, and remember it. -/
def pass (action : Action β α) (event : α → BusEvent) : Action (Trail β) α :=
  fun ⟨device, past⟩ => do
    let (value, device) ← action device
    return (value, ⟨device, past ++ [⟨event value, device⟩]⟩)

instance [Bus β] : Bus (Trail β) where
  read32 offset := pass (Bus.read32 offset) fun value => .read32 offset value
  write32 offset value := pass (Bus.write32 offset value) fun _ => .write32 offset value
  read8 offset := pass (Bus.read8 offset) fun value => .read8 offset value
  write8 offset value := pass (Bus.write8 offset value) fun _ => .write8 offset value
  dmaAddress data := pass (Bus.dmaAddress data) fun address => .dmaAddress data.size address
  dmaToDevice data := pass (Bus.dmaToDevice data) fun _ => .dmaToDevice data
  dmaFromDevice data := pass (Bus.dmaFromDevice data) fun _ => .dmaFromDevice data.size
  delay nanoseconds := pass (Bus.delay nanoseconds) fun _ => .delay nanoseconds

/-- A trail that ends at a device, with a past that satisfies `keep`. -/
structure Behind (keep : List (Moment β) → β → Prop) (device : β) (trail : Trail β) : Prop where
  device_eq : trail.device = device
  past : keep trail.past device

theorem behind_begin {keep : List (Moment β) → β → Prop} {device : β} (h : keep [] device) :
    Behind keep device (begin device) :=
  ⟨rfl, h⟩

theorem run_pass {action : Action β α} {event : α → BusEvent} {device next : β}
    {past : List (Moment β)} {a : α} (h : action.run device = .ok (a, next)) :
    (pass action event).run ⟨device, past⟩ = .ok (a, ⟨next, past ++ [⟨event a, next⟩]⟩) := by
  show (action device >>= fun r => _) = _
  rw [show action device = .ok (a, next) from h]
  rfl

theorem run_pass_crash {action : Action β α} {event : α → BusEvent} {device : β}
    {past : List (Moment β)} {defect : Crash} (h : action.run device = .error defect) :
    (pass action event).run ⟨device, past⟩ = .error defect := by
  show (action device >>= fun r => _) = _
  rw [show action device = .error defect from h]
  rfl

/-- A call on a device and on its trail. -/
theorem parallel_pass {may : Crash → Prop} {keep : List (Moment β) → β → Prop}
    {keep' : α → List (Moment β) → β → Prop} {action : Action β α} {event : α → BusEvent}
    (hnext : ∀ past device a next, keep past device → action.run device = .ok (a, next) →
      keep' a (past ++ [⟨event a, next⟩]) next)
    (hcrash : ∀ past device defect, keep past device → action.run device = .error defect →
      may defect) :
    Parallel may (Behind keep) action (pass action event) fun a => Behind (keep' a) := by
  rintro device ⟨watched, past⟩ ⟨hdevice, hpast⟩
  change watched = device at hdevice
  subst hdevice
  cases hrun : action.run watched with
  | ok result =>
    obtain ⟨a, next⟩ := result
    exact .inl ⟨a, next, _, rfl, run_pass hrun, rfl, hnext past watched a next hpast hrun⟩
  | error defect =>
    exact .inr ⟨defect, hcrash past watched defect hpast hrun, rfl, run_pass_crash hrun⟩

/-! ## Sessions with a trail -/

open Sim

/-- Change a device from outside. -/
def touch (change : Device → Device) : Action (Controller (Trail Device)) (Option Reply) :=
  fun controller => .ok (none, { controller with
    channel.bus.device := change controller.channel.bus.device })

/-- One step of a session on a device with a trail. -/
def play : Event → Action (Controller (Trail Device)) (Option Reply)
  | .request request => return some (← Controller.serve request)
  | .inject page offset mask => touch (·.inject page offset mask)
  | .wearOut block => touch (·.wearOut block)
  | .setHang hang => touch (·.setHang hang)

/-- A change from outside that concerns neither the controller's registers nor the chip's
latches. -/
structure IsOutside (change : Device → Device) : Prop where
  chip_eq : ∀ device, (change device).chip = device.chip
  latches_eq : ∀ device, (change device).latches = device.latches
  registers_eq : ∀ device, (change device).engine.registers = device.engine.registers

section

variable {may : Crash → Prop} {profile : Profile} {keep : List (Moment Device) → Device → Prop}
  (h : Bus.Tolerates may profile (Behind keep)) (hsettled : profile.Settled)
  (hpoll : Patient may profile.poll)
  (htouch : ∀ change, IsOutside change → ∀ past device, keep past device →
    keep past (change device))

include htouch

omit h hsettled hpoll in
theorem inStep_touch {change : Device → Device} (houtside : IsOutside change) :
    InStep may (Controller.Paired profile (Behind keep)) (Controller.touch change) (touch change)
      Any := by
  intro controller other hpaired
  have hbus := hpaired.channel.bus
  refine .inl ⟨none, _, _, rfl, rfl, ⟨hpaired.profile_eq, hpaired.otherProfile_eq,
    ⟨hpaired.channel.state_eq, ?_, ?_⟩, hpaired.size_eq, hpaired.staging_eq, hpaired.stats_eq⟩,
    trivial⟩
  · exact congrArg change hbus.device_eq
  · exact htouch change houtside _ _ hbus.past

include h hsettled hpoll

theorem inStep_play (event : Event) :
    InStep may (Controller.Paired profile (Behind keep)) (Controller.play event) (play event)
      Any := by
  cases event with
  | request request =>
    exact (Controller.inStep_serve h hsettled hpoll request).next fun _ => .pure trivial
  | inject page offset mask =>
    have houtside : IsOutside fun device => device.inject page offset mask :=
      ⟨fun _ => rfl, fun _ => rfl, fun _ => rfl⟩
    exact inStep_touch htouch houtside
  | wearOut block =>
    have houtside : IsOutside fun device => device.wearOut block :=
      ⟨fun _ => rfl, fun _ => rfl, fun _ => rfl⟩
    exact inStep_touch htouch houtside
  | setHang hang =>
    have houtside : IsOutside fun device => device.setHang hang :=
      ⟨fun _ => rfl, fun _ => rfl, fun _ => rfl⟩
    exact inStep_touch htouch houtside

/-- A session goes on the trail as on the device, step by step. -/
theorem inStep_playAll (events : List Event) :
    InStep may (Controller.Paired profile (Behind keep)) (events.mapM Controller.play)
      (events.mapM play) Any :=
  (InStep.mapM fun event => inStep_play h hsettled hpoll htouch event).mono fun _ _ => trivial

end

end Trail

end NandFlash
