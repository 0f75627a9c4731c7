import NandFlash.Proofs.Sim.History
import NandFlash.Proofs.Sim.InUse
import NandFlash.Proofs.SideBySide.Operations

/-!
# Tracing

Whatever a controller does to its device goes over the bus. What no access ends is therefore not
ended by probing, nor by any request, and a session adds nothing to the history of a device but
accesses and the changes from outside that are part of it.
-/

namespace NandFlash

variable {α : Type}

namespace Sim.Device

/-- A property of a device that no access ends. -/
def Lasts (P : Device → Prop) : Prop :=
  ∀ (device : Device) (access : Access) (next : Device), P device →
    access.run device = .ok next → P next

/-- Whatever accesses make of a device that can be reached can be reached. -/
theorem lasts_reachable : Lasts Reachable := fun _ _ _ h hrun => Access.reachable_of_run h hrun

/-- The same device twice, with a property. -/
def Same (P : Device → Prop) (device other : Device) : Prop := other = device ∧ P device

section

variable {P : Device → Prop}

/-- An action that is one access. -/
theorem Same.inStep {m : Action Device α}
    (h : ∀ device value next, P device → m.run device = .ok (value, next) → P next) :
    InStep Any (Same P) m m Any :=
  (Parallel.twice h).inStep

variable (h : Lasts P)

include h

/-- A read is one access. -/
theorem Same.inStep_read32 (offset : Nat) :
    InStep Any (Same P) (Bus.read32 offset) (Bus.read32 offset) Any :=
  Same.inStep fun device _ next hdevice hrun =>
    h device (.read32 offset) next hdevice (by rw [Access.run, hrun]; rfl)

/-- So is a write. -/
theorem Same.inStep_write32 (offset : Nat) (value : UInt32) :
    InStep Any (Same P) (Bus.write32 offset value) (Bus.write32 offset value) Any :=
  Same.inStep fun device _ next hdevice hrun =>
    h device (.write32 offset value) next hdevice (by rw [Access.run, hrun]; rfl)

/-- A change of a register is two. -/
theorem Same.inStep_modify32 (offset : Nat) (change : UInt32 → UInt32) :
    InStep Any (Same P) (Bus.modify32 offset change) (Bus.modify32 offset change) Any :=
  (Same.inStep_read32 h offset).next fun value => Same.inStep_write32 h offset (change value)

theorem Same.inStep_configureEcc (bits? : Option UInt32) :
    InStep Any (Same P) (Bus.configureEcc bits?) (Bus.configureEcc bits?) Any := by
  unfold Bus.configureEcc
  cases bits? with
  | none => exact Same.inStep_modify32 h _ _
  | some bits => exact (Same.inStep_modify32 h _ _).next fun _ => Same.inStep_modify32 h _ _

theorem Same.inStep_programGeometry (g : Geometry) :
    InStep Any (Same P) (Controller.programGeometry g) (Controller.programGeometry g) Any := by
  unfold Controller.programGeometry
  refine (Same.inStep_modify32 h _ _).next fun _ => (Same.inStep_write32 h _ _).next fun _ => ?_
  refine (Same.inStep_modify32 h _ _).next fun _ => (Same.inStep_modify32 h _ _).next fun _ => ?_
  exact Same.inStep_configureEcc h _

/-- A command is a sequence of writes and of looks at the status register. -/
theorem Same.inStep_send (poll : Poll) (cycles : Nat) {command : Command}
    (hcommand : command ≠ .columnRead) (column row : Option Nat) :
    TryInStep Any (Same P) (Framing.send poll cycles command column row)
      (Framing.send poll cycles command column row) Any :=
  Framing.inStep_send (.inl trivial) (fun offset _ value => Same.inStep_write32 h offset value)
    ((Same.inStep_read32 h _).next fun _ => .pure trivial) cycles hcommand column row

/-- Probing is made of accesses only. -/
theorem Same.wakes (poll : Poll) :
    Bus.Wakes Any poll (Same P) (Same P) Any fun _ => Same P where
  enable offset _ value := Same.inStep_write32 h offset value
  selectChip := (Same.inStep_modify32 h _ _).parallel
  unlock := Same.inStep_write32 h _ _
  reset := Same.inStep_modify32 h _ _
  isReset := (Same.inStep_read32 h _).next fun _ => .pure trivial
  sendReset := Same.inStep_send h poll 0 (by decide) none none
  readId := Framing.inStep_readId (Same.inStep_send h poll 0 (by decide) none none)
    (Same.inStep_read32 h _)
  programGeometry g := (Same.inStep_programGeometry h g).parallel

/-- Every transfer keeps to accesses. -/
theorem Same.permits (setup : TransferSetup) : Bus.Permits Any setup (Same P) where
  read32 _ := Same.inStep_read32 h _
  write32 _ _ value := Same.inStep_write32 h _ value
  writeSpareSize := Same.inStep_write32 h _ _
  setControl _ _ := Same.inStep_modify32 h _ _
  selectChip := Same.inStep_modify32 h _ _
  configureEcc := Same.inStep_configureEcc h _
  read8 i := Same.inStep fun device _ next hdevice hrun =>
    h device (.read8 _) next hdevice (by rw [Access.run, hrun]; rfl)
  write8 i value := Same.inStep fun device _ next hdevice hrun =>
    h device (.write8 _ value) next hdevice (by rw [Access.run, hrun]; rfl)
  dmaAddress _ := Same.inStep fun _ _ _ hdevice hrun => by
    cases hrun
    exact hdevice
  dmaToDevice data := Same.inStep fun device _ next hdevice hrun =>
    h device (.dmaToDevice data) next hdevice (by rw [Access.run, hrun]; rfl)
  dmaFromDevice data := Same.inStep fun device _ next hdevice hrun =>
    h device (.dmaFromDevice data) next hdevice (by rw [Access.run, hrun]; rfl)

/-- So does every request, with its commands and the bytes that go through the data register. -/
theorem Same.tolerates (profile : Profile) : Bus.Tolerates Any profile (Same P) where
  toPermits := Same.permits h _
  send haddressed := Same.inStep_send h _ _ haddressed.ne_columnRead _ _
  readId := Framing.inStep_readId (Same.inStep_send h _ 0 (by decide) none none)
    (Same.inStep_read32 h _)
  readPort := Same.inStep_read32 h _
  writePort value := Same.inStep_write32 h _ value

end

end Sim.Device

open Sim

namespace Controller

variable {P : Device → Prop} {controller next : Controller Device}

/-- What no access ends is there after probing. -/
theorem lasts_probe (hlasts : Device.Lasts P) {device : Device} (h : P device) {setting : PowerOn}
    {config : Config} (hprobe : probe setting config device = .ok (.ok controller)) :
    P controller.channel.bus := by
  obtain ⟨profile, probed, hbringUp, rfl⟩ := exists_of_probe hprobe
  obtain ⟨_, -, hend⟩ := (parallel_bringUp (Device.Same.wakes hlasts config.poll) (.inl trivial)
    setting).exists_of_run ⟨rfl, h⟩ hbringUp
  exact hend.1.2

/-- What no access ends is there after every request. -/
theorem lasts_serve (hlasts : Device.Lasts P) (hrests : controller.Rests)
    (h : P controller.channel.bus) {request : Request} {reply : Reply}
    (hserve : (serve request).run controller = .ok (reply, next)) : P next.channel.bus := by
  have hpaired : Paired controller.profile (Device.Same P) controller controller :=
    ⟨rfl, rfl, ⟨rfl, rfl, h⟩, hrests.size_eq, rfl, rfl⟩
  obtain ⟨_, -, hnext, -⟩ := (inStep_serve (Device.Same.tolerates hlasts controller.profile)
    hrests.settled (.inl trivial) request).exists_of_run hpaired hserve
  exact hnext.channel.bus.2

/-- The device of a controller in use is one that can be reached, by induction from one step. -/
theorem InUse.reachable (h : controller.InUse) : controller.channel.bus.Reachable := by
  induction h with
  | probed hdevice hprobe => exact lasts_probe Device.lasts_reachable hdevice hprobe
  | @played _ event _ _ hinUse hplay ih =>
    cases event with
    | request request =>
      obtain ⟨reply, next, hserve, hrest⟩ := exists_of_run_bind hplay
      cases hrest
      exact lasts_serve Device.lasts_reachable hinUse.steady.rests ih hserve
    | inject page offset mask =>
      cases hplay
      exact ih.step (.inject page offset mask)
    | wearOut block =>
      cases hplay
      exact ih.step (.wearOut block)
    | setHang hang =>
      cases hplay
      exact ih.step (.setHang hang)

end Controller

/-! ## Sessions -/

/-- The change from outside that an event is, unless it is a request. -/
def Event.incident? : Event → Option Incident
  | .request _ => none
  | .inject page offset mask => some (.inject page offset mask)
  | .wearOut block => some (.wearOut block)
  | .setHang hang => some (.setHang hang)

/-- An episode of a session: an access, or one of the changes from outside. -/
def Sim.Episode.IsOf (events : List Event) (episode : Episode) : Prop :=
  episode.IsAccess ∨ ∃ event ∈ events, event.incident? = some episode.incident

namespace Controller

variable {controller : Controller Device} {events : List Event} {device : Device}

/-- The device has come from `start` by episodes of a session. -/
def ComesBy (events : List Event) (start device : Device) : Prop :=
  ∃ run, Run start run device ∧ ∀ episode ∈ run, episode.IsOf events

/-- An episode of the session comes after those that have been. -/
theorem ComesBy.next {start next : Device} (h : ComesBy events start device) (incident : Incident)
    (hrun : incident.run device = .ok next)
    (hof : (⟨device, incident, next⟩ : Episode).IsOf events) : ComesBy events start next := by
  obtain ⟨run, hstart, hall⟩ := h
  exact ⟨_, hstart.next incident hrun, List.forall_mem_cons.2 ⟨hof, hall⟩⟩

theorem lasts_comesBy (events : List Event) (start : Device) :
    Device.Lasts (ComesBy events start) :=
  fun _ access _ h hrun => h.next (.onBus access) hrun (.inl ⟨access, rfl⟩)

/-- What happens in a session adds episodes of that session only. -/
theorem comesBy_play {start : Device} (h : controller.Steady)
    (hcome : ComesBy events start controller.channel.bus) {event : Event} (hmem : event ∈ events)
    {reply : Option Reply} {next : Controller Device}
    (hplay : (play event).run controller = .ok (reply, next)) :
    ComesBy events start next.channel.bus := by
  cases event with
  | request request =>
    obtain ⟨reply, mid, hserve, hrest⟩ := exists_of_run_bind hplay
    cases hrest
    exact lasts_serve (lasts_comesBy events start) h.rests hcome hserve
  | inject | wearOut | setHang =>
    cases hplay
    exact hcome.next _ rfl (.inr ⟨_, hmem, rfl⟩)

/-- A session adds nothing to the history of its device but accesses and its own changes from
outside, by induction on its events. -/
theorem comesBy_playAll {start : Device} (h : controller.Steady)
    (hcome : ComesBy events start controller.channel.bus) {rest : List Event}
    (hrest : ∀ event ∈ rest, event ∈ events) {replies : List (Option Reply)}
    {last : Controller Device} (hplay : (rest.mapM play).run controller = .ok (replies, last)) :
    ComesBy events start last.channel.bus ∧ last.Steady := by
  induction rest generalizing controller replies with
  | nil =>
    cases hplay
    exact ⟨hcome, h⟩
  | cons event rest ih =>
    rw [List.mapM_cons] at hplay
    obtain ⟨reply, next, hfirst, hplay⟩ := exists_of_run_bind hplay
    obtain ⟨replies, mid, hothers, hplay⟩ := exists_of_run_bind hplay
    cases hplay
    exact ih (h.play hfirst) (comesBy_play h hcome (hrest _ List.mem_cons_self) hfirst)
      (fun other hmem => hrest _ (List.mem_cons_of_mem _ hmem)) hothers

end Controller

end NandFlash
