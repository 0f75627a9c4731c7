import NandFlash.Bus.Monitor
import NandFlash.Proofs.AnyBus.Access

/-!
# A recorder on any bus

A monitor that records serves the transfer engine as well as the device behind it does, and goes
on recording. What it falsifies makes no difference to that. A condition on the record that is
indifferent to what the engine does is kept by a whole transfer.
-/

namespace NandFlash

namespace BusEvent

/-- The command that an event gives to the chip. -/
def command? : BusEvent → Option Command
  | write32 offset value =>
    if offset = Register.command then Command.ofCode? value.toUInt8 else none
  | write8 offset value => if offset = Register.command then Command.ofCode? value else none
  | read32 .. | read8 .. | dmaAddress .. | dmaToDevice _ | dmaFromDevice _ | delay _ => none

/-- An event that does not go to a port of the chip. -/
def IsOffPorts : BusEvent → Prop
  | read32 offset _ | write32 offset _ | read8 offset _ | write8 offset _ => ¬Bus.IsChipPort offset
  | dmaAddress .. | dmaToDevice _ | dmaFromDevice _ | delay _ => True

theorem IsOffPorts.command?_eq {event : BusEvent} (h : event.IsOffPorts) :
    event.command? = none := by
  cases event with
  | write32 offset value | write8 offset value =>
    refine if_neg fun hoffset => h ?_
    rw [hoffset]
    decide
  | read32 | read8 | dmaAddress | dmaToDevice | dmaFromDevice | delay => rfl

/-- The commands that the chip is given in a trace. -/
def commands (trace : List BusEvent) : List Command := trace.filterMap command?

end BusEvent

namespace Bus

/-- The window lies behind the ports. -/
theorem not_isChipPort_window (i : Nat) : ¬IsChipPort (Register.window + i) := fun h =>
  absurd (Nat.le_trans (Nat.le_add_right _ i) h.2) (by decide)

end Bus

namespace Monitor

variable {α β : Type} {clock : β → Nat} {inv : β → Prop} {k : Nat}

/-- A monitor that records, with a device that satisfies `inv`. -/
structure Records (inv : β → Prop) (monitor : Monitor β) : Prop where
  device : inv monitor.device
  isSome : monitor.recorded.isSome = true

/-- The clock of the device behind a monitor. -/
def ticks (clock : β → Nat) (monitor : Monitor β) : Nat := clock monitor.device

theorem run_onDevice {action : Action β α} {monitor : Monitor β} {a : α} {device : β}
    (h : action.run monitor.device = .ok (a, device)) :
    (onDevice action).run monitor = .ok (a, { monitor with device }) := by
  show (action.run monitor.device >>= fun r => _) = _
  rw [h]
  rfl

theorem run_pass {action : Action β α} (event : α → BusEvent) {monitor : Monitor β} {a : α}
    {device : β} (h : action.run monitor.device = .ok (a, device)) :
    (pass action event).run monitor =
      .ok (a, ⟨device, monitor.recorded.map (·.push (event a)), monitor.faults⟩) :=
  run_step (run_onDevice h) rfl

theorem keeps_pass {action : Action β α} {post : α → Prop} (h : Keeps clock k inv action post)
    (event : α → BusEvent) : Keeps (ticks clock) k (Records inv) (pass action event) post := by
  intro monitor hmonitor
  obtain ⟨a, device, hrun, hclock, hdevice, hpost⟩ := h monitor.device hmonitor.device
  refine ⟨a, _, run_pass event hrun, hclock, ⟨hdevice, ?_⟩, hpost⟩
  exact Option.isSome_map.trans hmonitor.isSome

variable [Bus β]

/-- The answer goes on, and into the record, as it has been falsified. -/
theorem run_read32 {offset : Nat} {monitor : Monitor β} {value : UInt32} {device : β}
    (h : (Bus.read32 offset).run monitor.device = .ok (value, device)) :
    (Bus.read32 offset).run monitor =
      .ok ((Fault.applyAll offset value monitor.faults).1, ⟨device, monitor.recorded.map
        (·.push (.read32 offset (Fault.applyAll offset value monitor.faults).1)),
        (Fault.applyAll offset value monitor.faults).2⟩) := by
  have hfalsify : ∀ monitor : Monitor β, (falsify offset value).run monitor =
      .ok ((Fault.applyAll offset value monitor.faults).1, { monitor with
        faults := (Fault.applyAll offset value monitor.faults).2 }) := fun _ => rfl
  exact run_step (run_onDevice h) (run_step (hfalsify _) rfl)

/-- A monitor returns whenever its device does. -/
theorem answers (h : Bus.Answers clock) : Bus.Answers (ticks clock) := by
  have hpass : ∀ {α : Type} {action : Action β α} {post : α → Prop}, Keeps clock 1 Any action post →
      ∀ event : α → BusEvent, Keeps (ticks clock) 1 Any (pass action event) post := by
    intro α action post h event monitor _
    obtain ⟨a, device, hrun, hclock, -, hpost⟩ := h monitor.device trivial
    exact ⟨a, _, run_pass event hrun, hclock, trivial, hpost⟩
  refine ⟨fun offset monitor _ => ?_, fun offset value => hpass (h.write32 offset value) _,
    fun offset => hpass (h.read8 offset) _, fun offset value => hpass (h.write8 offset value) _,
    fun data => hpass (h.dmaAddress data) _, fun data => hpass (h.dmaToDevice data) _,
    fun data => hpass (h.dmaFromDevice data) _, fun nanoseconds => hpass (h.delay nanoseconds) _⟩
  obtain ⟨value, device, hrun, hclock, -⟩ := h.read32 offset monitor.device trivial
  exact ⟨_, _, run_read32 hrun, hclock, trivial, trivial⟩

theorem serves (h : Bus.Serves clock inv) : Bus.Serves (ticks clock) (Records inv) where
  register {offset} hport := by
    refine ⟨fun monitor hmonitor => ?_,
      fun value => keeps_pass ((h.register hport).write32 value) _⟩
    obtain ⟨value, device, hrun, hclock, hdevice, -⟩ :=
      (h.register hport).read32 monitor.device hmonitor.device
    refine ⟨_, _, run_read32 hrun, hclock, ⟨hdevice, ?_⟩, trivial⟩
    exact Option.isSome_map.trans hmonitor.isSome
  read8 i := keeps_pass (h.read8 i) _
  write8 i value := keeps_pass (h.write8 i value) _
  dmaAddress data := keeps_pass (h.dmaAddress data) _
  dmaToDevice data := keeps_pass (h.dmaToDevice data) _
  dmaFromDevice data := keeps_pass (h.dmaFromDevice data) _

/-! ## Conditions on the record -/

omit [Bus β] in
/-- A monitor that records, and has recorded what satisfies `P`. -/
def Logged (P : List BusEvent → Prop) (monitor : Monitor β) : Prop :=
  ∃ events, monitor.recorded = some events ∧ P events.toList

variable {P : List BusEvent → Prop} {Q : α → List BusEvent → Prop}

omit [Bus β] in
theorem within_pass {action : Action β α} {post : α → Prop} (h : Keeps clock k Any action post)
    {event : α → BusEvent} (hevent : ∀ a events, P events → Q a (events ++ [event a])) :
    Within (ticks clock) k (Logged P) (pass action event)
      fun a monitor => Logged (Q a) monitor ∧ post a := by
  rintro monitor ⟨events, hrecorded, hevents⟩
  obtain ⟨a, device, hrun, hclock, -, hpost⟩ := h monitor.device trivial
  refine ⟨a, _, run_pass event hrun, hclock, ⟨events.push (event a), ?_, ?_⟩, hpost⟩
  · show Option.map _ monitor.recorded = _
    rw [hrecorded]
    rfl
  · rw [Array.toList_push]
    exact hevent a _ hevents

variable (h : Bus.Answers clock)

include h

theorem within_write32 {Q : List BusEvent → Prop} {offset : Nat} {value : UInt32}
    (hevent : ∀ events, P events → Q (events ++ [.write32 offset value])) :
    Within (ticks clock) 1 (Logged P) (Bus.write32 offset value) fun _ => Logged Q :=
  (within_pass (h.write32 offset value) fun _ => hevent).mono (Nat.le_refl _) (fun _ h => h)
    fun _ _ h => h.1

theorem within_read32 {Q : UInt32 → List BusEvent → Prop} {offset : Nat}
    (hevent : ∀ value events, P events → Q value (events ++ [.read32 offset value])) :
    Within (ticks clock) 1 (Logged P) (Bus.read32 offset) fun value => Logged (Q value) := by
  rintro monitor ⟨events, hrecorded, hevents⟩
  obtain ⟨value, device, hrun, hclock, -⟩ := h.read32 offset monitor.device trivial
  refine ⟨_, _, run_read32 hrun, hclock,
    events.push (.read32 offset (Fault.applyAll offset value monitor.faults).1), ?_, ?_⟩
  · show Option.map _ monitor.recorded = _
    rw [hrecorded]
    rfl
  · rw [Array.toList_push]
    exact hevent _ _ hevents

/-- A condition on the record that accesses off the ports of the chip do not disturb. -/
theorem serves_logged (hquiet : ∀ events event, P events → event.IsOffPorts →
    P (events ++ [event])) : Bus.Serves (ticks clock) (Logged P) where
  register hport :=
    ⟨(within_read32 h fun _ events hevents => hquiet events _ hevents hport).mono (Nat.le_refl _)
        (fun _ h => h) fun _ _ h => ⟨h, trivial⟩,
      fun _ => (within_write32 h fun events hevents => hquiet events _ hevents hport).mono
        (Nat.le_refl _) (fun _ h => h) fun _ _ h => ⟨h, trivial⟩⟩
  read8 i := within_pass (h.read8 _) fun _ events hevents =>
    hquiet events _ hevents (Bus.not_isChipPort_window i)
  write8 i value := within_pass (h.write8 _ value) fun _ events hevents =>
    hquiet events _ hevents (Bus.not_isChipPort_window i)
  dmaAddress data := within_pass (h.dmaAddress data) fun _ events hevents =>
    hquiet events _ hevents trivial
  dmaToDevice data := within_pass (h.dmaToDevice data) fun _ events hevents =>
    hquiet events _ hevents trivial
  dmaFromDevice data := within_pass (h.dmaFromDevice data) fun _ events hevents =>
    hquiet events _ hevents trivial

end Monitor

end NandFlash
