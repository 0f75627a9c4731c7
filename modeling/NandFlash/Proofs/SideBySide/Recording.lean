import NandFlash.Proofs.AnyBus.Recording
import NandFlash.Proofs.SideBySide.Operations

/-!
# Recordings beside themselves

A run on a recorded bus, put beside itself, shows what every run that returns has put on record. The
bus may be any bus and a wait may take as long as it likes: a run that crashes is beside one that
does, too. `BusEvent.Confined` is such a property of a record. It says that nothing but the given
pages has been addressed, and operations on these pages keep it.
-/

namespace NandFlash

namespace BusEvent

/-- The events of a command that is sent with a column and a row. -/
def framing (rowCycles : Nat) (command : Command) (column row : Nat) : List BusEvent :=
  .write32 Register.command command.code.toUInt32 ::
    (Framing.addressWords rowCycles command (some column) (some row)).map
      (.write32 Register.address)

/-- Of all the pages of the chip, only the given ones have been addressed. Every word that goes to
the address register belongs to the complete address of one of them, right behind the command that
it is for, and the commands without an address are those that go on with the page. -/
inductive Confined (rowCycles : Nat) (pages : List Nat) : List BusEvent → Prop where
  | nil : Confined rowCycles pages []
  | address {events command column page} (h : Confined rowCycles pages events)
    (hcommand : command = .read ∨ command = .programSetup) (hpage : page ∈ pages) :
    Confined rowCycles pages (events ++ framing rowCycles command column page)
  | command {events command} (h : Confined rowCycles pages events)
    (hcommand : command ∈ [Command.readConfirm, .program, .status]) :
    Confined rowCycles pages (events ++ [.write32 Register.command command.code.toUInt32])
  | data {events value} (h : Confined rowCycles pages events) :
    Confined rowCycles pages (events ++ [.read32 Register.data value])
  | quiet {events event} (h : Confined rowCycles pages events) (hevent : event.IsOffPorts) :
    Confined rowCycles pages (events ++ [event])

end BusEvent

namespace Monitor

open BusEvent

variable {α β : Type} {P Q : List BusEvent → Prop}

/-! ## Accesses -/

theorem Logged.push {monitor : Monitor β} (h : Logged P monitor) {event : BusEvent}
    (hevent : ∀ events, P events → Q (events ++ [event])) (device : β) (faults : List Fault) :
    Logged Q ⟨device, monitor.recorded.map (·.push event), faults⟩ := by
  obtain ⟨events, hrecorded, hevents⟩ := h
  refine ⟨events.push event, by rw [hrecorded]; rfl, ?_⟩
  rw [Array.toList_push]
  exact hevent _ hevents

theorem run_onDevice_crash {action : Action β α} {monitor : Monitor β} {defect : Crash}
    (h : action.run monitor.device = .error defect) :
    (onDevice action).run monitor = .error defect := by
  show (action.run monitor.device >>= fun r => _) = _
  rw [h]
  rfl

theorem parallel_pass {action : Action β α} {event : α → BusEvent} {Q : α → List BusEvent → Prop}
    (hevent : ∀ a events, P events → Q a (events ++ [event a])) :
    Parallel Any (Twice (Logged P)) (pass action event) (pass action event)
      fun a => Twice (Logged (Q a)) := by
  refine Parallel.twice fun monitor a next hlogged hrun => ?_
  cases haction : action.run monitor.device with
  | ok result =>
    cases (run_pass event haction).symm.trans hrun
    exact hlogged.push (hevent _) _ _
  | error defect =>
    cases (run_bind_crash (run_onDevice_crash haction)).symm.trans hrun

variable [Bus β]

theorem parallel_write32 {offset : Nat} {value : UInt32}
    (hevent : ∀ events, P events → Q (events ++ [.write32 offset value])) :
    Parallel Any (Twice (Logged (β := β) P)) (Bus.write32 offset value) (Bus.write32 offset value)
      fun _ => Twice (Logged Q) :=
  parallel_pass fun _ => hevent

theorem parallel_read32 {Q : UInt32 → List BusEvent → Prop} {offset : Nat}
    (hevent : ∀ value events, P events → Q value (events ++ [.read32 offset value])) :
    Parallel Any (Twice (Logged (β := β) P)) (Bus.read32 offset) (Bus.read32 offset)
      fun value => Twice (Logged (Q value)) := by
  refine Parallel.twice fun monitor a next hlogged hrun => ?_
  cases haction : (Bus.read32 offset).run monitor.device with
  | ok result =>
    cases (run_read32 haction).symm.trans hrun
    exact hlogged.push (hevent _) _ _
  | error defect =>
    cases (run_bind_crash (run_onDevice_crash haction)).symm.trans hrun

section

variable (hquiet : ∀ events event, P events → event.IsOffPorts → P (events ++ [event]))

include hquiet

omit [Bus β] in
theorem inStep_pass {action : Action β α} {event : α → BusEvent}
    (hoff : ∀ a, (event a).IsOffPorts) :
    InStep Any (Twice (Logged P)) (pass action event) (pass action event) Any :=
  (parallel_pass fun a events h => hquiet events _ h (hoff a)).inStep

theorem inStep_write32 {offset : Nat} (hport : ¬Bus.IsChipPort offset) (value : UInt32) :
    InStep Any (Twice (Logged (β := β) P)) (Bus.write32 offset value) (Bus.write32 offset value)
      Any :=
  inStep_pass hquiet fun _ => hport

theorem inStep_read32 {offset : Nat} (hport : ¬Bus.IsChipPort offset) :
    InStep Any (Twice (Logged (β := β) P)) (Bus.read32 offset) (Bus.read32 offset) Any :=
  (parallel_read32 fun _ events h => hquiet events _ h hport).inStep

theorem inStep_modify32 {offset : Nat} (hport : ¬Bus.IsChipPort offset)
    (change : UInt32 → UInt32) :
    InStep Any (Twice (Logged (β := β) P)) (Bus.modify32 offset change) (Bus.modify32 offset change)
      Any :=
  (inStep_read32 hquiet hport).next fun value => inStep_write32 hquiet hport (change value)

/-- A condition on the record that accesses off the ports of the chip do not disturb outlives every
transfer. -/
theorem permits (setup : TransferSetup) :
    Bus.Permits Any setup (Twice (Logged (β := β) P)) where
  read32 hport := inStep_read32 hquiet hport
  write32 hport _ := inStep_write32 hquiet hport
  writeSpareSize := inStep_write32 hquiet (by decide) _
  setControl _ _ := inStep_modify32 hquiet (by decide) _
  selectChip := inStep_modify32 hquiet (by decide) _
  configureEcc := by
    unfold Bus.configureEcc
    cases setup.strength.selectBits? with
    | none => exact inStep_modify32 hquiet (by decide) _
    | some bits =>
      exact (inStep_modify32 hquiet (by decide) _).next fun _ =>
        inStep_modify32 hquiet (by decide) _
  read8 i := inStep_pass hquiet fun _ => Bus.not_isChipPort_window i
  write8 i _ := inStep_pass hquiet fun _ => Bus.not_isChipPort_window i
  dmaAddress _ := inStep_pass hquiet fun _ => trivial
  dmaToDevice _ := inStep_pass hquiet fun _ => trivial
  dmaFromDevice _ := inStep_pass hquiet fun _ => trivial

end

/-! ## Commands -/

/-- Words that go to one register are recorded one after the other, by induction on the words. -/
theorem parallel_forM_write32 (offset : Nat) (words : List UInt32) :
    Parallel Any (Twice (Logged (β := β) P)) (words.forM fun word => Bus.write32 offset word)
      (words.forM fun word => Bus.write32 offset word)
      fun _ => Twice (Logged fun events =>
        ∃ before, P before ∧ events = before ++ words.map (.write32 offset)) := by
  induction words generalizing P with
  | nil =>
    refine Parallel.pure ?_
    rintro monitor _ ⟨rfl, events, hrecorded, h⟩
    exact ⟨rfl, events, hrecorded, events.toList, h, (List.append_nil _).symm⟩
  | cons word words ih =>
    have hword : Parallel Any (Twice (Logged (β := β) P)) (Bus.write32 offset word)
        (Bus.write32 offset word) fun _ => Twice (Logged fun events =>
          ∃ before, P before ∧ events = before ++ [.write32 offset word]) :=
      parallel_write32 fun events h => ⟨events, h, rfl⟩
    refine (hword.bind fun _ => ih).mono (fun _ _ h => h) ?_
    rintro _ monitor _ ⟨rfl, events, hrecorded, _, ⟨before, h, rfl⟩, heq⟩
    exact ⟨rfl, events, hrecorded, before, h, heq.trans (List.append_assoc _ _ _)⟩

variable {poll : Poll} {rowCycles : Nat}

/-- A command with its address, and what comes before the wait. -/
theorem inStep_send (hquiet : ∀ events event, P events → event.IsOffPorts → P (events ++ [event]))
    (hconfirm : ∀ events, P events →
      P (events ++ [.write32 Register.command Command.readConfirm.code.toUInt32]))
    {command : Command} (hcommand : command ∈ [Command.read, .programSetup, .program, .status])
    {column row : Option Nat}
    (hframe : ∀ events, P events → P (events ++ .write32 Register.command command.code.toUInt32 ::
      (Framing.addressWords rowCycles command column row).map (.write32 Register.address))) :
    TryInStep Any (Twice (Logged (β := β) P)) (Framing.send poll rowCycles command column row)
      (Framing.send poll rowCycles command column row) Any := by
  have hready : TryInStep Any (Twice (Logged (β := β) P)) (Framing.waitReady poll)
      (Framing.waitReady poll) Any :=
    .wait (.inl trivial) (.perform ((permits hquiet ⟨.none, 0⟩).anySet (by decide) _))
  have hconclude : TryInStep Any (Twice (Logged (β := β) P)) (Framing.conclude poll command)
      (Framing.conclude poll command) Any := by
    simp only [List.mem_cons, List.not_mem_nil, or_false] at hcommand
    rcases hcommand with rfl | rfl | rfl | rfl
    · exact (TryInStep.perform (parallel_write32 hconfirm).inStep).next fun _ => hready
    · exact TryInStep.pure trivial
    · exact TryInStep.pure trivial
    · exact TryInStep.pure trivial
  have hcode : Parallel Any (Twice (Logged (β := β) P)) (Framing.writeCommand command)
      (Framing.writeCommand command) fun _ => Twice (Logged fun events => ∃ before, P before ∧
        events = before ++ [.write32 Register.command command.code.toUInt32]) :=
    parallel_write32 fun events h => ⟨events, h, rfl⟩
  refine .of_parallel (hcode.perform.attempt_bind fun _ =>
    (Parallel.perform ((parallel_forM_write32 _ _).mono (fun _ _ h => h) ?_)).attempt_bind
      fun _ => hconclude.parallel_any)
  -- In between the condition need not hold; it does again with the last word.
  rintro _ monitor _ ⟨rfl, events, hrecorded, _, ⟨before, h, rfl⟩, heq⟩
  refine ⟨rfl, events, hrecorded, ?_⟩
  rw [heq, List.append_assoc]
  exact hframe before h

/-- What is done with some pages is confined to them. -/
theorem admits (profile : Profile) (pages : List Nat) : Bus.Admits Any profile (· ∈ pages)
    (Twice (Logged (β := β) (Confined profile.chip.rowCycles pages))) where
  toPermits := permits (fun _ _ h hevent => h.quiet hevent) _
  address hpage _ _ hcommand _ := by
    refine inStep_send (fun _ _ h hevent => h.quiet hevent)
      (fun _ h => h.command (by decide)) ?_ fun _ h => h.address hcommand hpage
    rcases hcommand with rfl | rfl <;> decide
  bare command hcommand := by
    refine inStep_send (fun _ _ h hevent => h.quiet hevent)
      (fun _ h => h.command (by decide)) (List.mem_cons_of_mem _ (List.mem_cons_of_mem _ hcommand))
      fun _ h => ?_
    have hlone : Framing.addressWords profile.chip.rowCycles command none none = [] := by
      rw [Framing.addressWords, if_neg (by rintro rfl; simp at hcommand)]
      rfl
    rw [hlone]
    exact h.command (List.mem_cons_of_mem _ hcommand)
  readPort := (parallel_read32 fun _ _ h => h.data).inStep

end Monitor

end NandFlash
