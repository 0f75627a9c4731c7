import NandFlash.Proofs.Sim.Unconditional
import NandFlash.Proofs.SideBySide.Trail

/-!
# The protocol of the chip

A chip insists on its protocol: the address bytes of a command come right behind it, as many as the
command asks for, with a mark on the last one, and the spare command of small pages does not come
at all. A driver that breaks it crashes the device. Here is what the protocol says of all that has
gone over the bus, and what a device makes of commands and address phases, in any state it may be
in.
-/

namespace NandFlash

/-! ## What goes over the bus -/

/-- The number of address bytes of a phase, on a chip with `rowCycles` row cycles. -/
def AddressPhase.cycles (phase : AddressPhase) (rowCycles : Nat) : Nat :=
  phase.columnCycles + if phase.hasRow then rowCycles else 0

/-- A command that opens no address phase and that large pages have. -/
def Command.IsBare (command : Command) : Prop :=
  command ≠ .readSpare ∧ ∀ phase : AddressPhase, phase.command ≠ command

/-- A call that writes no address byte, and no command but a bare one. -/
def BusEvent.IsQuiet : BusEvent → Prop
  | .write32 offset value => offset ≠ Register.address ∧
      (offset = Register.command → ∃ command : Command, command.IsBare ∧
        value = command.code.toUInt32)
  | .write8 offset _ => Register.window ≤ offset
  | .read32 .. | .read8 .. | .dmaAddress .. | .dmaToDevice _ | .dmaFromDevice _ | .delay _ => True

/-- Address words of which the last one is marked, and no other. -/
def Framing.IsMarked (words : List UInt32) : Prop :=
  ∃ inner last, words = inner ++ [last] ∧
    (∀ word ∈ inner, word &&& Bits.lastAddress = 0) ∧ last &&& Bits.lastAddress ≠ 0

namespace Sim

/-- Latches that hold the column and the row that have been sent, the row as far as the row cycles
spell it. -/
structure Latches.Holds (rowCycles : Nat) (column row : Option Nat) (latches : Latches) :
    Prop where
  column_eq : ∀ sent ∈ column, latches.column = sent
  row_eq : ∀ sent ∈ row, latches.row = sent % 256 ^ rowCycles

end Sim

namespace Trail

open Sim

/-- An address phase from its command to its last byte: it has as many bytes as the command asks
for, only the last one is marked, and after it the chip has understood what was sent. -/
structure IsPhase (rowCycles : Nat) (phase : AddressPhase) (column row : Option Nat)
    (words : List UInt32) (moments : List (Moment Device)) : Prop where
  words_eq : words = Framing.addressWords rowCycles phase.command column row
  events_eq : moments.map (·.event) =
    .write32 Register.command phase.command.code.toUInt32 ::
      words.map (.write32 Register.address ·)
  length_eq : words.length = phase.cycles rowCycles
  marked : Framing.IsMarked words
  holds : ∀ last ∈ moments.getLast?, last.device.latches.Holds rowCycles column row

/-- A past in which the protocol has been kept, with no address phase left open. -/
inductive Lawful (rowCycles : Nat) : List (Moment Device) → Prop where
  | begin : Lawful rowCycles []
  | access {past : List (Moment Device)} {moment : Moment Device} (h : Lawful rowCycles past)
    (hquiet : moment.event.IsQuiet) : Lawful rowCycles (past ++ [moment])
  | phase {past moments : List (Moment Device)} {phase : AddressPhase} {column row : Option Nat}
    {words : List UInt32} (h : Lawful rowCycles past)
    (hphase : IsPhase rowCycles phase column row words moments) :
    Lawful rowCycles (past ++ moments)

end Trail

namespace Sim

/-! ## Chips that carry commands out -/

/-- A chip whose pages can be counted, and which takes a number of row cycles. -/
structure Chip.Addressable (chip : Chip) (rowCycles : Nat) : Prop where
  pagesPerBlock_pos : 0 < chip.pagesPerBlock
  pages_lt : chip.blocks * chip.pagesPerBlock < UInt32.size
  rowCycles_eq : chip.rowCycles = .ok rowCycles

namespace Chip

variable {chip : Chip} {rowCycles : Nat}

/-- A row can be divided by the pages of a block. -/
theorem Addressable.quotient_eq (h : chip.Addressable rowCycles) (row : Nat) :
    quotient row chip.pagesPerBlock = .ok (row / chip.pagesPerBlock) :=
  if_neg (Nat.pos_iff_ne_zero.1 h.pagesPerBlock_pos)

/-- A row loses the bytes that are not sent. -/
theorem Addressable.rowAt_eq (h : chip.Addressable rowCycles) (command : Command) (row : Nat) :
    chip.rowAt rowCycles command row = .ok (row % 256 ^ rowCycles) := by
  simp only [rowAt, h.rowCycles_eq, bind, Except.bind, ne_eq, not_true_eq_false, if_false]
  rfl

theorem Addressable.rowCycles_pos (h : chip.Addressable rowCycles) : 0 < rowCycles := by
  obtain ⟨size, -, hcycles⟩ := exists_of_bind_eq_ok h.rowCycles_eq
  cases hcycles
  split <;> decide

/-- A chip takes as many row cycles as a controller sends, if the size that it has and the size that
its identification tells are on the same side of the limit. -/
theorem exists_addressable {size : Nat} (hpages : 0 < chip.pagesPerBlock)
    (hcount : chip.blocks * chip.pagesPerBlock < UInt32.size) (hsize : chip.size = .ok size)
    (hside : ∀ info, ChipInfo.decode chip.id = .ok info →
      (smallChipLimit < size ↔ smallChipLimit < info.chipSize)) :
    ∃ rowCycles, chip.Addressable rowCycles ∧
      ∀ info, ChipInfo.decode chip.id = .ok info → info.rowCycles = rowCycles := by
  refine ⟨if size > smallChipLimit then 3 else 2, ⟨hpages, hcount, ?_⟩, fun info hdecode => ?_⟩
  · simp only [Chip.rowCycles, hsize, bind, Except.bind]
    rfl
  · rw [ChipInfo.rowCycles]
    simp only [gt_iff_lt, hside info hdecode]

end Chip

namespace Device

variable {device next : Device} {rowCycles : Nat}

/-- A program can always be carried out. -/
theorem exists_program (h : device.chip.Addressable rowCycles) :
    ∃ next, device.program = .ok next := by
  have hpages : device.chip.pages = .ok (device.chip.blocks * device.chip.pagesPerBlock) :=
    if_pos h.pages_lt
  unfold program
  cases hpending : device.latches.pending with
  | none => exact ⟨_, rfl⟩
  | some pending =>
    simp only [modifyLatches, h.quotient_eq, hpages, bind, Except.bind]
    split
    · exact ⟨_, rfl⟩
    · exact ⟨_, rfl⟩

/-- The pages behind an existing block can be counted, and so an erase does not crash. -/
theorem exists_erase (h : device.chip.Addressable rowCycles) :
    ∃ next, device.erase = .ok next := by
  simp only [erase, h.quotient_eq, bind, Except.bind]
  split
  · exact ⟨_, rfl⟩
  · next haccepted =>
    have hblock : device.latches.row / device.chip.pagesPerBlock + 1 ≤ device.chip.blocks := by
      have hnot := (not_or.1 haccepted).1
      omega
    have hlast := Nat.lt_of_le_of_lt
      (Nat.mul_le_mul_right device.chip.pagesPerBlock hblock) h.pages_lt
    have hfirst := Nat.lt_of_le_of_lt
      (Nat.mul_le_mul_right device.chip.pagesPerBlock (Nat.le_succ _)) hlast
    simp only [word32, hlast, hfirst, if_true, discard, Functor.mapConst]
    exact ⟨_, rfl⟩

/-- The only command that a chip cannot carry out is the one that large pages do not have. -/
theorem exists_execute (h : device.chip.Addressable rowCycles) {command : Command}
    (hcommand : command ≠ .readSpare) : ∃ next, device.execute command = .ok next := by
  cases command with
  | read | readConfirm | columnRead | columnReadConfirm | columnWrite | programSetup | eraseSetup
  | readId | status | reset => exact ⟨_, rfl⟩
  | readSpare => exact absurd rfl hcommand
  | program | programCached => exact exists_program h
  | erase => exact exists_erase h

/-- Every command but the one that large pages do not have can be sent. -/
theorem exists_writeCommand (h : device.chip.Addressable rowCycles) {command : Command}
    (hcommand : command ≠ .readSpare) :
    ∃ next, (Framing.writeCommand command).run device = .ok ((), next) := by
  -- The command is logged before it is carried out.
  have hlogged : ({ device with
      log := { device.log with commands := device.log.commands.push command.code } } :
      Device).chip.Addressable rowCycles := h
  obtain ⟨next, hexecute⟩ := exists_execute hlogged hcommand
  rw [run_writeCommand, hexecute]
  exact ⟨next, rfl⟩

/-! ## A chip stays the same chip -/

/-- A write leaves the chip the same. -/
theorem AfterWrite.chip_eq {offset : Nat} (h : device.AfterWrite offset next) :
    next.chip = device.chip := by
  cases h with
  | dmaControl | control | status | data | window | plain => rfl
  | command hwritten => exact (fixed_writeCommand hwritten).chip_eq
  | address hwritten => exact (fixed_writeAddress hwritten).chip_eq

theorem AfterDmaToDevice.chip_eq {data : Bytes} (h : device.AfterDmaToDevice data next) :
    next.chip = device.chip := by
  cases h with
  | same | dropped | received => rfl

theorem AfterDmaFromDevice.chip_eq {data : Bytes} (h : device.AfterDmaFromDevice data next) :
    next.chip = device.chip := by
  cases h with
  | same | dropped | delivered => rfl

end Device

end Sim

/-! ## Address phases -/

/-- The phases of a controller, with the column and row it sends in them. -/
inductive AddressPhase.Sent : AddressPhase → Option Nat → Option Nat → Prop where
  | page {phase : AddressPhase} {column : Nat} (row : Nat)
    (hphase : phase = .read ∨ phase = .program) (hcolumn : column < 65536) :
    Sent phase (some column) (some row)
  | block (row : Nat) : Sent .erase none (some row)
  | id : Sent .readId none none

/-- A command of a controller opens a phase, or it is bare. -/
theorem Addressed.opens_or_isBare {command : Command} {column row : Option Nat}
    (h : Addressed command column row) :
    (∃ phase : AddressPhase, phase.command = command ∧ phase.Sent column row) ∨
      command.IsBare ∧ column = none ∧ row = none := by
  cases h with
  | page row hcommand hcolumn =>
    rcases hcommand with rfl | rfl
    · exact .inl ⟨.read, rfl, .page row (.inl rfl) hcolumn⟩
    · exact .inl ⟨.program, rfl, .page row (.inr rfl) hcolumn⟩
  | block row => exact .inl ⟨.erase, rfl, .block row⟩
  | bare hcommand =>
    refine .inr ⟨⟨?_, fun phase hphase => ?_⟩, rfl, rfl⟩
    · rintro rfl
      exact absurd hcommand (by decide)
    · subst hphase
      cases phase <;> exact absurd hcommand (by decide)

namespace Framing

variable {rowCycles : Nat}

/-- Only the last word of a row is marked as the last. -/
theorem isMarked_rowWords (h : 0 < rowCycles) (row : Nat) : IsMarked (rowWords rowCycles row) := by
  obtain ⟨cycles, rfl⟩ := Nat.exists_eq_succ_of_ne_zero (Nat.ne_of_gt h)
  exact ⟨_, _, rowWords_succ cycles row, fun _ => Sim.Device.byte_of_mem_rowWords cycles row,
    or_lastAddress_and _⟩

/-- Words before a marked sequence, without the mark, leave it marked. -/
theorem IsMarked.append {words : List UInt32} (h : IsMarked words) {before : List UInt32}
    (hbefore : ∀ word ∈ before, word &&& Bits.lastAddress = 0) : IsMarked (before ++ words) := by
  obtain ⟨inner, last, rfl, hinner, hlast⟩ := h
  refine ⟨before ++ inner, last, (List.append_assoc _ _ _).symm, fun word hword => ?_, hlast⟩
  exact (List.mem_append.1 hword).elim (hbefore word) (hinner word)

/-- A phase has as many words as it asks for, and only the last one is marked. -/
theorem framed_addressWords (hcycles : 0 < rowCycles) {phase : AddressPhase}
    {column row : Option Nat} (h : phase.Sent column row) :
    (addressWords rowCycles phase.command column row).length = phase.cycles rowCycles ∧
      IsMarked (addressWords rowCycles phase.command column row) := by
  have hlength : ∀ row, (rowWords rowCycles row).length = rowCycles := fun row => by
    rw [rowWords, List.length_map, List.length_range]
  cases h with
  | @page _ column row hphase =>
    have hwords : addressWords rowCycles phase.command (some column) (some row) =
        columnWords column false ++ rowWords rowCycles row := by
      rcases hphase with rfl | rfl <;> rfl
    -- Only the last word of the row is marked as the last.
    have hcolumn : ∀ word ∈ columnWords column false, word &&& Bits.lastAddress = 0 := by
      intro word hword
      simp only [columnWords, Bool.false_eq_true, if_false, UInt32.or_zero, List.mem_cons,
        List.not_mem_nil, or_false] at hword
      rcases hword with rfl | rfl <;> exact byte_and_lastAddress _
    rw [hwords]
    refine ⟨?_, (isMarked_rowWords hcycles row).append hcolumn⟩
    rw [List.length_append, hlength]
    rcases hphase with rfl | rfl <;> rfl
  | block row => exact ⟨(hlength row).trans (Nat.zero_add _).symm, isMarked_rowWords hcycles row⟩
  | id => exact ⟨rfl, [], Bits.lastAddress, rfl, fun _ h => absurd h List.not_mem_nil, by decide⟩

end Framing

namespace Sim

namespace Latches

@[simp] theorem column_retarget (latches : Latches) (phase : AddressPhase) :
    (latches.retarget phase).column = latches.column := by
  unfold retarget
  split <;> rfl

@[simp] theorem row_retarget (latches : Latches) (phase : AddressPhase) :
    (latches.retarget phase).row = latches.row := by
  unfold retarget
  split <;> rfl

end Latches

namespace Device

variable {device : Device} {rowCycles : Nat}

/-- Opening a phase forgets the address bytes of the one before. -/
theorem run_open (device : Device) (phase : AddressPhase) :
    ∃ next, (Framing.writeCommand phase.command).run device = .ok ((), next) ∧
      next.chip = device.chip ∧ next.latches.phase = some phase ∧ next.latches.address = [] := by
  rw [run_writeCommand]
  cases phase <;> exact ⟨_, rfl, rfl, rfl, rfl⟩

/-- What is sent in a phase arrives. -/
theorem exists_address (h : device.chip.Addressable rowCycles) {phase : AddressPhase}
    {column row : Option Nat} (hsent : phase.Sent column row)
    (hopen : device.latches.phase = some phase) (haddress : device.latches.address = []) :
    ∃ next, ((Framing.addressWords rowCycles phase.command column row).forM fun word =>
        Bus.write32 Register.address word : Action Device Unit).run device = .ok ((), next) ∧
      next.chip = device.chip ∧ next.latches.Holds rowCycles column row := by
  -- What is latched is what the words spell, for each of the three kinds of address.
  cases hsent with
  | @page _ column row hphase hcolumn =>
    have hrun := follows_pageAddress device hphase hopen haddress h.rowCycles_pos column row
    rw [h.rowAt_eq] at hrun
    obtain ⟨_, next, hrun, hcommanded, hlatched⟩ := hrun.exists_of_ok
    refine ⟨next, hrun, hcommanded.chip_eq, fun sent hsent => ?_, fun sent hsent => ?_⟩
    · cases hsent
      rw [hlatched, Latches.column_retarget]
      exact Nat.mod_eq_of_lt hcolumn
    · cases hsent
      rw [hlatched, Latches.row_retarget]
  | block row =>
    have hrun := follows_eraseAddress device hopen haddress h.rowCycles_pos row
    rw [h.rowAt_eq] at hrun
    obtain ⟨_, next, hrun, hcommanded, hrow⟩ := hrun.exists_of_ok
    refine ⟨next, hrun, hcommanded.chip_eq, fun sent hsent => ?_, fun sent hsent => ?_⟩
    · cases hsent
    · cases hsent
      exact hrow
  | id =>
    have hrun := follows_idAddress device hopen haddress
    rw [h.rowCycles_eq] at hrun
    obtain ⟨_, next, hrun, hcommanded, -⟩ := hrun.exists_of_ok
    refine ⟨next, hrun, hcommanded.chip_eq, fun sent hsent => ?_, fun sent hsent => ?_⟩
    · cases hsent
    · cases hsent

end Device

end Sim

namespace Trail

open Sim

/-- A sequence of writes leaves one moment for each of them. -/
theorem run_forM_write32 {offset : Nat} (words : List UInt32) {device next : Device}
    (past : List (Moment Device))
    (h : (words.forM fun word => Bus.write32 offset word : Action Device Unit).run device =
      .ok ((), next)) :
    ∃ moments : List (Moment Device),
      (words.forM fun word => Bus.write32 offset word : Action (Trail Device) Unit).run
        ⟨device, past⟩ = .ok ((), ⟨next, past ++ moments⟩) ∧
      moments.map (·.event) = words.map (.write32 offset ·) ∧
      (moments.getLast?.map (·.device)).getD device = next := by
  -- The trail grows by one moment for each word.
  induction words generalizing device past with
  | nil =>
    cases h
    exact ⟨[], by rw [List.append_nil]; rfl, rfl, rfl⟩
  | cons word words ih =>
    obtain ⟨_, mid, hword, hwords⟩ := exists_of_run_bind h
    obtain ⟨moments, hrun, hevents, hlast⟩ := ih (past ++ [⟨.write32 offset word, mid⟩]) hwords
    refine ⟨⟨.write32 offset word, mid⟩ :: moments, ?_, ?_, ?_⟩
    · rw [List.append_assoc] at hrun
      exact run_step (run_pass hword) hrun
    · rw [List.map_cons, hevents, List.map_cons]
    · rw [List.getLast?_cons, Option.map_some, Option.getD_some, ← hlast]
      cases moments.getLast? <;> rfl

end Trail

end NandFlash
