import NandFlash.Proofs.Sim.Genuine

/-!
# Cycles

What a bus access does to the chip depends on no more than what it puts on the chip's own bus: a
command, or a word of an address. All other accesses leave the flash, the address phase and the
target of a program alone. `Device.AfterAccess` says what a device can be after any access, and the
rest is read off it.
-/

namespace NandFlash.Sim

/-! ## Accesses -/

/-- An access to the register bus. -/
inductive Access where
  | read32 (offset : Nat)
  | write32 (offset : Nat) (value : UInt32)
  | read8 (offset : Nat)
  | write8 (offset : Nat) (value : UInt8)
  | modify32 (offset : Nat) (change : UInt32 → UInt32)
  | dmaToDevice (data : Bytes)
  | dmaFromDevice (data : Bytes)

/-- What the chip gets to see of a write. -/
inductive Cycle where
  | command (opcode : UInt8)
  | address (word : UInt32)
deriving DecidableEq, Repr

/-- The cycle that a write to a register comes to, if it comes to one. -/
def Cycle.ofWrite? (offset : Nat) (value : UInt32) : Option Cycle :=
  if offset = Register.command then some (.command value.toUInt8)
  else if offset = Register.address then some (.address value)
  else none

namespace Access

/-- The device after an access; what the access answers is left out. -/
def run (device : Device) : Access → Except Crash Device
  | .read32 offset => ((Bus.read32 offset).run device).map (·.2)
  | .write32 offset value => ((Bus.write32 offset value).run device).map (·.2)
  | .read8 offset => ((Bus.read8 offset).run device).map (·.2)
  | .write8 offset value => ((Bus.write8 offset value).run device).map (·.2)
  | .modify32 offset change => ((Bus.modify32 offset change).run device).map (·.2)
  | .dmaToDevice data => ((Bus.dmaToDevice data).run device).map (·.2)
  | .dmaFromDevice data => ((Bus.dmaFromDevice data).run device).map (·.2)

/-- The cycle that the chip gets to see of an access. -/
def cycle? (device : Device) : Access → Option Cycle
  | .write32 offset value => Cycle.ofWrite? offset value
  | .write8 offset value => Cycle.ofWrite? offset value.toUInt32
  | .modify32 offset change => Cycle.ofWrite? offset (change (device.engine.register offset))
  | .read32 _ | .read8 _ | .dmaToDevice _ | .dmaFromDevice _ => none

/-- The command that an access gives to the chip, if it is one the chip knows. -/
def command? (device : Device) (access : Access) : Option Command :=
  match access.cycle? device with
  | some (.command opcode) => Command.ofCode? opcode
  | _ => none

/-- Does the access end an address phase? -/
def endsAddress (device : Device) (access : Access) : Bool :=
  match access.cycle? device with
  | some (.address word) => word &&& Bits.lastAddress != 0
  | _ => false

end Access

/-! ## Accesses that the chip does not get to see -/

namespace Latches

variable {latches mid next : Latches}

/-- The row that a program would go to, if a page is being collected. -/
def target (latches : Latches) : Option Nat := latches.pending.map (·.row)

/-- Neither the address phase, nor the row, nor the target of a program has changed. -/
structure Quiet (latches next : Latches) : Prop where
  phase_eq : next.phase = latches.phase
  row_eq : next.row = latches.row
  target_eq : next.target = latches.target

theorem Quiet.refl (latches : Latches) : latches.Quiet latches := ⟨rfl, rfl, rfl⟩

theorem Quiet.trans (h : latches.Quiet mid) (h' : mid.Quiet next) : latches.Quiet next :=
  ⟨h'.phase_eq.trans h.phase_eq, h'.row_eq.trans h.row_eq, h'.target_eq.trans h.target_eq⟩

/-- Bytes that are read move the cursor only. -/
theorem quiet_readByte (latches : Latches) (id : IdBytes) :
    latches.Quiet (latches.readByte id).2 := by
  unfold readByte
  split <;> exact ⟨rfl, rfl, rfl⟩

/-- Bytes that are written go into the page, and leave its row alone. -/
theorem quiet_writeByte (latches : Latches) (byte : UInt8) :
    latches.Quiet (latches.writeByte byte) := by
  unfold writeByte
  split
  · next pending hpending => exact ⟨rfl, rfl, by rw [target, target, hpending]; rfl⟩
  · exact .refl latches

/-- A page that comes by transfer is collected for the same row. -/
theorem quiet_receive (latches : Latches) (data : Bytes) (spareStart : Nat) (spare : Bytes)
    (ecc : Bool) : latches.Quiet (latches.receive data spareStart spare ecc) := by
  unfold receive
  split
  · next pending hpending => exact ⟨rfl, rfl, by rw [target, target, hpending]; rfl⟩
  · exact .refl latches

end Latches

namespace Device

variable {device mid next : Device}

/-- Neither the flash nor what the chip has been told of an address has changed. -/
structure Quiet (device next : Device) : Prop where
  chip_eq : next.chip = device.chip
  array_eq : next.array = device.array
  latches : device.latches.Quiet next.latches

theorem Quiet.refl (device : Device) : device.Quiet device := ⟨rfl, rfl, .refl _⟩

theorem Quiet.trans (h : device.Quiet mid) (h' : mid.Quiet next) : device.Quiet next :=
  ⟨h'.chip_eq.trans h.chip_eq, h'.array_eq.trans h.array_eq, h.latches.trans h'.latches⟩

/-- A read is none of the chip's business, except for the byte it may take. -/
theorem AfterRead.quiet (h : device.AfterRead next) : device.Quiet next := by
  cases h with
  | same => exact .refl device
  | shown => exact ⟨rfl, rfl, Latches.quiet_readByte _ _⟩

/-- Only two registers are ports to the chip's bus. -/
theorem AfterWrite.quiet {offset : Nat} (h : device.AfterWrite offset next)
    (hcommand : offset ≠ Register.command) (haddress : offset ≠ Register.address) :
    device.Quiet next := by
  cases h with
  | dmaControl | control | status | window | plain => exact ⟨rfl, rfl, .refl _⟩
  | command => exact absurd rfl hcommand
  | address => exact absurd rfl haddress
  | data byte => exact ⟨rfl, rfl, Latches.quiet_writeByte _ _⟩

/-- A transfer to flash does no more than fill the page that is being collected. -/
theorem AfterDmaToDevice.quiet {data : Bytes} (h : device.AfterDmaToDevice data next) :
    device.Quiet next := by
  cases h with
  | same => exact .refl device
  | dropped => exact ⟨rfl, rfl, .refl _⟩
  | received => exact ⟨rfl, rfl, Latches.quiet_receive _ _ _ _ _⟩

/-- A transfer from flash leaves the latches alone. -/
theorem AfterDmaFromDevice.quiet {data : Bytes} (h : device.AfterDmaFromDevice data next) :
    device.Quiet next := by
  cases h with
  | same => exact .refl device
  | dropped | delivered => exact ⟨rfl, rfl, .refl _⟩

end Device

/-! ## What an access does to the chip -/

namespace Access

variable {device next : Device} {access : Access}

/-- What a cycle does to a device. -/
def Does (device next : Device) : Option Cycle → Prop
  | some (.command opcode) => device.writeCommand opcode = .ok next
  | some (.address word) => device.writeAddress word = .ok next
  | none => device.Quiet next

/-- A write does to the chip what its cycle on the bus does. -/
theorem does_write32 {offset : Nat} {value : UInt32}
    (h : (Bus.write32 offset value).run device = .ok ((), next)) :
    Does device next (Cycle.ofWrite? offset value) := by
  unfold Cycle.ofWrite?
  split_ifs with hcommand haddress
  · rw [hcommand, Device.run_write32_command] at h
    obtain ⟨written, hwritten, heq⟩ := exists_of_map_eq_ok h
    cases heq
    exact hwritten
  · rw [haddress, Device.run_write32_address] at h
    obtain ⟨written, hwritten, heq⟩ := exists_of_map_eq_ok h
    cases heq
    exact hwritten
  · exact (Device.AfterWrite.of_write32 h).quiet hcommand haddress

/-- A byte goes to the window, or it is written as a word. -/
theorem does_write8 {offset : Nat} {value : UInt8}
    (h : (Bus.write8 offset value).run device = .ok ((), next)) :
    Does device next (Cycle.ofWrite? offset value.toUInt32) := by
  change (Device.write8 offset value).run device = _ at h
  unfold Device.write8 at h
  cases hindex : Window.index? offset 1 with
  | none =>
    simp only [hindex] at h
    exact does_write32 h
  | some i =>
    simp only [hindex] at h
    cases h
    have hwindow : Register.window ≤ offset := by
      rw [Window.index?] at hindex
      split at hindex
      · next hinside => exact hinside.1
      · cases hindex
    have hcommand : Register.command < Register.window := by decide
    have haddress : Register.address < Register.window := by decide
    rw [Cycle.ofWrite?, if_neg (by omega), if_neg (by omega)]
    exact ⟨rfl, rfl, .refl _⟩

/-- What comes before a write that goes to the chip is a read that changes nothing. -/
theorem does_modify32 {offset : Nat} {change : UInt32 → UInt32}
    (h : (Bus.modify32 offset change).run device = .ok ((), next)) :
    Does device next (Cycle.ofWrite? offset (change (device.engine.register offset))) := by
  by_cases hport : offset = Register.command ∨ offset = Register.address
  · have hreadable : Device.IsReadable offset := by rcases hport with rfl | rfl <;> decide
    rw [Bus.modify32, run_bind (Device.run_read32 device hreadable)] at h
    exact does_write32 h
  · rw [not_or] at hport
    obtain ⟨value, mid, hread, hwrite⟩ := exists_of_run_bind h
    rw [Cycle.ofWrite?, if_neg hport.1, if_neg hport.2]
    exact (Device.AfterRead.of_read32 hread).quiet.trans
      ((Device.AfterWrite.of_write32 hwrite).quiet hport.1 hport.2)

/-- What an access does to the chip is what its cycle does. -/
theorem does_cycle (h : access.run device = .ok next) :
    Does device next (access.cycle? device) := by
  -- Accesses differ in what they return; only those that write can make a cycle.
  cases access with
  | read32 offset =>
    obtain ⟨⟨value, last⟩, hrun, rfl⟩ := exists_of_map_eq_ok h
    exact (Device.AfterRead.of_read32 hrun).quiet
  | write32 offset value =>
    obtain ⟨⟨_, last⟩, hrun, rfl⟩ := exists_of_map_eq_ok h
    exact does_write32 hrun
  | read8 offset =>
    obtain ⟨⟨value, last⟩, hrun, rfl⟩ := exists_of_map_eq_ok h
    exact (Device.AfterRead.of_read8 hrun).quiet
  | write8 offset value =>
    obtain ⟨⟨_, last⟩, hrun, rfl⟩ := exists_of_map_eq_ok h
    exact does_write8 hrun
  | modify32 offset change =>
    obtain ⟨⟨_, last⟩, hrun, rfl⟩ := exists_of_map_eq_ok h
    exact does_modify32 hrun
  | dmaToDevice data =>
    obtain ⟨⟨_, last⟩, hrun, rfl⟩ := exists_of_map_eq_ok h
    exact (Device.AfterDmaToDevice.of_run hrun).quiet
  | dmaFromDevice data =>
    obtain ⟨⟨filled, last⟩, hrun, rfl⟩ := exists_of_map_eq_ok h
    exact (Device.AfterDmaFromDevice.of_run hrun).quiet

end Access

/-! ## What commands and addresses do -/

namespace Latches

variable {latches next : Latches}

/-- Ending an address leaves the phase to the command that opens the next one. -/
theorem phase_endAddress {rowCycles : Nat} (h : latches.endAddress rowCycles = .ok next) :
    next.phase = latches.phase := by
  obtain ⟨phase, hphase, column, row, rfl⟩ := exists_of_endAddress h
  cases latches.pending <;> cases phase <;> simp [retarget, hphase]

/-- It aims a program at the latched row, if the phase was for one. -/
theorem target_endAddress {rowCycles : Nat} (h : latches.endAddress rowCycles = .ok next) :
    next.target = if latches.phase = some .program then latches.target.map fun _ => next.row
      else latches.target := by
  obtain ⟨phase, hphase, column, row, rfl⟩ := exists_of_endAddress h
  cases hpending : latches.pending with
  | none => cases phase <;> simp [retarget, target, hphase, hpending]
  | some pending => cases phase <;> simp [retarget, target, hphase, hpending]

end Latches

namespace Device

variable {device next : Device}

/-- A program collects nothing any more, and changes one page at most. -/
structure Programmed (device next : Device) : Prop where
  chip_eq : next.chip = device.chip
  pending_eq : next.latches.pending = none
  phase_eq : next.latches.phase = device.latches.phase
  cases : (next.array = device.array ∧ next.latches.status = Latches.statusFailed ∧
      ∀ pending, device.latches.pending = some pending → device.chip.pageCount ≤ pending.row) ∨
    ∃ pending, device.latches.pending = some pending ∧ pending.row < device.chip.pageCount ∧
      next.array = device.array.program device.chip.rawLen pending.row pending.buffer
        (pending.ecc && !device.array.failing.contains
          (pending.row / device.chip.pagesPerBlock))

/-- A quotient that is returned has not been divided by zero. -/
theorem quotient_eq_ok {a b c : Nat} (h : quotient a b = .ok c) : 0 < b ∧ c = a / b := by
  unfold quotient at h
  split at h <;> cases h
  exact ⟨by omega, rfl⟩

/-- A program that returns has done what is said of one. -/
theorem programmed_of_program (h : device.program = .ok next) : device.Programmed next := by
  unfold program at h
  cases hpending : device.latches.pending with
  | none =>
    simp only [hpending] at h
    cases h
    exact ⟨rfl, hpending, rfl, .inl ⟨rfl, rfl, fun _ hsome => nomatch hpending.symm.trans hsome⟩⟩
  | some pending =>
    simp only [hpending] at h
    obtain ⟨block, hblock, h⟩ := exists_of_bind_eq_ok h
    obtain ⟨pages, hpages, h⟩ := exists_of_bind_eq_ok h
    obtain ⟨-, rfl⟩ := quotient_eq_ok hblock
    obtain ⟨-, rfl⟩ := word32_eq_ok.1 hpages
    -- The row decides: beyond the last page nothing is programmed.
    split at h
    · next hout =>
      cases h
      refine ⟨rfl, rfl, rfl, .inl ⟨rfl, rfl, ?_⟩⟩
      rintro pending' hsome
      cases hpending.symm.trans hsome
      exact hout
    · next hin =>
      cases h
      exact ⟨rfl, rfl, rfl, .inr ⟨pending, hpending, Nat.lt_of_not_le hin, rfl⟩⟩

/-- An erase clears the block of the latched row, or it fails. -/
structure Erased (device next : Device) : Prop where
  chip_eq : next.chip = device.chip
  pagesPerBlock_pos : 0 < device.chip.pagesPerBlock
  pending_eq : next.latches.pending = device.latches.pending
  phase_eq : next.latches.phase = device.latches.phase
  cases : let block := device.latches.row / device.chip.pagesPerBlock
    if device.chip.blocks ≤ block ∨ device.array.failing.contains block then
      next.array = device.array ∧ next.latches.status = Latches.statusFailed
    else next.array = device.array.erase (block * device.chip.pagesPerBlock)
      device.chip.pagesPerBlock

/-- An erase that returns has done what is said of one. -/
theorem erased_of_erase (h : device.erase = .ok next) : device.Erased next := by
  unfold erase at h
  obtain ⟨block, hblock, h⟩ := exists_of_bind_eq_ok h
  obtain ⟨hpos, rfl⟩ := quotient_eq_ok hblock
  split at h
  · next hrefused =>
    cases h
    refine ⟨rfl, hpos, rfl, rfl, ?_⟩
    intro block
    rw [if_pos hrefused]
    exact ⟨rfl, rfl⟩
  · next haccepted =>
    obtain ⟨first, hfirst, h⟩ := exists_of_bind_eq_ok h
    obtain ⟨_, -, h⟩ := exists_of_bind_eq_ok h
    obtain ⟨-, rfl⟩ := word32_eq_ok.1 hfirst
    cases h
    refine ⟨rfl, hpos, rfl, rfl, ?_⟩
    intro block
    rw [if_neg haccepted]
    rfl

/-- The pages of the erased block are those from its first page on. -/
theorem Erased.mem_block_iff (h : device.Erased next) (page : Nat) :
    device.latches.row / device.chip.pagesPerBlock * device.chip.pagesPerBlock ≤ page ∧
        page < device.latches.row / device.chip.pagesPerBlock * device.chip.pagesPerBlock +
          device.chip.pagesPerBlock ↔
      page / device.chip.pagesPerBlock = device.latches.row / device.chip.pagesPerBlock := by
  have hpos := h.pagesPerBlock_pos
  rw [Nat.div_eq_iff hpos]
  omega

/-- What a command makes of the target of a program. -/
def retargeted (target : Option Nat) : Command → Option Nat
  | .programSetup => some 0
  | .program | .programCached | .reset => none
  | _ => target

/-- What a command makes of the address phase. -/
def rephased (phase : Option AddressPhase) : Command → Option AddressPhase
  | .read => some .read
  | .columnRead => some .columnRead
  | .columnWrite => some .columnWrite
  | .programSetup => some .program
  | .eraseSetup => some .erase
  | .readId => some .readId
  | .reset => none
  | _ => phase

/-- Which page a program would go to next is decided by the command alone. -/
theorem target_execute {command : Command} (h : device.execute command = .ok next) :
    next.latches.target = retargeted device.latches.target command := by
  cases command with
  | read | readConfirm | columnRead | columnReadConfirm | columnWrite | programSetup | eraseSetup
  | readId | status | reset =>
    cases h
    rfl
  | readSpare => cases h
  | program | programCached =>
    rw [Latches.target, (programmed_of_program h).pending_eq]
    rfl
  | erase =>
    rw [Latches.target, (erased_of_erase h).pending_eq]
    rfl

/-- So is the phase that a command opens. -/
theorem phase_execute {command : Command} (h : device.execute command = .ok next) :
    next.latches.phase = rephased device.latches.phase command := by
  cases command with
  | read | readConfirm | columnRead | columnReadConfirm | columnWrite | programSetup | eraseSetup
  | readId | status | reset =>
    cases h
    rfl
  | readSpare => cases h
  | program | programCached => exact (programmed_of_program h).phase_eq
  | erase => exact (erased_of_erase h).phase_eq

/-- The commands that may change a page. -/
def changers : List Command := [.program, .programCached, .erase]

/-- An access programs, erases, or gives neither command. -/
theorem cases_of_command (given? : Option Command) :
    (given? = some .program ∨ given? = some .programCached) ∨ given? = some .erase ∨
      ∀ command ∈ changers, given? ≠ some command := by
  by_cases hmem : ∃ command ∈ changers, given? = some command
  · obtain ⟨command, hmem, rfl⟩ := hmem
    simp only [changers, List.mem_cons, List.not_mem_nil, or_false] at hmem
    rcases hmem with rfl | rfl | rfl
    · exact .inl (.inl rfl)
    · exact .inl (.inr rfl)
    · exact .inr (.inl rfl)
  · exact .inr (.inr fun command hchanger hgiven => hmem ⟨command, hchanger, hgiven⟩)

/-- Only programs and erases change the flash. -/
theorem array_execute {command : Command} (h : device.execute command = .ok next)
    (hcommand : command ∉ changers) : next.array = device.array := by
  cases command with
  | read | readConfirm | columnRead | columnReadConfirm | columnWrite | programSetup | eraseSetup
  | readId | status | reset =>
    cases h
    rfl
  | readSpare => cases h
  | program | programCached | erase => exact absurd (by decide) hcommand

/-- What a device can be after an access, by what the chip has been told. -/
inductive AfterAccess (device : Device) (access : Access) : Device → Prop where
  | command {command log} {next : Device} (hcommand : access.command? device = some command)
    (h : ({ device with log } : Device).execute command = .ok next) :
    AfterAccess device access next
  | address {rowCycles byte latches log} (hcommand : access.command? device = none)
    (hends : access.endsAddress device = true)
    (h : (device.latches.pushAddress byte).endAddress rowCycles = .ok latches) :
    AfterAccess device access { device with latches, log }
  | other {next : Device} (hcommand : access.command? device = none)
    (hends : access.endsAddress device = false) (h : device.Quiet next) :
    AfterAccess device access next

/-- An unknown opcode does nothing but appear in the log, and neither does an address byte that is
not the last one. -/
theorem AfterAccess.of_run {access : Access} (h : access.run device = .ok next) :
    device.AfterAccess access next := by
  have hdoes := Access.does_cycle h
  -- An access is a command cycle, an address cycle, or nothing that the chip listens to.
  cases hcycle : access.cycle? device with
  | none =>
    rw [hcycle] at hdoes
    exact .other (by rw [Access.command?, hcycle]) (by rw [Access.endsAddress, hcycle]) hdoes
  | some cycle =>
    rw [hcycle] at hdoes
    cases cycle with
    | command opcode =>
      have hends : access.endsAddress device = false := by rw [Access.endsAddress, hcycle]
      have hcommand : access.command? device = Command.ofCode? opcode := by
        rw [Access.command?, hcycle]
      simp only [Access.Does, writeCommand] at hdoes
      cases hcode : Command.ofCode? opcode with
      | some command =>
        simp only [hcode] at hdoes
        exact .command (hcommand.trans hcode) hdoes
      | none =>
        simp only [hcode] at hdoes
        cases hdoes
        exact .other (hcommand.trans hcode) hends ⟨rfl, rfl, .refl _⟩
    | address word =>
      have hends : access.endsAddress device = (word &&& Bits.lastAddress != 0) := by
        rw [Access.endsAddress, hcycle]
      have hcommand : access.command? device = none := by rw [Access.command?, hcycle]
      simp only [Access.Does, writeAddress] at hdoes
      split at hdoes
      · next hlast =>
        obtain ⟨rowCycles, -, hdoes⟩ := exists_of_bind_eq_ok hdoes
        obtain ⟨latches, hend, hdoes⟩ := exists_of_bind_eq_ok hdoes
        cases hdoes
        exact .address hcommand (hends.trans hlast) hend
      · next hinner =>
        cases hdoes
        exact .other hcommand (hends.trans (Bool.eq_false_iff.2 hinner)) ⟨rfl, rfl, rfl, rfl, rfl⟩

variable {access : Access}

theorem AfterAccess.chip_eq (h : device.AfterAccess access next) : next.chip = device.chip := by
  cases h with
  | command hcommand h =>
    have hfixed := fixed_execute h
    exact hfixed.chip_eq
  | address => rfl
  | other _ _ h => exact h.chip_eq

/-- A command on the bus is carried out, with its entry in the log. -/
theorem AfterAccess.exists_execute {command : Command} (h : device.AfterAccess access next)
    (hcommand : access.command? device = some command) :
    ∃ log, ({ device with log } : Device).execute command = .ok next := by
  cases h with
  | command hgiven h =>
    cases hgiven.symm.trans hcommand
    exact ⟨_, h⟩
  | address hnone | other hnone => exact nomatch hnone.symm.trans hcommand

/-- An access that programs, programs the page that has been collected. -/
theorem AfterAccess.programmed (h : device.AfterAccess access next)
    (hcommand : access.command? device = some .program ∨
      access.command? device = some .programCached) : device.Programmed next := by
  obtain ⟨log, hprogram⟩ : ∃ log, ({ device with log } : Device).program = .ok next := by
    rcases hcommand with hcommand | hcommand
    · exact h.exists_execute hcommand
    · exact h.exists_execute hcommand
  have hprogrammed := programmed_of_program hprogram
  exact ⟨hprogrammed.chip_eq, hprogrammed.pending_eq, hprogrammed.phase_eq, hprogrammed.cases⟩

/-- An access that erases, erases the block of the row that has been sent. -/
theorem AfterAccess.erased (h : device.AfterAccess access next)
    (hcommand : access.command? device = some .erase) : device.Erased next := by
  obtain ⟨log, herase⟩ := h.exists_execute hcommand
  have herased := erased_of_erase herase
  exact ⟨herased.chip_eq, herased.pagesPerBlock_pos, herased.pending_eq, herased.phase_eq,
    herased.cases⟩

/-- Only three commands change the array. -/
theorem AfterAccess.array_eq (h : device.AfterAccess access next)
    (hother : ∀ command ∈ changers, access.command? device ≠ some command) :
    next.array = device.array := by
  cases h with
  | command hcommand h =>
    have harray := array_execute h fun hmem => hother _ hmem hcommand
    exact harray
  | address => rfl
  | other _ _ h => exact h.array_eq

/-- The phase after an access is that of its command, if it carries one. -/
theorem AfterAccess.phase_eq (h : device.AfterAccess access next) :
    next.latches.phase = ((access.command? device).map
      (rephased device.latches.phase)).getD device.latches.phase := by
  cases h with
  | command hcommand h =>
    have hphase := phase_execute h
    rw [hcommand]
    exact hphase
  | address hcommand _ h =>
    have hphase := Latches.phase_endAddress h
    rw [hcommand]
    exact hphase
  | other hcommand _ h =>
    rw [hcommand]
    exact h.latches.phase_eq

/-- The end of an address phase moves a program if the phase was for one. -/
theorem AfterAccess.target_eq (h : device.AfterAccess access next) :
    next.latches.target = match access.command? device with
      | some given => retargeted device.latches.target given
      | none =>
        if access.endsAddress device = true ∧ device.latches.phase = some .program then
          device.latches.target.map fun _ => next.latches.row
        else device.latches.target := by
  cases h with
  | command hcommand h =>
    have htarget := target_execute h
    rw [hcommand]
    exact htarget
  | address hcommand hends h =>
    have htarget := Latches.target_endAddress h
    simp only [hcommand, hends, true_and]
    exact htarget
  | other hcommand hends h =>
    simp only [hcommand, hends, Bool.false_eq_true, false_and, if_false]
    exact h.latches.target_eq

end Device

end NandFlash.Sim
