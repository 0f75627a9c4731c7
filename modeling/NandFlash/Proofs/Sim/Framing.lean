import NandFlash.Proofs.Sim.Addressing
import NandFlash.Proofs.Sim.Ports

/-!
# Commands on the simulated device

A command and its address bytes reach the chip alone: its latches, and for a program or an erase
its array. Each lemma says what a whole command leaves in the latches, whatever was in them.
-/

namespace NandFlash.Sim

/-- Latches that deliver a page from a column on. -/
structure Latches.Delivers (content : Bytes) (row column : Nat) (latches : Latches) : Prop where
  cache_eq : latches.cache = content
  cacheRow_eq : latches.cacheRow = some row
  output_eq : latches.output = .page
  cursor_eq : latches.cursor = column

namespace Device

variable {device next : Device}

/-- Only the chip's latches have changed, apart from the log. -/
structure Commanded (device next : Device) : Prop where
  chip_eq : next.chip = device.chip
  array_eq : next.array = device.array
  engine_eq : next.engine = device.engine

theorem Commanded.refl (device : Device) : device.Commanded device := ⟨rfl, rfl, rfl⟩

theorem Commanded.trans {last : Device} (h : device.Commanded next) (h' : next.Commanded last) :
    device.Commanded last :=
  ⟨h'.chip_eq.trans h.chip_eq, h'.array_eq.trans h.array_eq, h'.engine_eq.trans h.engine_eq⟩

theorem Commanded.flash_eq (h : device.Commanded next) : next.flash = device.flash := by
  rw [flash, flash, h.chip_eq, h.array_eq]

theorem Commanded.rawPage_eq (h : device.Commanded next) (page : Nat) :
    next.rawPage page = device.flash.content page := by
  rw [rawPage, h.chip_eq, h.array_eq]
  rfl

/-- A program or an erase is over. -/
structure Concluded (device : Device) (success : Bool) (flash : Flash) (next : Device) : Prop where
  chip_eq : next.chip = device.chip
  engine_eq : next.engine = device.engine
  flash_eq : next.flash = flash
  status_eq : next.latches.status =
    if success then Latches.statusReady else Latches.statusFailed

/-! ## Single accesses -/

theorem run_writeCommand (command : Command) :
    (Framing.writeCommand command).run device = ({ device with
      log := { device.log with commands := device.log.commands.push command.code } }.execute
        command).map fun device => ((), device) := by
  have hcode : command.code.toUInt32.toUInt8 = command.code := by
    cases command <;> decide
  rw [Framing.writeCommand, run_write32_command, hcode, writeCommand]
  simp only [Command.ofCode?_code]

/-- A command that only changes latches. -/
theorem run_writeCommand_latches (device : Device) (command : Command)
    (change : Device → Latches)
    (h : ∀ device : Device, device.execute command =
      .ok { device with latches := change device })
    (hlog : ∀ log, change { device with log } = change device) :
    ∃ next, (Framing.writeCommand command).run device = .ok ((), next) ∧
      device.Commanded next ∧ next.latches = change device := by
  rw [run_writeCommand, h, hlog]
  exact ⟨_, rfl, ⟨rfl, rfl, rfl⟩, rfl⟩

theorem run_writeAddress_inner (device : Device) {word : UInt32}
    (h : word &&& Bits.lastAddress = 0) :
    ∃ next, (Bus.write32 Register.address word).run device = .ok ((), next) ∧
      device.Commanded next ∧ next.latches = device.latches.pushAddress word.toUInt8 := by
  have hlast : ¬(word &&& Bits.lastAddress != 0) = true := by
    rw [h]
    decide
  rw [run_write32_address, writeAddress]
  simp only [hlast]
  exact ⟨_, rfl, ⟨rfl, rfl, rfl⟩, rfl⟩

theorem follows_writeAddress_last {word : UInt32} (h : word &&& Bits.lastAddress ≠ 0) :
    Follows (device.chip.rowCycles >>= (device.latches.pushAddress word.toUInt8).endAddress)
      (fun latches (_ : Unit) next => device.Commanded next ∧ next.latches = latches)
      ((Bus.write32 Register.address word).run device) := by
  have hlast : (word &&& Bits.lastAddress != 0) = true := bne_iff_ne.2 h
  rw [run_write32_address, writeAddress]
  simp only [hlast, if_true]
  cases hcycles : device.chip.rowCycles with
  | error defect => rfl
  | ok cycles =>
    simp only [bind, Except.bind]
    cases (device.latches.pushAddress word.toUInt8).endAddress cycles with
    | error defect => rfl
    | ok latches => exact ⟨⟨rfl, rfl, rfl⟩, rfl⟩

/-! ## Address phases -/

/-- Latches with the bytes of address words behind those that have come already. -/
def withAddress (latches : Latches) (words : List UInt32) : Latches :=
  { latches with address := latches.address ++ words.map (·.toUInt8) }

theorem withAddress_eq {latches : Latches} {words : List UInt32} {bytes : List UInt8}
    (haddress : latches.address = []) (hbytes : words.map (·.toUInt8) = bytes) :
    withAddress latches words = { latches with address := bytes } := by
  rw [withAddress, haddress, hbytes, List.nil_append]

/-- The words of an address phase, of which only the last one is marked. -/
theorem follows_addresses (device : Device) (words : List UInt32) {last : UInt32}
    (hwords : ∀ word ∈ words, word &&& Bits.lastAddress = 0)
    (hlast : last &&& Bits.lastAddress ≠ 0) :
    Follows (device.chip.rowCycles >>= (withAddress device.latches (words ++ [last])).endAddress)
      (fun latches (_ : Unit) next => device.Commanded next ∧ next.latches = latches)
      (((words ++ [last]).forM fun word => Bus.write32 Register.address word : Action Device
        Unit).run device) := by
  induction words generalizing device with
  | nil =>
    show Follows _ _ ((Bus.write32 Register.address last >>= fun _ => pure ()).run device)
    rw [bind_pure]
    exact follows_writeAddress_last hlast
  | cons word words ih =>
    obtain ⟨next, hrun, hnext, hlatches⟩ :=
      run_writeAddress_inner device (hwords word (List.mem_cons_self ..))
    have hrest := ih next fun word hword => hwords word (List.mem_cons_of_mem _ hword)
    rw [hnext.chip_eq, hlatches] at hrest
    simp only [Latches.pushAddress, withAddress, List.append_assoc, List.singleton_append] at hrest
    exact Follows.step hrun (hrest.mono fun latches _ last h => ⟨hnext.trans h.1, h.2⟩)

theorem byte_of_mem_rowWords (cycles row : Nat) {word : UInt32}
    (h : word ∈ (List.range cycles).map fun cycle => UInt32.ofNat (row / 256 ^ cycle % 256)) :
    word &&& Bits.lastAddress = 0 := by
  obtain ⟨cycle, -, rfl⟩ := List.mem_map.1 h
  exact Framing.byte_and_lastAddress _

/-- The address phase of a column and a row. -/
theorem follows_pageAddress (device : Device) {phase : AddressPhase} {cycles : Nat}
    (hphase : phase = .read ∨ phase = .program) (hopen : device.latches.phase = some phase)
    (haddress : device.latches.address = []) (hcycles : 0 < cycles) (column row : Nat) :
    Follows (device.chip.rowAt cycles phase.command row)
      (fun row (_ : Unit) next => device.Commanded next ∧ next.latches = ({ device.latches with
        column := column % 65536, row } : Latches).retarget phase)
      (((Framing.addressWords cycles phase.command (some column) (some row)).forM fun word =>
        Bus.write32 Register.address word : Action Device Unit).run device) := by
  obtain ⟨cycles, rfl⟩ := Nat.exists_eq_succ_of_ne_zero (Nat.ne_of_gt hcycles)
  have hcommand : phase.command ≠ .readId := by rcases hphase with rfl | rfl <;> decide
  have hwords : Framing.addressWords (cycles + 1) phase.command (some column) (some row) =
      Framing.columnWords column false ++ Framing.rowWords (cycles + 1) row := by
    rw [Framing.addressWords, if_neg hcommand]
    rfl
  have hbytes : (Framing.columnWords column false ++ Framing.rowWords (cycles + 1) row).map
      (·.toUInt8) = columnBytes column ++ Framing.rowBytes (cycles + 1) row := by
    rw [List.map_append, Framing.map_toUInt8_rowWords hcycles]
    simp only [Framing.columnWords, columnBytes, Bool.false_eq_true, if_false, UInt32.or_zero,
      List.map_cons, List.map_nil, UInt32.toUInt8_ofNat']
  have hinner : ∀ word ∈ Framing.columnWords column false ++ (List.range cycles).map
      (fun cycle => UInt32.ofNat (row / 256 ^ cycle % 256)), word &&& Bits.lastAddress = 0 := by
    intro word hword
    rcases List.mem_append.1 hword with hword | hword
    · simp only [Framing.columnWords, Bool.false_eq_true, if_false, UInt32.or_zero,
        List.mem_cons, List.not_mem_nil, or_false] at hword
      rcases hword with rfl | rfl <;> exact Framing.byte_and_lastAddress _
    · exact byte_of_mem_rowWords _ _ hword
  -- Only the last word is marked, and with it the phase ends.
  have hrun := follows_addresses device _ hinner
    (Framing.or_lastAddress_and (UInt32.ofNat (row / 256 ^ cycles % 256)))
  rw [List.append_assoc, ← Framing.rowWords_succ, withAddress_eq haddress hbytes,
    ← device.chip.map_rowAt (f := fun row => ({ device.latches with
      address := [], column := column % 65536, row } : Latches).retarget phase)
      (Latches.endAddress_page hphase hopen hcycles)] at hrun
  rw [hwords]
  refine hrun.of_map.mono fun row _ next h => ⟨h.1, ?_⟩
  rw [h.2, ← haddress]

/-- The address phase of a row alone. -/
theorem follows_eraseAddress (device : Device) {cycles : Nat}
    (hopen : device.latches.phase = some .erase)
    (haddress : device.latches.address = []) (hcycles : 0 < cycles) (row : Nat) :
    Follows (device.chip.rowAt cycles .eraseSetup row)
      (fun row (_ : Unit) next => device.Commanded next ∧ next.latches.row = row)
      (((Framing.addressWords cycles .eraseSetup none (some row)).forM fun word =>
        Bus.write32 Register.address word : Action Device Unit).run device) := by
  obtain ⟨cycles, rfl⟩ := Nat.exists_eq_succ_of_ne_zero (Nat.ne_of_gt hcycles)
  have hwords : Framing.addressWords (cycles + 1) .eraseSetup none (some row) =
      Framing.rowWords (cycles + 1) row := rfl
  have hrun := follows_addresses device _
    (fun _ => byte_of_mem_rowWords cycles row)
    (Framing.or_lastAddress_and (UInt32.ofNat (row / 256 ^ cycles % 256)))
  rw [← Framing.rowWords_succ, withAddress_eq haddress (Framing.map_toUInt8_rowWords hcycles row),
    ← device.chip.map_rowAt (f := fun row => { device.latches with address := [], row })
      (Latches.endAddress_erase hopen hcycles)] at hrun
  rw [hwords]
  exact hrun.of_map.mono fun row _ next h => ⟨h.1, by rw [h.2]⟩

/-- The address phase of a request for identification. -/
theorem follows_idAddress (device : Device) (hopen : device.latches.phase = some .readId)
    (haddress : device.latches.address = []) :
    Follows device.chip.rowCycles
      (fun _ (_ : Unit) next => device.Commanded next ∧ next.latches = device.latches)
      (((Framing.addressWords 0 .readId none none).forM fun word =>
        Bus.write32 Register.address word : Action Device Unit).run device) := by
  have hrun := follows_addresses device []
    (fun _ h => absurd h List.not_mem_nil)
    (show Bits.lastAddress &&& Bits.lastAddress ≠ 0 by decide)
  have hend := fun rowCycles => Latches.endAddress_readId hopen Bits.lastAddress.toUInt8 rowCycles
  have hlatched : (device.chip.rowCycles >>=
      (withAddress device.latches ([] ++ [Bits.lastAddress])).endAddress) =
      device.chip.rowCycles.map fun _ => device.latches := by
    rw [withAddress_eq haddress rfl]
    cases device.chip.rowCycles with
    | error defect => rfl
    | ok rowCycles => exact (hend rowCycles).trans (by rw [← haddress]; rfl)
  rw [hlatched] at hrun
  exact hrun.of_map

/-! ## Commands -/

/-- The ready line is never waited for. -/
theorem run_waitReady (poll : Poll) :
    (Framing.waitReady poll).run.run device = .ok (.ok (), device) := by
  apply run_wait
  apply run_perform
  rw [Bus.anySet, run_bind (run_read32_status device), Bits.or_and_self]
  rfl

/-- A page is loaded and delivered. -/
theorem follows_send_read (device : Device) (poll : Poll) {cycles : Nat} (hcycles : 0 < cycles)
    (column row : Nat) :
    Follows (device.chip.rowAt cycles .read row)
      (fun row r next => ∃ a, r = .ok a ∧ device.Commanded next ∧
        next.latches.Delivers (device.flash.content row) row (column % 65536))
      ((Framing.send poll cycles .read (some column) (some row)).run.run device) := by
  obtain ⟨opened, hrun, hopened, hlatches⟩ := run_writeCommand_latches device .read
    (fun device => device.latches.openPhase .read)
    (fun _ => rfl) fun _ => rfl
  -- The confirmation loads the page that the address cycles in between have latched.
  have haddress := follows_pageAddress opened (.inl rfl)
    (by rw [hlatches]; rfl) (by rw [hlatches]; rfl) hcycles column row
  rw [hopened.chip_eq] at haddress
  refine Follows.attempt_step (run_perform hrun) (haddress.perform.attempt_finish ?_)
  rintro row - addressed ⟨haddressed, hlatched⟩
  obtain ⟨loaded, hload, hloaded, hdelivers⟩ := run_writeCommand_latches addressed .readConfirm
    (fun device => device.latches.load (device.rawPage device.latches.row))
    (fun _ => rfl) fun _ => rfl
  have hcommanded := hopened.trans haddressed
  refine ⟨_, loaded, run_attempt_step (run_perform hload) (run_waitReady poll), (),
    rfl, hcommanded.trans hloaded, ?_⟩
  rw [hdelivers, hlatched, hcommanded.rawPage_eq]
  exact ⟨rfl, rfl, rfl, rfl⟩

/-- A page is about to be collected. -/
theorem follows_send_programSetup (device : Device) (poll : Poll) {cycles : Nat}
    (hcycles : 0 < cycles) (column row : Nat) :
    Follows (device.chip.rowAt cycles .programSetup row)
      (fun row r next => ∃ a, r = .ok a ∧ device.Commanded next ∧ next.latches.pending =
        some ⟨row, Bytes.erased device.chip.rawLen, column % 65536, false⟩)
      ((Framing.send poll cycles .programSetup (some column) (some row)).run.run device) := by
  obtain ⟨opened, hrun, hopened, hlatches⟩ := run_writeCommand_latches device .programSetup
    (fun device => device.latches.collect device.chip.rawLen)
    (fun _ => rfl) fun _ => rfl
  have haddress := follows_pageAddress opened (.inr rfl)
    (by rw [hlatches]; rfl) (by rw [hlatches]; rfl) hcycles column row
  rw [hopened.chip_eq] at haddress
  refine Follows.attempt_step (run_perform hrun) (haddress.perform.attempt_finish ?_)
  rintro row - addressed ⟨haddressed, hlatched⟩
  refine ⟨_, addressed, rfl, (), rfl, hopened.trans haddressed, ?_⟩
  rw [hlatched, hlatches]
  rfl

/-- A row is latched for an erase. -/
theorem follows_send_eraseSetup (device : Device) (poll : Poll) {cycles : Nat}
    (hcycles : 0 < cycles) (row : Nat) :
    Follows (device.chip.rowAt cycles .eraseSetup row)
      (fun row r next => ∃ a, r = .ok a ∧ device.Commanded next ∧ next.latches.row = row)
      ((Framing.send poll cycles .eraseSetup none (some row)).run.run device) := by
  obtain ⟨opened, hrun, hopened, hlatches⟩ := run_writeCommand_latches device .eraseSetup
    (fun device => device.latches.openPhase .erase)
    (fun _ => rfl) fun _ => rfl
  have haddress := follows_eraseAddress opened
    (by rw [hlatches]; rfl) (by rw [hlatches]; rfl) hcycles row
  rw [hopened.chip_eq] at haddress
  refine Follows.attempt_step (run_perform hrun) (haddress.perform.attempt_finish ?_)
  rintro row - addressed ⟨haddressed, hrow⟩
  exact ⟨_, addressed, rfl, (), rfl, hopened.trans haddressed, hrow⟩

/-- The identification is delivered from its first byte on. -/
theorem follows_send_readId (device : Device) (poll : Poll) :
    Follows device.chip.rowCycles
      (fun _ r next => ∃ a, r = .ok a ∧ device.Commanded next ∧
        next.latches.output = .id ∧ next.latches.cursor = 0)
      ((Framing.send poll 0 .readId none none).run.run device) := by
  obtain ⟨opened, hrun, hopened, hlatches⟩ := run_writeCommand_latches device .readId
    (fun device => device.latches.showId)
    (fun _ => rfl) fun _ => rfl
  have haddress := follows_idAddress opened
    (by rw [hlatches]; rfl) (by rw [hlatches]; rfl)
  rw [hopened.chip_eq] at haddress
  refine Follows.attempt_step (run_perform hrun) (haddress.perform.attempt_finish ?_)
  rintro - - addressed ⟨haddressed, hlatched⟩
  refine ⟨_, addressed, run_waitReady poll, (), rfl, hopened.trans haddressed, ?_⟩
  rw [hlatched, hlatches]
  exact ⟨rfl, rfl⟩

/-- The chip is reset. -/
theorem run_send_reset (device : Device) (poll : Poll) (cycles : Nat) :
    ∃ next, (Framing.send poll cycles .reset none none).run.run device = .ok (.ok (), next) ∧
      device.Commanded next := by
  obtain ⟨d₁, hrun₁, h₁, -⟩ := run_writeCommand_latches device .reset
    (fun device => device.latches.reset) (fun _ => rfl) fun _ => rfl
  obtain ⟨d₂, hrun₂, h₂, -⟩ := run_writeCommand_latches d₁ .status
    (fun device => device.latches.showStatus)
    (fun _ => rfl) fun _ => rfl
  obtain ⟨d₃, hrun₃, h₃, -⟩ := run_writeCommand_latches d₂ .reset
    (fun device => device.latches.reset) (fun _ => rfl) fun _ => rfl
  refine ⟨d₃, ?_, (h₁.trans h₂).trans h₃⟩
  refine run_attempt_step (run_perform hrun₁) (run_attempt_step (run_perform rfl) ?_)
  exact run_attempt_step (run_perform hrun₂) (run_attempt_step (run_perform hrun₃)
    (run_waitReady poll))

/-- The status byte is delivered. -/
theorem run_send_status (device : Device) (poll : Poll) (cycles : Nat) :
    ∃ next, (Framing.send poll cycles .status none none).run.run device = .ok (.ok (), next) ∧
      device.Commanded next ∧ next.latches.output = .status ∧
      next.latches.status = device.latches.status := by
  obtain ⟨next, hrun, hnext, hlatches⟩ := run_writeCommand_latches device .status
    (fun device => device.latches.showStatus)
    (fun _ => rfl) fun _ => rfl
  refine ⟨next, ?_, hnext, by rw [hlatches]; rfl, by rw [hlatches]; rfl⟩
  exact run_attempt_step (run_perform hrun) (run_attempt_step (run_perform rfl) rfl)

/-- The collected page is programmed. -/
theorem follows_send_program (device : Device) (poll : Poll) (cycles : Nat) {row cursor : Nat}
    {buffer : Bytes} {ecc : Bool}
    (hpending : device.latches.pending = some ⟨row, buffer, cursor, ecc⟩) :
    Follows (device.chip.programRow device.flash row buffer ecc)
      (fun result r next => ∃ a, r = .ok a ∧ device.Concluded result.1 result.2 next)
      ((Framing.send poll cycles .program none none).run.run device) := by
  have hrun : Follows (device.chip.programRow device.flash row buffer ecc)
      (fun result (_ : Unit) next => device.Concluded result.1 result.2 next)
      ((Framing.writeCommand .program).run device) := by
    rw [run_writeCommand]
    simp only [execute, program, hpending, Chip.programRow, modifyLatches]
    -- The device works out the numbers that the ideal chip does, and crashes where it does.
    cases quotient row device.chip.pagesPerBlock with
    | error defect => rfl
    | ok block =>
      simp only [bind, Except.bind]
      cases device.chip.pages with
      | error defect => rfl
      | ok pages =>
        by_cases hpages : pages ≤ row
        · simp only [hpages, if_true]
          exact ⟨rfl, rfl, rfl, rfl⟩
        · simp only [hpages, if_false]
          exact ⟨rfl, rfl, FlashArray.flash_program _ _ _ _ _, rfl⟩
  refine hrun.perform.attempt_finish fun result _ next h => ?_
  exact ⟨_, next, run_attempt_step (run_perform rfl) rfl, (), rfl, h⟩

/-- The block of the latched row is erased. -/
theorem follows_send_erase (device : Device) (poll : Poll) (cycles : Nat) :
    Follows (device.chip.eraseRow device.flash device.latches.row)
      (fun result r next => ∃ a, r = .ok a ∧ device.Concluded result.1 result.2 next)
      ((Framing.send poll cycles .erase none none).run.run device) := by
  have hrun : Follows (device.chip.eraseRow device.flash device.latches.row)
      (fun result (_ : Unit) next => device.Concluded result.1 result.2 next)
      ((Framing.writeCommand .erase).run device) := by
    have hfailing : device.flash.isFailing = device.array.failing.contains := rfl
    rw [run_writeCommand]
    simp only [execute, erase, Chip.eraseRow, hfailing]
    -- The latched row picks the block, which has to exist and not be worn out.
    cases quotient device.latches.row device.chip.pagesPerBlock with
    | error defect => rfl
    | ok block =>
      simp only [bind, Except.bind]
      by_cases hrefused : device.chip.blocks ≤ block ∨ device.array.failing.contains block = true
      · rw [if_pos hrefused, if_pos hrefused]
        exact ⟨rfl, rfl, rfl, rfl⟩
      · rw [if_neg hrefused, if_neg hrefused]
        cases word32 (block * device.chip.pagesPerBlock) with
        | error defect => rfl
        | ok first =>
          cases word32 ((block + 1) * device.chip.pagesPerBlock) with
          | error defect => rfl
          | ok last => exact ⟨rfl, rfl, FlashArray.flash_erase _ _ _ _, rfl⟩
  refine hrun.perform.attempt_finish fun result _ next h => ?_
  exact ⟨_, next, run_attempt_step (run_perform rfl) rfl, (), rfl, h⟩

end Device

end NandFlash.Sim
