import NandFlash.Proofs.Sim.History

/-!
# Cells

What bus accesses of any kind and in any order can do to the cells of a chip. Two commands program
and one erases; nothing else changes a page. A program clears cells of one page, the one that was
addressed after the latest setup of a program, and it does so once for each setup. An erase sets
the cells of one block. Over any number of accesses a cell is therefore set only by an erase of its
block.
-/

namespace NandFlash.Sim

/-! ## Where a program goes -/

namespace History

variable {past : List Episode} {device next : Device}

/-- The commands that end the address phase before them. -/
def openers : List Command :=
  [.read, .columnRead, .columnWrite, .programSetup, .eraseSetup, .readId, .reset]

/-- Is an address phase, if there is one, that of the setup of a program? -/
def isAddressing : List Episode → Bool
  | [] => false
  | episode :: past =>
    match episode.command? with
    | some command => if command ∈ openers then command = .programSetup else isAddressing past
    | none => isAddressing past

/-- The page that a program would go to: the row latched by the latest address phase of the latest
setup, or page 0 if it had none. A program and a reset use the setup up. -/
def target? : List Episode → Option Nat
  | [] => none
  | episode :: past =>
    match episode.command? with
    | some .programSetup => some 0
    | some .program | some .programCached | some .reset => none
    | some _ => target? past
    | none =>
      if episode.endsAddress ∧ isAddressing past then
        (target? past).map fun _ => episode.next.latches.row
      else target? past

/-- What happens off the bus is no command, and ends no address. -/
theorem quiet_of_not_onBus (device next : Device) {incident : Incident}
    (h : ¬∃ access, incident = .onBus access) :
    (⟨device, incident, next⟩ : Episode).command? = none ∧
      (⟨device, incident, next⟩ : Episode).endsAddress = false := by
  cases incident with
  | onBus access => exact absurd ⟨access, rfl⟩ h
  | _ => exact ⟨rfl, rfl⟩

/-- The chip goes by the commands it has been given, by induction on its history. -/
theorem phase_eq_iff (h : History past device) :
    device.latches.phase = some .program ↔ isAddressing past = true := by
  induction h with
  | @new chip device h =>
    obtain ⟨rawLen, -, h⟩ := exists_of_bind_eq_ok h
    cases h
    exact ⟨fun h => (nomatch h), fun h => (nomatch h)⟩
  | @next past device next _ incident hrun ih =>
    -- Only what happens on the bus reaches the latches.
    by_cases hbus : ∃ access, incident = .onBus access
    · obtain ⟨access, rfl⟩ := hbus
      rw [(Device.AfterAccess.of_run hrun).phase_eq]
      simp only [isAddressing, Episode.command?]
      cases access.command? device with
      | none => exact ih
      | some command => cases command <;> simp [Device.rephased, openers, ih]
    · have hlatches := Incident.latches_eq hrun fun access heq => hbus ⟨access, heq⟩
      have hquiet := quiet_of_not_onBus device next hbus
      simp only [isAddressing, hquiet, hlatches]
      exact ih

theorem target_eq (h : History past device) : device.latches.target = target? past := by
  induction h with
  | @new chip device h =>
    obtain ⟨rawLen, -, h⟩ := exists_of_bind_eq_ok h
    cases h
    rfl
  | @next past device next hpast incident hrun ih =>
    by_cases hbus : ∃ access, incident = .onBus access
    · obtain ⟨access, rfl⟩ := hbus
      rw [(Device.AfterAccess.of_run hrun).target_eq]
      simp only [target?, Episode.command?, Episode.endsAddress, ← phase_eq_iff hpast, ih]
      cases access.command? device with
      | none => rfl
      | some command => cases command <;> rfl
    · have hlatches := Incident.latches_eq hrun fun access heq => hbus ⟨access, heq⟩
      have hquiet := quiet_of_not_onBus device next hbus
      simp only [target?, hquiet, hlatches, Bool.false_eq_true, false_and, if_false]
      exact ih

end History

/-! ## What one access does -/

namespace Device

/-- A cell of a page: one bit of one of its bytes. -/
def cell (device : Device) (page i k : Nat) : Bool :=
  ((device.rawPage page).getD i 0).toBitVec.getLsbD k

/-- The pages are as before, and the status says that it did not work. -/
def Refuses (device next : Device) : Prop :=
  (∀ page, next.rawPage page = device.rawPage page) ∧ next.latches.status = Latches.statusFailed

/-- Of one page, each byte keeps the cells that are set in the byte collected for it and loses the
others. It has as many bytes as before, and no other page changes. -/
structure Clears (device : Device) (row : Nat) (buffer : Bytes) (next : Device) : Prop where
  byte_eq : ∀ i, (next.rawPage row).getD i 0 = (device.rawPage row).getD i 0 &&& buffer.getD i 0
  size_eq : (next.rawPage row).size = (device.rawPage row).size
  other : ∀ page, page ≠ row → next.rawPage page = device.rawPage page

end Device

/-- What an access does to the pages of a device with a past. -/
structure ChangesCells (past : List Episode) (device : Device) (access : Access) (next : Device) :
    Prop where
  /-- Without a command to program or erase, nothing. -/
  other : (∀ command ∈ Device.changers, access.command? device ≠ some command) →
    ∀ page, next.rawPage page = device.rawPage page
  /-- A program makes of one page the conjunction of what it was and the page collected for it. -/
  program : access.command? device = some .program ∨
      access.command? device = some .programCached →
    match History.target? past with
    | none => device.Refuses next
    | some row =>
      if device.chip.pageCount ≤ row then device.Refuses next
      else ∃ pending, device.latches.pending = some pending ∧
        pending.buffer.size = device.chip.rawLen ∧ device.Clears row pending.buffer next
  /-- Until there is another setup, programs change nothing more. -/
  once : access.command? device = some .program ∨
      access.command? device = some .programCached →
    ∀ run last, Run next run last → (∀ episode ∈ run, episode.IsAccess) →
      (∀ episode ∈ run, episode.command? ≠ some .programSetup) →
      ∀ page, (∀ episode ∈ run, episode.erases page = false) →
        last.rawPage page = next.rawPage page
  /-- An erase clears the block of the latched row. -/
  erase : access.command? device = some .erase →
    let block := device.latches.row / device.chip.pagesPerBlock
    if device.chip.blocks ≤ block ∨ device.array.failing.contains block then device.Refuses next
    else ∀ page, next.rawPage page =
      if page / device.chip.pagesPerBlock = block then Bytes.erased device.chip.rawLen
      else device.rawPage page

namespace Device

variable {device next : Device} {past : List Episode} {access : Access}

theorem rawPage_eq (hchip : next.chip = device.chip) (harray : next.array = device.array)
    (page : Nat) : next.rawPage page = device.rawPage page := by
  rw [rawPage, rawPage, hchip, harray]

/-- Programming a page clears cells of it. -/
theorem clears_of_program (hwhole : device.IsWhole) {row : Nat} {buffer : Bytes} {ecc : Bool}
    (hbuffer : buffer.size = device.chip.rawLen) (hchip : next.chip = device.chip)
    (harray : next.array = device.array.program device.chip.rawLen row buffer ecc) :
    device.Clears row buffer next := by
  have hflash : next.flash = device.flash.program row buffer ecc := by
    rw [flash, hchip, harray]
    exact device.array.flash_program device.chip.rawLen row buffer ecc
  have hpage : ∀ page, next.rawPage page = (device.flash.program row buffer ecc).content page :=
    fun page => congrFun (congrArg Flash.content hflash) page
  refine ⟨fun i => ?_, ?_, fun page hne => (hpage page).trans (Function.update_of_ne hne _ _)⟩
  · rw [hpage]
    exact device.flash.getD_program row buffer ecc i
  · rw [hpage]
    exact (hwhole.flash.program row hbuffer ecc row).trans (hwhole.flash row).symm

theorem rawPage_program (h : device.Programmed next) (hwhole : device.IsWhole) :
    match device.latches.target with
    | none => device.Refuses next
    | some row =>
      if device.chip.pageCount ≤ row then device.Refuses next
      else ∃ pending, device.latches.pending = some pending ∧
        pending.buffer.size = device.chip.rawLen ∧ device.Clears row pending.buffer next := by
  -- A program is refused with nothing collected, and for a row beyond the last page.
  rcases h.cases with ⟨harray, hstatus, hout⟩ | ⟨pending, hpending, hin, harray⟩
  · have hrefuses : device.Refuses next := ⟨rawPage_eq h.chip_eq harray, hstatus⟩
    cases hpending : device.latches.pending with
    | none =>
      rw [Latches.target, hpending]
      exact hrefuses
    | some pending =>
      rw [Latches.target, hpending]
      exact (if_pos (hout pending hpending)).mpr hrefuses
  · rw [Latches.target, hpending]
    have hbuffer := hwhole.latches pending hpending
    exact (if_neg (Nat.not_le.2 hin)).mpr
      ⟨pending, rfl, hbuffer, clears_of_program hwhole hbuffer h.chip_eq harray⟩

theorem rawPage_erase (h : device.Erased next) :
    let block := device.latches.row / device.chip.pagesPerBlock
    if device.chip.blocks ≤ block ∨ device.array.failing.contains block then device.Refuses next
    else ∀ page, next.rawPage page =
      if page / device.chip.pagesPerBlock = block then Bytes.erased device.chip.rawLen
      else device.rawPage page := by
  intro block
  have hcases := h.cases
  split
  · next hrefused =>
    have hkept := (if_pos hrefused).mp hcases
    exact ⟨rawPage_eq h.chip_eq hkept.1, hkept.2⟩
  · next haccepted =>
    have harray := (if_neg haccepted).mp hcases
    intro page
    rw [rawPage, h.chip_eq, harray, FlashArray.content_erase]
    exact if_congr (h.mem_block_iff page) rfl rfl

theorem rawPage_of_program (hpast : History past device) (h : access.run device = .ok next)
    (hcommand : access.command? device = some .program ∨
      access.command? device = some .programCached) :
    match History.target? past with
    | none => device.Refuses next
    | some row =>
      if device.chip.pageCount ≤ row then device.Refuses next
      else ∃ pending, device.latches.pending = some pending ∧
        pending.buffer.size = device.chip.rawLen ∧ device.Clears row pending.buffer next := by
  have hprogrammed := (AfterAccess.of_run h).programmed hcommand
  have hpages := rawPage_program hprogrammed hpast.reachable.isWhole
  rw [← hpast.target_eq]
  exact hpages

theorem rawPage_of_erase (h : access.run device = .ok next)
    (hcommand : access.command? device = some .erase) :
    let block := device.latches.row / device.chip.pagesPerBlock
    if device.chip.blocks ≤ block ∨ device.array.failing.contains block then device.Refuses next
    else ∀ page, next.rawPage page =
      if page / device.chip.pagesPerBlock = block then Bytes.erased device.chip.rawLen
      else device.rawPage page :=
  rawPage_erase ((AfterAccess.of_run h).erased hcommand)

/-- What becomes of one page in one access, if its block is not erased. -/
theorem rawPage_of_run (hpast : History past device) (h : access.run device = .ok next) {page : Nat}
    (herases : (⟨device, .onBus access, next⟩ : Episode).erases page = false) :
    next.rawPage page = device.rawPage page ∨
      History.target? past = some page ∧ ∃ buffer, device.Clears page buffer next := by
  -- Only a program and an erase command reach the cells.
  rcases cases_of_command (access.command? device) with hprogram | herase | hother
  · have hpages := rawPage_of_program hpast h hprogram
    cases htarget : History.target? past with
    | none =>
      rw [htarget] at hpages
      exact .inl (hpages.1 page)
    | some row =>
      simp only [htarget] at hpages
      split at hpages
      · exact .inl (hpages.1 page)
      · obtain ⟨pending, -, -, hclears⟩ := hpages
        by_cases heq : page = row
        · subst heq
          exact .inr ⟨rfl, pending.buffer, hclears⟩
        · exact .inl (hclears.other page heq)
  · have hpages := rawPage_of_erase h herase
    simp only at hpages
    split at hpages
    · exact .inl (hpages.1 page)
    · next haccepted =>
      rw [not_or] at haccepted
      rw [hpages page, if_neg]
      · exact .inl rfl
      · intro hblock
        have hcommand : (⟨device, .onBus access, next⟩ : Episode).command? = some .erase := herase
        simp only [Episode.erases, hcommand, decide_eq_false_iff_not] at herases
        exact herases
          ⟨trivial, Nat.lt_of_not_le haccepted.1, Bool.eq_false_iff.2 haccepted.2, hblock⟩
  · have hafter := AfterAccess.of_run h
    exact .inl (rawPage_eq hafter.chip_eq (hafter.array_eq hother) page)

/-- Programming sets no cell. -/
theorem cell_of_run (hpast : History past device) (h : access.run device = .ok next)
    {page i k : Nat}
    (herases : (⟨device, .onBus access, next⟩ : Episode).erases page = false)
    (hclear : device.cell page i k = false) : next.cell page i k = false := by
  rcases rawPage_of_run hpast h herases with heq | ⟨-, buffer, hclears⟩
  · rw [cell, heq]
    exact hclear
  · rw [cell] at hclear
    rw [cell, hclears.byte_eq, UInt8.toBitVec_and, BitVec.getLsbD_and, hclear, Bool.false_and]

/-! ## Runs -/

/-- Over a run of accesses a cell is set only by an erase of its block. -/
theorem exists_erases_of_run {run : List Episode} (hpast : History past device)
    (hrun : Run device run next) (hbus : ∀ episode ∈ run, episode.IsAccess) {page i k : Nat}
    (hclear : device.cell page i k = false) (hset : next.cell page i k = true) :
    ∃ episode ∈ run, episode.erases page = true := by
  by_contra hnone
  simp only [not_exists, not_and, Bool.not_eq_true] at hnone
  refine absurd hset (Bool.eq_false_iff.1 ?_)
  clear hset
  induction hrun with
  | nil => exact hclear
  | @next run mid last hrun incident hstep ih =>
    obtain ⟨access, rfl⟩ := hbus _ List.mem_cons_self
    have hmid := ih (fun episode hmem => hbus _ (List.mem_cons_of_mem _ hmem))
      fun episode hmem => hnone _ (List.mem_cons_of_mem _ hmem)
    exact cell_of_run (hpast.append hrun) hstep (hnone _ List.mem_cons_self) hmid

/-- Once a setup has been used up, programs have nowhere to go until there is another. -/
theorem target?_of_run {run : List Episode} (hrun : Run device run next)
    (hbus : ∀ episode ∈ run, episode.IsAccess)
    (hsetup : ∀ episode ∈ run, episode.command? ≠ some .programSetup)
    (htarget : History.target? past = none) : History.target? (run ++ past) = none := by
  induction hrun with
  | nil => exact htarget
  | @next run mid last hrun incident hstep ih =>
    have hmid := ih (fun episode hmem => hbus _ (List.mem_cons_of_mem _ hmem))
      fun episode hmem => hsetup _ (List.mem_cons_of_mem _ hmem)
    have hcommand := hsetup _ List.mem_cons_self
    simp only [List.cons_append, History.target?, hmid]
    split
    · next h => exact absurd h hcommand
    · rfl
    · rfl
    · rfl
    · rfl
    · split <;> rfl

theorem rawPage_of_run_without_target {run : List Episode} (hpast : History past device)
    (htarget : History.target? past = none) (hrun : Run device run next)
    (hbus : ∀ episode ∈ run, episode.IsAccess)
    (hsetup : ∀ episode ∈ run, episode.command? ≠ some .programSetup) {page : Nat}
    (herases : ∀ episode ∈ run, episode.erases page = false) :
    next.rawPage page = device.rawPage page := by
  induction hrun with
  | nil => rfl
  | @next run mid last hrun incident hstep ih =>
    obtain ⟨access, rfl⟩ := hbus _ List.mem_cons_self
    have hbus' := fun episode hmem => hbus episode (List.mem_cons_of_mem _ hmem)
    have hsetup' := fun episode hmem => hsetup episode (List.mem_cons_of_mem _ hmem)
    have hmid := ih hbus' hsetup' fun episode hmem => herases _ (List.mem_cons_of_mem _ hmem)
    rcases rawPage_of_run (hpast.append hrun) hstep (herases _ List.mem_cons_self) with
      heq | ⟨hsome, -⟩
    · exact heq.trans hmid
    · exact nomatch (target?_of_run hrun hbus' hsetup' htarget).symm.trans hsome

theorem changesCells_of_run (hpast : History past device) (h : access.run device = .ok next) :
    ChangesCells past device access next where
  other hother page :=
    rawPage_eq (AfterAccess.of_run h).chip_eq ((AfterAccess.of_run h).array_eq hother) page
  program hcommand := rawPage_of_program hpast h hcommand
  once hcommand run last hrun hbus hsetup page herases := by
    refine rawPage_of_run_without_target (hpast.next (.onBus access) h) ?_ hrun hbus hsetup herases
    rcases hcommand with hcommand | hcommand
    all_goals simp only [History.target?, Episode.command?, hcommand]
  erase hcommand := rawPage_of_erase h hcommand

/-- Whatever has been done to a device, and whatever access comes next: only a program and an erase
change a page; a program clears cells of the one page that the latest setup was for, once for each
setup; an erase sets the cells of one block, or it does nothing and says so. Over any number of
accesses a cell is therefore set only by an erase of its block, and pages keep their length. -/
theorem changes_cells_by_command (h : device.Reachable) :
    (∃ past, History past device) ∧
    (∀ (page : Nat) (content : Bytes), device.array.pages[page]? = some content →
      content.size = device.chip.rawLen) ∧
    ∀ past, History past device →
      (∀ access next, access.run device = .ok next → ChangesCells past device access next) ∧
      ∀ run last, Run device run last → (∀ episode ∈ run, episode.IsAccess) →
        ∀ page i k, device.cell page i k = false → last.cell page i k = true →
          ∃ episode ∈ run, episode.erases page = true := by
  refine ⟨h.exists_history, fun page content hstored => ?_, fun past hpast => ⟨?_, ?_⟩⟩
  · have hsize : (device.rawPage page).size = device.chip.rawLen := h.isWhole.flash page
    rw [rawPage, FlashArray.content, hstored] at hsize
    exact hsize
  · exact fun access next hrun => changesCells_of_run hpast hrun
  · exact fun run last hrun hbus page i k => exists_erases_of_run hpast hrun hbus

/-- Four blocks of two pages, with eight bytes each. -/
def tinyChip : Chip := ⟨"tiny", idBytes 0xEC 0xF1 0x00 0x95 0x40 0x00, 6, 2, 2, 4⟩

/-- Collect one byte for column 3 of page 5. -/
def collecting (value : UInt32) : List Access :=
  [.write32 Register.command 0x80, .write32 Register.address 3, .write32 Register.address 0,
    .write32 Register.address 5, .write32 Register.address Bits.lastAddress,
    .write32 Register.data value]

/-- Program what has been collected. -/
def confirming : Access := .write32 Register.command 0x10

/-- Erase the block of page 5. -/
def erasing : List Access :=
  [.write32 Register.command 0x60, .write32 Register.address 5,
    .write32 Register.address Bits.lastAddress, .write32 Register.command 0xD0]

/-- A byte is programmed with 0x3C, then with 0x0F, then not at all, and then its block is erased. -/
theorem exists_rewriting : ∃ (device next again last : Device) (past : List Episode),
    History past device ∧ device.chip = tinyChip ∧ History.target? past = some 5 ∧
    device.latches.pending.map (·.buffer.getD 3 0) = some 0x0F ∧
    (device.rawPage 5).getD 3 0 = 0x3C ∧
    confirming.run device = .ok next ∧ confirming.run next = .ok again ∧
    erasing.foldlM Access.run again = .ok last ∧ (last.rawPage 5).getD 3 0 = 0xFF := by
  obtain ⟨fresh, hnew⟩ : ∃ fresh, Device.new tinyChip = .ok fresh := ⟨_, rfl⟩
  -- The whole course, and how things stand in the middle of it.
  have hmiddle : ((Device.new tinyChip).bind ((collecting 0x3C ++ confirming ::
      collecting 0x0F).foldlM Access.run)).map (fun device => (device.latches.target,
        device.latches.pending.map (·.buffer.getD 3 0), (device.rawPage 5).getD 3 0)) =
      .ok (some 5, some 0x0F, 0x3C) := by decide +kernel
  have hcourse : ((Device.new tinyChip).bind (((collecting 0x3C ++ confirming ::
      collecting 0x0F) ++ confirming :: confirming :: erasing).foldlM Access.run)).map
        (fun last => (last.rawPage 5).getD 3 0) = .ok 0xFF := by decide +kernel
  rw [hnew] at hmiddle hcourse
  obtain ⟨last, hcourse, hlast⟩ := exists_of_map_eq_ok hcourse
  rw [Except.bind, List.foldlM_append] at hcourse
  obtain ⟨device, hdevice, hcourse⟩ := exists_of_bind_eq_ok hcourse
  obtain ⟨next, hnext, hcourse⟩ := exists_of_bind_eq_ok hcourse
  obtain ⟨again, hagain, herasing⟩ := exists_of_bind_eq_ok hcourse
  rw [Except.bind, hdevice] at hmiddle
  simp only [Except.map, Except.ok.injEq, Prod.mk.injEq] at hmiddle
  obtain ⟨htarget, hcollected, hbyte⟩ := hmiddle
  obtain ⟨past, hrun, -⟩ := Run.nil.exists_of_foldlM (List.forall_mem_nil _) hdevice
  have hpast : History past device := List.append_nil past ▸ (History.new hnew).append hrun
  have hchip : device.chip = tinyChip := by
    rw [hrun.chip_eq]
    cases hnew
    rfl
  rw [hpast.target_eq] at htarget
  exact ⟨device, next, again, last, past, hpast, hchip, htarget, hcollected, hbyte, hnext, hagain,
    herasing, hlast⟩

/-- A byte that holds 0x3C is programmed with 0x0F, so that 0x0C is left. To confirm again changes
nothing, and then its block is erased. -/
theorem changes_cells_by_command_rewritten :
    ∃ (device next again last : Device) (past run : List Episode), device.Reachable ∧
      History past device ∧ History.target? past = some 5 ∧ (device.rawPage 5).getD 3 0 = 0x3C ∧
      confirming.run device = .ok next ∧ ChangesCells past device confirming next ∧
      (next.rawPage 5).getD 3 0 = 0x0C ∧
      confirming.run next = .ok again ∧ (∀ page, again.rawPage page = next.rawPage page) ∧
      Run again run last ∧ (last.rawPage 5).getD 3 0 = 0xFF ∧
      ∃ episode ∈ run, episode.erases 5 = true := by
  obtain ⟨device, next, again, last, past, hpast, hchip, htarget, hcollected, hbyte, hnext, hagain,
    herasing, hlast⟩ := exists_rewriting
  have hprogram : ∀ device, confirming.command? device = some .program := fun _ => rfl
  have hphysics := (changes_cells_by_command hpast.reachable).2.2 past hpast
  have hchanges := hphysics.1 confirming next hnext
  -- The theorem tells what the program leaves, and that there is no second one.
  have hcleared : (next.rawPage 5).getD 3 0 = 0x0C := by
    have hclears := hchanges.program (.inl (hprogram device))
    rw [htarget, hchip] at hclears
    obtain ⟨pending, hpending, -, hclears⟩ := hclears
    rw [hpending] at hcollected
    rw [hclears.byte_eq, hbyte, show pending.buffer.getD 3 0 = 0x0F from Option.some.inj hcollected]
    rfl
  have honce : ∀ page, again.rawPage page = next.rawPage page := fun page =>
    hchanges.once (.inl (hprogram device)) _ again (Run.nil.next (.onBus confirming) hagain)
      (List.forall_mem_singleton.2 ⟨_, rfl⟩)
      (List.forall_mem_singleton.2 (by simp [Episode.command?, hprogram])) page
      (List.forall_mem_singleton.2 (by simp [Episode.erases, Episode.command?, hprogram]))
  obtain ⟨run, herase, hbus⟩ := Run.nil.exists_of_foldlM (List.forall_mem_nil _) herasing
  have hagainPast := (hpast.next (.onBus confirming) hnext).next (.onBus confirming) hagain
  refine ⟨device, next, again, last, past, run, hpast.reachable, hpast, htarget, hbyte, hnext,
    hchanges, hcleared, hagain, honce, herase, hlast, ?_⟩
  refine ((changes_cells_by_command hagainPast.reachable).2.2 _ hagainPast).2 run last herase hbus
    5 3 0 ?_ ?_
  · rw [cell, honce, hcleared]
    rfl
  · rw [cell, hlast]
    rfl

end Device

end NandFlash.Sim
