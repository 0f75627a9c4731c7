import NandFlash.Proofs.Sim.Marks

/-!
# Block operations and markers

A run of a block operation, however it ends, works on its block and on no other, and leaves it
unmarked if it was; only marking it bad does not. Reads and look-ups change nothing. Each statement
takes a run apart, step by step: nothing is asked of the blocks, the engine, or the bound on waits.
-/

namespace NandFlash

open Sim

namespace Controller

/-- A controller at rest on a chip that its profile describes, whose pages have room for the data
and the spare area of the geometry. -/
structure Fit (controller : Controller Device) : Prop where
  steady : controller.Steady
  genuine : controller.drive.Genuine
  fitsRaw : controller.drive.geometry.pageBytes + controller.drive.geometry.spareSize ≤
    controller.drive.chip.rawLen

variable {controller next : Controller Device} {index : Nat} {block : Block}

namespace Fit

theorem of_keeps (h : controller.Fit) (hsteady : next.Steady)
    (hkeeps : controller.drive.Keeps next.drive) : next.Fit := by
  refine ⟨hsteady, ⟨?_, ?_, hsteady.isWhole⟩, ?_⟩
  · rw [hkeeps.chip_eq, hkeeps.profile_eq]
    exact h.genuine.counted
  · rw [Drive.geometry, hkeeps.profile_eq]
    exact h.genuine.fits
  · rw [Drive.geometry, hkeeps.profile_eq, hkeeps.chip_eq]
    exact h.fitsRaw

/-- There is room for the marker of a block. -/
theorem hasRoom (h : controller.Fit) :
    controller.drive.geometry.pageBytes < controller.drive.chip.rawLen := by
  have hraw := h.fitsRaw
  have hadd := h.genuine.fits.parityStart_add
  have hfour := Geometry.Fits.four_le_parityStart controller.drive.profile.layout
  omega

/-- A request keeps the controller fit, and is answered as the drive says. -/
theorem of_serve (h : controller.Fit) (request : Request) {reply : Reply}
    (hrun : (serve request).run controller = .ok (reply, next)) :
    next.Fit ∧ controller.drive.serve request = .ok (reply, next.drive) := by
  obtain ⟨hsteady, hserve⟩ := h.steady.drive_serve hrun
  exact ⟨h.of_keeps hsteady (Drive.keeps_of_serve hserve), hserve⟩

/-! ## Operations of the controller -/

/-- A page is read without a change of the flash. -/
theorem reads_readPage (h : controller.Fit) {page : Nat} {data spare : Bytes} {result : PageRead}
    (hrun : (readPage page data spare).run controller = .ok (result, next)) :
    next.Fit ∧ controller.drive.Reads next.drive := by
  obtain ⟨hnext, hserve⟩ := h.of_serve (.readPage page data spare)
    (run_step (run_step hrun rfl) rfl)
  exact ⟨hnext, Drive.reads_of_serve_readPage hserve⟩

/-- A program works on the block of its page. -/
theorem works_writePage (h : controller.Fit) {page : Nat} {data : Bytes}
    {result : Except Error Unit × Bytes}
    (hrun : (writePage page data (Bytes.erased controller.drive.geometry.spareSize)).run controller =
      .ok (result, next)) :
    next.Fit ∧ controller.drive.Works (page / controller.drive.chip.pagesPerBlock) next.drive := by
  obtain ⟨hnext, hserve⟩ := h.of_serve
    (.writePage page data (Bytes.erased controller.drive.geometry.spareSize))
    (run_step (run_step hrun rfl) rfl)
  exact ⟨hnext, h.genuine.works_of_serve_writePage h.fitsRaw hserve⟩

/-- An erase works on its block. -/
theorem works_eraseBlock (h : controller.Fit) {r : Except Error Unit}
    (hrun : (eraseBlock index).run.run controller = .ok (r, next)) :
    next.Fit ∧ controller.drive.Works index next.drive := by
  obtain ⟨hnext, hserve⟩ := h.of_serve (.eraseBlock index)
    (run_step (run_step hrun rfl) rfl)
  exact ⟨hnext, h.genuine.works_of_serve_eraseBlock hserve⟩

/-- A mark changes pages of its block alone. -/
theorem alters_markBad (h : controller.Fit) {r : Except Error Unit}
    (hrun : (Controller.markBad index).run.run controller = .ok (r, next)) :
    next.Fit ∧ controller.drive.Alters index next.drive := by
  obtain ⟨hnext, hserve⟩ := h.of_serve (.markBad index)
    (run_step (run_step hrun rfl) rfl)
  exact ⟨hnext, h.genuine.alters_of_serve_markBad hserve⟩

/-! ## Looking blocks up -/

/-- A block that is handed out exists and is not marked. -/
theorem of_block? (h : controller.Fit) {r : Except Failure (Option Block)}
    (hrun : (block? index).run.run controller = .ok (r, next)) :
    next.Fit ∧ controller.drive.Reads next.drive ∧ ∀ block, r = .ok (some block) →
      block = ⟨index⟩ ∧ index < controller.drive.chip.blocks ∧
        controller.drive.isMarked index = false := by
  -- Beyond the last block nothing is read, and there is no block to be found.
  by_cases hindex : index < controller.drive.chip.blocks
  · obtain ⟨found, hfound, hsteady, hreads⟩ := run_block? h.steady h.genuine hindex
    rw [hrun] at hfound
    cases hfound
    refine ⟨h.of_keeps hsteady hreads.keeps, hreads, ?_⟩
    intro block hblock
    cases hmarked : controller.drive.isMarked index with
    | true =>
      rw [hmarked] at hblock
      cases hblock
    | false =>
      rw [hmarked] at hblock
      cases hblock
      exact ⟨rfl, hindex, rfl⟩
  · rw [block?, run_attempt_bind (run_perform (run_blockLayout h.genuine.laid)), if_neg hindex] at hrun
    cases hrun
    refine ⟨h, Drive.Reads.refl _, ?_⟩
    intro block hblock
    cases hblock

/-! ## Block operations -/

/-- The pages that a block operation asks for are pages of the block. -/
theorem of_pagesFor (h : controller.Fit) {start bytes : Nat} {r : Except Failure (List Nat)}
    (hrun : (block.pagesFor start bytes : Attempt Failure (Controller Device) _).run.run controller =
      .ok (r, next)) :
    next = controller ∧ ∀ pages, r = .ok pages →
      ∀ page ∈ pages, page / controller.drive.chip.pagesPerBlock = block.index := by
  rw [Block.pagesFor, run_attempt_bind (run_perform (run_blockLayout h.genuine.laid))] at hrun
  split at hrun
  case isFalse =>
    cases hrun
    exact ⟨rfl, fun pages hpages => by cases hpages⟩
  obtain ⟨stop, -, hrun⟩ := exists_of_run_lift_bind hrun
  split at hrun
  case isFalse =>
    cases hrun
    exact ⟨rfl, fun pages hpages => by cases hpages⟩
  case isTrue hstop =>
    obtain ⟨base, hbase, hrun⟩ := exists_of_run_lift_bind hrun
    obtain ⟨-, rfl⟩ := word32_eq_ok.1 hbase
    generalize word32 _ = fits at hrun
    cases fits with
    | error defect => cases hrun
    | ok last =>
      cases hrun
      refine ⟨rfl, ?_⟩
      intro pages hpages page hpage
      cases hpages
      -- The stop has been checked against the block, so no page gets to the next one.
      obtain ⟨i, hi, rfl⟩ := List.mem_range'.1 hpage
      rw [Nat.div_eq_iff h.genuine.counted.pagesPerBlock_pos]
      dsimp only at hstop ⊢
      omega

/-- Reading pages changes nothing, by induction on the pages that are left. -/
theorem reads_readPages {pages : List (Nat × Nat)} (h : controller.Fit) {g : Geometry}
    {buffer : Bytes} {result : Except Failure Unit × List Bytes}
    (hrun : (Block.readPages g buffer pages).run controller = .ok (result, next)) :
    next.Fit ∧ controller.drive.Reads next.drive := by
  induction pages generalizing controller result with
  | nil =>
    cases hrun
    exact ⟨h, Drive.Reads.refl _⟩
  | cons entry pages ih =>
    obtain ⟨page, i⟩ := entry
    rw [Block.readPages] at hrun
    obtain ⟨read, mid, hread, hrest⟩ := exists_of_run_bind hrun
    obtain ⟨hmid, hreads⟩ := h.reads_readPage hread
    split at hrest
    · cases hrest
      exact ⟨hmid, hreads⟩
    · obtain ⟨rest, last, hpages, hlast⟩ := exists_of_run_bind hrest
      cases hlast
      obtain ⟨hnext, hreads'⟩ := ih hmid hpages
      exact ⟨hnext, hreads.trans hreads'⟩

/-- A read of a block changes nothing. -/
theorem reads_read (h : controller.Fit) {start : Nat} {buffer : Bytes}
    {result : Except Failure Unit × Bytes}
    (hrun : (block.read start buffer).run controller = .ok (result, next)) :
    next.Fit ∧ controller.drive.Reads next.drive := by
  rw [Block.read] at hrun
  obtain ⟨asked, mid, hasked, hread⟩ := exists_of_run_bind hrun
  obtain ⟨hmid, -⟩ := h.of_pagesFor hasked
  rw [hmid] at hread
  split at hread
  · cases hread
    exact ⟨h, Drive.Reads.refl _⟩
  · rw [run_bind (run_get _)] at hread
    obtain ⟨read, last, hpages, hlast⟩ := exists_of_run_bind hread
    cases hlast
    exact h.reads_readPages hpages

/-- Programming pages of one block is work on that block, by induction on those that are left. -/
theorem works_programPages {pages : List (Nat × Nat)} (h : controller.Fit) {g : Geometry}
    (hg : g = controller.drive.geometry)
    (hpages : ∀ entry ∈ pages, entry.1 / controller.drive.chip.pagesPerBlock = index)
    {content : Bytes} {r : Except Failure Unit}
    (hrun : (Block.programPages g content pages).run.run controller = .ok (r, next)) :
    next.Fit ∧ controller.drive.Works index next.drive := by
  -- All pages are of one block, so that what is done to them adds up to work on that block.
  induction pages generalizing controller with
  | nil =>
    cases hrun
    exact ⟨h, Drive.Works.refl _⟩
  | cons entry pages ih =>
    obtain ⟨page, i⟩ := entry
    rw [List.forall_mem_cons] at hpages
    obtain ⟨hpage, hpages⟩ := hpages
    rw [Block.programPages] at hrun
    split at hrun
    case isTrue => exact ih h hg hpages hrun
    case isFalse =>
      obtain ⟨⟨outcome, answered⟩, mid, hwrite, hrest⟩ := exists_of_run_perform_bind hrun
      rw [hg] at hwrite
      obtain ⟨hmid, hworks⟩ := h.works_writePage hwrite
      rw [hpage] at hworks
      have hkeeps := hworks.keeps
      cases outcome with
      | error error =>
        cases hrest
        exact ⟨hmid, hworks⟩
      | ok =>
        obtain ⟨hnext, hworks'⟩ := ih hmid
          (by rw [hg, Drive.geometry, Drive.geometry, hkeeps.profile_eq])
          (by rwa [hkeeps.chip_eq]) hrest
        exact ⟨hnext, hworks.trans hworks'⟩

/-- A program of a block works on that block. -/
theorem works_program (h : controller.Fit) {start : Nat} {content : Bytes}
    {r : Except Failure Unit}
    (hrun : (block.program start content).run.run controller = .ok (r, next)) :
    next.Fit ∧ controller.drive.Works block.index next.drive := by
  rw [Block.program] at hrun
  rcases cases_of_run_attempt_bind hrun with ⟨failure, hasked, -⟩ | ⟨pages, mid, hasked, hrest⟩
  · obtain ⟨rfl, -⟩ := h.of_pagesFor hasked
    exact ⟨h, Drive.Works.refl _⟩
  · obtain ⟨rfl, hpages⟩ := h.of_pagesFor hasked
    refine h.works_programPages rfl ?_ hrest
    intro entry hentry
    exact hpages pages rfl _ (List.fst_mem_of_mem_zipIdx hentry)

/-- So does an erase. -/
theorem works_erase (h : controller.Fit) {r : Except Failure Unit}
    (hrun : block.erase.run.run controller = .ok (r, next)) :
    next.Fit ∧ controller.drive.Works block.index next.drive := by
  obtain ⟨outcome, -, hrun⟩ := exists_of_run_adapt hrun
  exact h.works_eraseBlock hrun

/-- Counting used pages changes nothing, by induction on the pages that are left. -/
theorem reads_countUsed {count start : Nat} (h : controller.Fit) {buffer : Bytes}
    {r : Except Failure Nat}
    (hrun : (block.countUsed count start buffer).run.run controller = .ok (r, next)) :
    next.Fit ∧ controller.drive.Reads next.drive := by
  induction count generalizing controller start buffer r with
  | zero =>
    cases hrun
    exact ⟨h, Drive.Reads.refl _⟩
  | succ count ih =>
    rw [Block.countUsed] at hrun
    obtain ⟨⟨outcome, content⟩, mid, hread, hrest⟩ := exists_of_run_perform_bind hrun
    obtain ⟨hmid, hreads⟩ := h.reads_read hread
    cases outcome with
    | error failure =>
      cases hrest
      exact ⟨hmid, hreads⟩
    | ok =>
      obtain ⟨r', hcount⟩ :=
        exists_of_run_bind_pure (m := block.countUsed count (start + 1) content) hrest
      obtain ⟨hnext, hreads'⟩ := ih hmid hcount
      exact ⟨hnext, hreads.trans hreads'⟩

/-- Counting the pages in use changes nothing. -/
theorem reads_usedPages (h : controller.Fit) {r : Except Failure Nat}
    (hrun : block.usedPages.run.run controller = .ok (r, next)) :
    next.Fit ∧ controller.drive.Reads next.drive := by
  rw [Block.usedPages, run_attempt_bind (run_perform (run_blockLayout h.genuine.laid))] at hrun
  exact h.reads_countUsed hrun

/-- Marking a block bad alters that block alone. -/
theorem alters_blockMarkBad (h : controller.Fit) {r : Except Failure Unit}
    (hrun : block.markBad.run.run controller = .ok (r, next)) :
    next.Fit ∧ controller.drive.Alters block.index next.drive := by
  rw [Block.markBad] at hrun
  obtain ⟨_, mid, herase, hmark⟩ := exists_of_run_perform_bind hrun
  obtain ⟨hmid, hworks⟩ := h.works_eraseBlock herase
  obtain ⟨outcome, -, hmark⟩ := exists_of_run_adapt hmark
  obtain ⟨hnext, halters⟩ := hmid.alters_markBad hmark
  refine ⟨hnext, hworks.keeps.trans halters.keeps, ?_⟩
  intro row hrow
  rw [halters.content_eq row (by rwa [hworks.keeps.chip_eq]), hworks.content_eq row hrow]

/-! ## Marking a block comes to an end -/

/-- An erase comes to an end, and wears no block out. -/
theorem exists_run_eraseBlock (h : controller.Fit) (hindex : index < controller.drive.chip.blocks) :
    ∃ r next, (eraseBlock index).run.run controller = .ok (r, next) ∧
      next.drive.flash.isFailing = controller.drive.flash.isFailing := by
  have hfollows := follows_eraseBlock h.steady.rests h.genuine.counted.blocks_eq hindex
  rw [h.genuine.perform_eraseBlock hindex] at hfollows
  obtain ⟨r, next, hrun, -, -, hdrive⟩ := hfollows.exists_of_ok
  refine ⟨r, next, hrun, ?_⟩
  rw [hdrive]
  dsimp only
  split <;> rfl

/-- A mark comes to an end with the block marked, even where the block fails. -/
theorem exists_run_markBad (h : controller.Fit) (hindex : index < controller.drive.chip.blocks) :
    ∃ next, (Controller.markBad index).run.run controller =
        .ok (if controller.drive.flash.isFailing index
          then .error (.programFailed (index * controller.drive.chip.pagesPerBlock)) else .ok (),
          next) ∧
      next.drive.isMarked index = true := by
  have hfollows := follows_markBad h.steady.rests h.genuine.counted.blocks_eq hindex
  rw [h.genuine.perform_markBad hindex] at hfollows
  obtain ⟨r, next, hrun, hr, -, hdrive⟩ := hfollows.exists_of_ok
  refine ⟨next, ?_, ?_⟩
  · rw [hrun]
    have hdone : (r.map fun _ => Answer.done) = if controller.drive.flash.isFailing index
        then .error (.programFailed (index * controller.drive.chip.pagesPerBlock))
        else .ok .done := by
      refine (congrArg Prod.fst hr).symm.trans ?_
      cases controller.drive.flash.isFailing index <;> rfl
    rw [eq_of_map_done hdone]
  · rw [hdrive]
    exact h.genuine.isMarked_mark h.hasRoom

/-- A block that is marked bad is marked, even if it fails and the call says so. -/
theorem exists_run_blockMarkBad (h : controller.Fit)
    (hindex : index < controller.drive.chip.blocks) :
    ∃ next, (Block.markBad ⟨index⟩).run.run controller =
        .ok (if controller.drive.flash.isFailing index
          then .error (.device (.programFailed (index * controller.drive.chip.pagesPerBlock)))
          else .ok (), next) ∧
      next.Fit ∧ next.drive.chip = controller.drive.chip ∧ next.drive.isMarked index = true := by
  obtain ⟨_, mid, herase, hfailing⟩ := h.exists_run_eraseBlock hindex
  obtain ⟨hmid, hworks⟩ := h.works_eraseBlock herase
  have hchip := hworks.keeps.chip_eq
  obtain ⟨next, hmark, hmarked⟩ := hmid.exists_run_markBad (hchip ▸ hindex)
  obtain ⟨hnext, halters⟩ := hmid.alters_markBad hmark
  refine ⟨next, ?_, hnext, halters.keeps.chip_eq.trans hchip, hmarked⟩
  rw [Block.markBad, run_attempt_bind (run_perform herase)]
  rw [hfailing, hchip] at hmark
  have hadapt := run_adapt hmark Failure.device
  cases hworn : controller.drive.flash.isFailing index <;> rw [hworn] at hadapt <;> exact hadapt

end Fit

end Controller

end NandFlash
