import NandFlash.Proofs.Sim.Blocks

/-!
# Programming fresh pages

A program of part of a block goes through the pages in order and passes over those whose piece is
erased. On a sound block all of the others are written to. On a failing one the first of them ends
the program, and no other page changes.
-/

namespace NandFlash

open Sim

namespace Sim.Drive

variable {drive : Drive} {first count : Nat} {content : Bytes} {flash : Flash}

/-- Pages of a range that are erased, and that the ECC engine holds nothing for. -/
def Fresh (drive : Drive) (first count : Nat) : Prop :=
  ∀ i < count, drive.flash.content (first + i) = Bytes.erased drive.chip.rawLen ∧
    drive.flash.reference (first + i) = none

/-- A range of pages that has taken the pieces of some content. -/
structure Fills (drive : Drive) (first count : Nat) (content : Bytes) (flash : Flash) : Prop where
  stores : ∀ i < count,
    (drive.on flash).Stores (first + i) (content.piece drive.geometry.pageBytes i)
  isFailing_eq : flash.isFailing = drive.flash.isFailing
  /-- Pages that are passed over are among those that stay as they are. -/
  keeps : ∀ page, (∀ i < count, (content.piece drive.geometry.pageBytes i).isErased = false →
    page ≠ first + i) → drive.KeepsPage page flash

/-- A range of pages that has failed to take piece `i` of some content, the first that is not
erased. -/
structure Breaks (drive : Drive) (first count : Nat) (content : Bytes) (i : Nat) (flash : Flash) :
    Prop where
  lt : i < count
  isErased_eq : (content.piece drive.geometry.pageBytes i).isErased = false
  isErased_of_lt : ∀ k < i, (content.piece drive.geometry.pageBytes k).isErased
  keeps : ∀ page ≠ first + i, drive.KeepsPage page flash

/-- Pages that have been written to, each with its piece of some content. -/
structure Programs (drive : Drive) (content : Bytes) (pages : List (Nat × Nat)) (flash : Flash) :
    Prop where
  stores : ∀ entry ∈ pages,
    (drive.on flash).Stores entry.1 (content.piece drive.geometry.pageBytes entry.2)
  isFailing_eq : flash.isFailing = drive.flash.isFailing
  keeps : ∀ page, page ∉ pages.map Prod.fst → drive.KeepsPage page flash

end Sim.Drive

namespace Controller

variable {controller : Controller Device} {content : Bytes}

/-! ## Pages one by one -/

/-- The first page takes its piece. -/
theorem run_programPages_cons (h : controller.Steady) (hable : controller.drive.Able)
    {page i : Nat} (hpage : page < controller.drive.chip.pageCount)
    (hsize : (content.piece controller.drive.geometry.pageBytes i).size =
      controller.drive.geometry.pageBytes)
    (hfilled : (content.piece controller.drive.geometry.pageBytes i).isErased = false)
    (hsound : controller.drive.flash.isFailing (page / controller.drive.chip.pagesPerBlock) = false)
    (herased : controller.drive.flash.content page = Bytes.erased controller.drive.chip.rawLen)
    (pages : List (Nat × Nat)) : ∃ next flash,
      (Block.programPages controller.profile.geometry content ((page, i) :: pages)).run.run
        controller =
        (Block.programPages controller.profile.geometry content pages).run.run next ∧
      controller.Moves flash next ∧ (controller.drive.on flash).Stores page
        (content.piece controller.drive.geometry.pageBytes i) ∧
      flash.isFailing = controller.drive.flash.isFailing ∧
      ∀ other ≠ page, controller.drive.KeepsPage other flash := by
  obtain ⟨answered, next, hrun, hmoves⟩ := run_writePage h hable hpage hsize
  rw [hsound, if_neg Bool.false_ne_true] at hrun
  obtain ⟨hstores, hfailing, hothers⟩ := hable.stores_writePage hsize herased answered _ rfl
  have hwrites : ¬(content.piece controller.profile.geometry.pageBytes i).isErased :=
    Bool.eq_false_iff.1 hfilled
  refine ⟨next, _, ?_, hmoves, hstores, hfailing, hothers⟩
  rw [Block.programPages, if_neg hwrites]
  exact run_attempt_step (run_perform hrun) rfl

/-- Erased pages of sound blocks are written to one by one, by induction on those that are left. -/
theorem run_programPages (h : controller.Steady) (hable : controller.drive.Able)
    {pages : List (Nat × Nat)} (hnodup : (pages.map Prod.fst).Nodup)
    (hpages : ∀ entry ∈ pages, entry.1 < controller.drive.chip.pageCount ∧
      (content.piece controller.drive.geometry.pageBytes entry.2).size =
        controller.drive.geometry.pageBytes ∧
      (content.piece controller.drive.geometry.pageBytes entry.2).isErased = false ∧
      controller.drive.flash.isFailing (entry.1 / controller.drive.chip.pagesPerBlock) = false ∧
      controller.drive.flash.content entry.1 = Bytes.erased controller.drive.chip.rawLen) :
    ∃ next flash, (Block.programPages controller.profile.geometry content pages).run.run
        controller = .ok (.ok (), next) ∧
      controller.Moves flash next ∧ controller.drive.Programs content pages flash := by
  -- By induction on the pages, none of which comes again behind itself.
  induction pages generalizing controller with
  | nil =>
    refine ⟨controller, controller.drive.flash, rfl, ⟨h, Drive.Reads.refl _⟩, ?_, rfl, ?_⟩
    · intro entry hentry
      cases hentry
    · exact fun _ _ => ⟨rfl, rfl⟩
  | cons entry pages ih =>
    obtain ⟨page, i⟩ := entry
    rw [List.map_cons, List.nodup_cons] at hnodup
    obtain ⟨hfresh, hnodup⟩ := hnodup
    rw [List.forall_mem_cons] at hpages
    obtain ⟨⟨hpage, hsize, hfilled, hsound, herased⟩, hrest⟩ := hpages
    obtain ⟨mid, first, hstep, hmoves, hstores, hfailing, hothers⟩ :=
      run_programPages_cons h hable hpage hsize hfilled hsound herased pages
    have hprofile : mid.profile = controller.profile := hmoves.reads.profile_eq
    have hchip : mid.drive.chip = controller.drive.chip := hmoves.reads.chip_eq
    have hflash : mid.drive.flash = first := hmoves.reads.flash_eq
    have hgeometry : mid.drive.geometry = controller.drive.geometry :=
      congrArg Profile.geometry hprofile
    -- The pages that are left are others than the first, and are as they were.
    have hmem : ∀ entry ∈ pages, entry.1 ≠ page := by
      intro entry hentry heq
      exact hfresh (List.mem_map.2 ⟨entry, hentry, heq⟩)
    obtain ⟨last, after, hrun, hlast, hprograms⟩ := ih hmoves.steady (hmoves.able hable) hnodup (by
      intro entry hentry
      obtain ⟨hpage', hsize', hfilled', hsound', herased'⟩ := hrest entry hentry
      rw [hchip, hgeometry, hflash, hfailing, (hothers _ (hmem entry hentry)).1]
      exact ⟨hpage', hsize', hfilled', hsound', herased'⟩)
    rw [hprofile] at hrun
    refine ⟨last, after, hstep.trans hrun, hmoves.trans hlast, ?_, ?_, ?_⟩
    · rw [List.forall_mem_cons]
      obtain ⟨hcontent, hreference⟩ := hprograms.keeps page hfresh
      rw [hflash] at hcontent hreference
      refine ⟨hstores.of_eq rfl hcontent hreference, fun entry hentry => ?_⟩
      have hheld := hprograms.stores entry hentry
      rw [hgeometry] at hheld
      exact hheld.of_eq hgeometry.symm rfl rfl
    · rw [hprograms.isFailing_eq, hflash, hfailing]
    · intro other hother
      rw [List.map_cons, List.mem_cons, not_or] at hother
      obtain ⟨hcontent, hreference⟩ := hprograms.keeps other hother.2
      rw [hflash] at hcontent hreference
      obtain ⟨hcontent', hreference'⟩ := hothers other hother.1
      exact ⟨hcontent.trans hcontent', hreference.trans hreference'⟩

/-! ## Ranges of pages -/

variable {first count : Nat}

/-- The pages of a range that are written to, with the pieces that they take. -/
def toWrite (g : Geometry) (first count : Nat) (content : Bytes) : List (Nat × Nat) :=
  (List.range' first count).zipIdx.filter fun entry => !(content.piece g.pageBytes entry.2).isErased

theorem mem_toWrite {g : Geometry} {entry : Nat × Nat} :
    entry ∈ toWrite g first count content ↔ entry.2 < count ∧ entry.1 = first + entry.2 ∧
      (content.piece g.pageBytes entry.2).isErased = false := by
  obtain ⟨page, i⟩ := entry
  rw [toWrite, List.mem_filter, zipIdx_range', List.mem_map]
  simp only [List.mem_range, Prod.mk.injEq, Bool.not_eq_true']
  constructor
  · rintro ⟨⟨i, hi, rfl, rfl⟩, hfilled⟩
    exact ⟨hi, rfl, hfilled⟩
  · rintro ⟨hi, rfl, hfilled⟩
    exact ⟨⟨i, hi, rfl, rfl⟩, hfilled⟩

/-- They are in order. -/
theorem pairwise_toWrite (g : Geometry) (first count : Nat) (content : Bytes) :
    (toWrite g first count content).Pairwise fun entry next => entry.1 < next.1 := by
  rw [toWrite, zipIdx_range']
  refine List.Pairwise.filter _ ?_
  rw [List.pairwise_map]
  exact List.pairwise_lt_range.imp (Nat.add_lt_add_left · first)

section

variable (h : controller.Steady) (hable : controller.drive.Able) {index start : Nat}
  (hindex : index < controller.drive.chip.blocks)
  (hstop : start + count ≤ controller.drive.chip.pagesPerBlock)
  (hsize : content.size = count * controller.drive.geometry.pageBytes)
  (hfirst : first = index * controller.drive.chip.pagesPerBlock + start)
  (hfresh : controller.drive.Fresh first count)

include hable hindex hstop hsize hfirst

/-- Programming part of a block comes to writing the pages that are not passed over. -/
theorem run_program : (Block.program ⟨index⟩ start content).run.run controller =
    (Block.programPages controller.profile.geometry content
      (toWrite controller.profile.geometry first count content)).run.run controller := by
  rw [Block.run_program (run_pagesFor hable.genuine hindex hstop hsize), toWrite,
    Block.programPages_filter, hfirst]

omit hsize hable in
theorem lt_pageCount {i : Nat} (hi : i < count) :
    first + i < controller.drive.chip.pageCount := by
  have hplace := Chip.page_lt hindex (k := start + i) (by omega)
  omega

omit hindex hsize in
theorem div_eq_index {i : Nat} (hi : i < count) :
    (first + i) / controller.drive.chip.pagesPerBlock = index := by
  rw [Nat.div_eq_iff hable.genuine.counted.pagesPerBlock_pos]
  omega

include h hfresh

/-- If the block is sound, or nothing is to be written to it, the range takes the content. -/
theorem run_program_of_sound (hsound : controller.drive.flash.isFailing index = true →
      toWrite controller.profile.geometry first count content = []) :
    ∃ next flash, (Block.program ⟨index⟩ start content).run.run controller = .ok (.ok (), next) ∧
      controller.Moves flash next ∧ controller.drive.Fills first count content flash := by
  have hnodup : ((toWrite controller.profile.geometry first count content).map Prod.fst).Nodup :=
    List.pairwise_map.2 ((pairwise_toWrite _ first count content).imp Nat.ne_of_lt)
  obtain ⟨next, flash, hrun, hmoves, hprograms⟩ :=
    run_programPages h hable hnodup fun entry hentry => by
      obtain ⟨hi, hpage, hfilled⟩ := mem_toWrite.1 hentry
      have hgood : controller.drive.flash.isFailing index = false := by
        by_contra hfailing
        rw [hsound (Bool.eq_true_of_not_eq_false hfailing)] at hentry
        cases hentry
      rw [hpage, div_eq_index hable hstop hfirst hi]
      exact ⟨lt_pageCount hindex hstop hfirst hi, size_piece hsize hi, hfilled, hgood,
        (hfresh _ hi).1⟩
  have hkeeps : ∀ page, (∀ i < count, (content.piece controller.drive.geometry.pageBytes i).isErased
      = false → page ≠ first + i) → controller.drive.KeepsPage page flash := by
    intro page hother
    have hnot : page ∉ (toWrite controller.profile.geometry first count content).map Prod.fst := by
      rintro hmem
      obtain ⟨entry, hentry, rfl⟩ := List.mem_map.1 hmem
      obtain ⟨hi, hpage, hfilled⟩ := mem_toWrite.1 hentry
      exact hother _ hi hfilled hpage
    exact hprograms.keeps page hnot
  refine ⟨next, flash, (run_program hable hindex hstop hsize hfirst).trans hrun, hmoves, ?_,
    hprograms.isFailing_eq, hkeeps⟩
  intro i hi
  cases hblank : (content.piece controller.drive.geometry.pageBytes i).isErased with
  | false => exact hprograms.stores (first + i, i) (mem_toWrite.2 ⟨hi, rfl, hblank⟩)
  | true =>
    -- The page has been passed over, and is as fresh as it was.
    obtain ⟨hcontent, hreference⟩ := hkeeps (first + i) fun k _ hfilled heq => by
      rw [← Nat.add_left_cancel heq, hblank] at hfilled
      cases hfilled
    exact (hmoves.able_on hable).stores_erased (size_piece hsize hi) hblank
      (hcontent.trans (hfresh i hi).1) (hreference.trans (hfresh i hi).2)

/-- On a failing block the first page that is written to ends the program. -/
theorem run_program_of_failing {entry : Nat × Nat} {rest : List (Nat × Nat)}
    (hwrite : toWrite controller.profile.geometry first count content = entry :: rest)
    (hfailing : controller.drive.flash.isFailing index = true) :
    ∃ next flash, (Block.program ⟨index⟩ start content).run.run controller =
        .ok (.error (.programming entry.1 (.programFailed entry.1)), next) ∧
      controller.Moves flash next ∧ entry.1 = first + entry.2 ∧
      controller.drive.Breaks first count content entry.2 flash := by
  have hmem : entry ∈ toWrite controller.profile.geometry first count content :=
    hwrite ▸ List.mem_cons_self
  obtain ⟨hi, hpage, hfilled⟩ := mem_toWrite.1 hmem
  have hlt : entry.1 < controller.drive.chip.pageCount :=
    hpage ▸ lt_pageCount hindex hstop hfirst hi
  obtain ⟨answered, next, hrun, hmoves⟩ := run_writePage h hable hlt (size_piece hsize hi)
  rw [hpage, div_eq_index hable hstop hfirst hi, ← hpage, hfailing, if_pos rfl] at hrun
  obtain ⟨-, -, hothers⟩ := hable.stores_writePage (size_piece hsize hi)
    (hpage ▸ (hfresh _ hi).1) answered _ rfl
  refine ⟨next, _, ?_, hmoves, hpage, hi, hfilled, ?_, ?_⟩
  · rw [run_program hable hindex hstop hsize hfirst, hwrite, Block.programPages,
      if_neg (Bool.eq_false_iff.1 hfilled)]
    exact run_attempt_step (run_perform hrun) rfl
  · -- A page before it would have been written to first.
    intro k hk
    by_contra hblank
    have hsecond : (first + k, k) ∈ entry :: rest :=
      hwrite ▸ mem_toWrite.2 ⟨by omega, rfl, Bool.eq_false_iff.2 hblank⟩
    have horder := pairwise_toWrite controller.profile.geometry first count content
    rw [hwrite, List.pairwise_cons] at horder
    rcases List.mem_cons.1 hsecond with rfl | hlater
    · exact Nat.lt_irrefl _ hk
    · have := horder.1 _ hlater
      dsimp only at this
      omega
  · exact fun page hother => hothers page (hpage ▸ hother)

end

end Controller

end NandFlash
