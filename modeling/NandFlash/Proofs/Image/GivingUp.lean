import NandFlash.Proofs.Sim.BlockMarks
import NandFlash.Proofs.Stream

/-!
# Giving blocks up

Scans and dumps change nothing. A write of an image spares the blocks that are marked, and marks a
block of its own accord in one case only: it came to the block with a piece, the block was good and
did not hold the piece, and three attempts to erase and program it have failed in a row.
`Image.GivesUp` says so in terms of the steps of the write.
-/

namespace NandFlash

open Sim

/-! ## Failing in a row -/

/-- Attempts to erase and program a block have failed, one after the other. -/
inductive Block.FailsInARow {β : Type} [Bus β] (block : Block) (content : Bytes) :
    Nat → Controller β → Controller β → Prop where
  | none {controller} : FailsInARow block content 0 controller controller
  | more {attempts controller next last failure}
    (hfails : (do block.erase; block.program 0 content :
      Attempt Failure (Controller β) Unit).run.run controller = .ok (.error failure, next))
    (hrest : FailsInARow block content attempts next last) :
    FailsInARow block content (attempts + 1) controller last

namespace Image

/-! ## Steps of a write -/

section

variable {β : Type} [Bus β]

/-- The write of an image from block `first` on comes to a block: the piece that the last block did
not take, and the device and the source as they are by then. -/
inductive ComesTo (blockBytes first : Nat) (start : Controller β × Source) :
    Nat → Option Bytes → Controller β × Source → Prop where
  | first : ComesTo blockBytes first start first none start
  | next {index waiting state piece fetched placement placed}
    (h : ComesTo blockBytes first start index waiting state)
    (hfetch : (upNext blockBytes waiting).run.run state = .ok (.ok (some piece), fetched))
    (hplace : (tryOnFirst (placeAt index piece)).run.run fetched = .ok (.ok placement, placed)) :
    ComesTo blockBytes first start (index + 1) (if placement = .bad then some piece else none) placed

/-- A good block is found not to hold a piece, and three attempts to change that fail. -/
structure Defies (index : Nat) (piece : Bytes) (controller : Controller β) : Prop where
  exists_run : ∃ asked unlike worn,
    (Controller.block? index).run.run controller = .ok (.ok (some ⟨index⟩), asked) ∧
    (holds ⟨index⟩ piece).run asked = .ok (false, unlike) ∧
    Block.FailsInARow ⟨index⟩ piece 3 unlike worn

/-- The write of an image from block `first` on gives a block up. -/
structure GivesUp (blockBytes first : Nat) (start : Controller β × Source) (index : Nat) :
    Prop where
  exists_defies : ∃ waiting state piece controller source,
    ComesTo blockBytes first start index waiting state ∧
    (upNext blockBytes waiting).run.run state = .ok (.ok (some piece), (controller, source)) ∧
    Defies index piece controller

end

variable {controller next : Controller Device} {index : Nat} {block : Block} {content : Bytes}

open Controller (Fit run_blockLayout blockBytes_eq)

/-! ## One block -/

theorem reads_holds (h : controller.Fit) {held : Bool}
    (hrun : (holds block content).run controller = .ok (held, next)) :
    next.Fit ∧ controller.drive.Reads next.drive := by
  rw [holds] at hrun
  obtain ⟨⟨outcome, current⟩, mid, hread, hlast⟩ := exists_of_run_bind hrun
  have hmid : mid = next := by
    cases outcome <;> cases hlast <;> rfl
  rw [← hmid]
  exact h.reads_read hread

/-- One attempt to erase and program a block. -/
theorem works_update (h : controller.Fit) {r : Except Failure Unit}
    (hrun : (do block.erase; block.program 0 content :
      Attempt Failure (Controller Device) Unit).run.run controller = .ok (r, next)) :
    next.Fit ∧ controller.drive.Works block.index next.drive := by
  rcases cases_of_run_attempt_bind hrun with ⟨failure, herase, -⟩ | ⟨_, mid, herase, hprogram⟩
  · exact h.works_erase herase
  · obtain ⟨hmid, hworks⟩ := h.works_erase herase
    obtain ⟨hnext, hworks'⟩ := hmid.works_program hprogram
    exact ⟨hnext, hworks.trans hworks'⟩

/-- A block is worked on until an attempt succeeds, or all have failed; by induction on the
attempts that are left. -/
theorem works_updateWithin (h : controller.Fit) {attempts : Nat} {done : Bool}
    (hrun : (updateWithin block content attempts).run controller = .ok (done, next)) :
    next.Fit ∧ controller.drive.Works block.index next.drive ∧
      (done = false → block.FailsInARow content attempts controller next) := by
  induction attempts generalizing controller with
  | zero =>
    cases hrun
    exact ⟨h, Drive.Works.refl _, fun _ => .none⟩
  | succ attempts ih =>
    rw [updateWithin] at hrun
    obtain ⟨outcome, mid, hattempt, hrest⟩ := exists_of_run_bind hrun
    obtain ⟨hmid, hworks⟩ := works_update h hattempt
    cases outcome with
    | ok =>
      cases hrest
      exact ⟨hmid, hworks, fun hdone => by cases hdone⟩
    | error failure =>
      obtain ⟨hnext, hworks', hfails⟩ := ih hmid hrest
      exact ⟨hnext, hworks.trans hworks', fun hdone => .more hattempt (hfails hdone)⟩

/-- A piece goes into a block that is not marked. It is marked afterwards only if it did not hold
the piece and three attempts have failed. -/
theorem spares_place (h : controller.Fit)
    (hunmarked : controller.drive.isMarked block.index = false) {placement : Placement}
    (hrun : (place block content).run controller = .ok (placement, next)) :
    next.Fit ∧ controller.drive.Spares (fun other => other = block.index ∧ ∃ unlike worn,
      (holds block content).run controller = .ok (false, unlike) ∧
      block.FailsInARow content 3 unlike worn) next.drive := by
  rw [place] at hrun
  obtain ⟨held, unlike, hholds, hrest⟩ := exists_of_run_bind hrun
  obtain ⟨hunlike, hreads⟩ := reads_holds h hholds
  cases held with
  | true =>
    cases hrest
    exact ⟨hunlike, .of_reads hreads⟩
  | false =>
    obtain ⟨done, worn, hupdate, hrest⟩ := exists_of_run_bind hrest
    obtain ⟨hworn, hworks, hfails⟩ := works_updateWithin hunlike hupdate
    have hclean : unlike.drive.isMarked block.index = false := hreads.isMarked_eq ▸ hunmarked
    cases done with
    | true =>
      cases hrest
      exact ⟨hworn, (Drive.Spares.of_reads hreads).trans (hworks.spares hunlike.genuine hclean)⟩
    | false =>
      obtain ⟨_, marked, hmark, hlast⟩ := exists_of_run_bind hrest
      cases hlast
      obtain ⟨hnext, halters⟩ := hworn.alters_blockMarkBad hmark
      have hmarks := halters.spares hworn.genuine (hworks.unmarked hclean)
      refine ⟨hnext, ((Drive.Spares.of_reads hreads).trans
        (hworks.spares hunlike.genuine hclean)).trans (hmarks.mono ?_)⟩
      -- The attempts have all failed, which is what giving up a block asks for.
      rintro other rfl
      exact ⟨rfl, unlike, worn, hholds, hfails rfl⟩

theorem spares_placeAt (h : controller.Fit) {piece : Bytes} {r : Except Failure Placement}
    (hrun : (placeAt index piece).run.run controller = .ok (r, next)) :
    next.Fit ∧ controller.drive.Spares (fun other => other = index ∧ Defies index piece controller)
      next.drive := by
  rw [placeAt] at hrun
  rcases cases_of_run_attempt_bind hrun with ⟨failure, hasked, -⟩ | ⟨found?, asked, hasked, hrest⟩
  · obtain ⟨hnext, hreads, -⟩ := h.of_block? hasked
    exact ⟨hnext, .of_reads hreads⟩
  obtain ⟨hfit, hreads, hgood⟩ := h.of_block? hasked
  cases found? with
  | none =>
    cases hrest
    exact ⟨hfit, .of_reads hreads⟩
  | some block =>
    obtain ⟨rfl, -, hunmarked⟩ := hgood block rfl
    obtain ⟨placement, -, hplace⟩ := exists_of_run_perform hrest
    obtain ⟨hnext, hspares⟩ := spares_place hfit (hreads.isMarked_eq ▸ hunmarked) hplace
    refine ⟨hnext, (Drive.Spares.of_reads hreads).trans (hspares.mono ?_)⟩
    rintro other ⟨rfl, unlike, worn, hholds, hfails⟩
    exact ⟨rfl, ⟨asked, unlike, worn, hasked, hholds, hfails⟩⟩

/-! ## Whole images -/

variable {blockBytes first : Nat} {start state last : Controller Device × Source}

theorem fst_eq_of_run_upNext {waiting : Option Bytes} {r : Except Failure (Option Bytes)}
    (hrun : (upNext blockBytes waiting).run.run state = .ok (r, last)) : last.1 = state.1 := by
  cases waiting with
  | some piece =>
    cases hrun
    rfl
  | none =>
    rw [upNext, nextPiece] at hrun
    rcases cases_of_run_attempt_bind hrun with ⟨failure, hfill, -⟩ | ⟨bytes, mid, hfill, hrest⟩
    · exact fst_eq_of_run_onStream hfill
    · rw [← fst_eq_of_run_onStream hfill]
      split at hrest <;> cases hrest <;> rfl

/-- The rest of a write spares the blocks that are marked, and marks only those that it gives up;
by induction on the blocks that are left. -/
theorem spares_writeFrom {left : Nat} {waiting : Option Bytes} {summary : WriteSummary}
    (h : state.1.Fit) (hcomes : ComesTo blockBytes first start index waiting state)
    {r : Except Failure WriteSummary}
    (hrun : (writeFrom blockBytes left index waiting summary).run.run state = .ok (r, last)) :
    last.1.Fit ∧ state.1.drive.Spares (GivesUp blockBytes first start) last.1.drive := by
  -- Fetching a piece leaves the device alone, so that only placing it has to be looked at.
  induction left generalizing state index waiting summary with
  | zero =>
    rw [writeFrom] at hrun
    rcases cases_of_run_attempt_bind hrun with
      ⟨failure, hfetch, -⟩ | ⟨piece?, fetched, hfetch, hrest⟩
    · have hsame := fst_eq_of_run_upNext hfetch
      rw [hsame]
      exact ⟨h, .refl _⟩
    · have hsame := fst_eq_of_run_upNext hfetch
      have hlast : last = fetched := by
        cases piece? <;> cases hrest <;> rfl
      rw [hlast, hsame]
      exact ⟨h, .refl _⟩
  | succ left ih =>
    rw [writeFrom] at hrun
    rcases cases_of_run_attempt_bind hrun with
      ⟨failure, hfetch, -⟩ | ⟨piece?, fetched, hfetch, hrest⟩
    · have hsame := fst_eq_of_run_upNext hfetch
      rw [hsame]
      exact ⟨h, .refl _⟩
    have hsame := fst_eq_of_run_upNext hfetch
    cases piece? with
    | none =>
      cases hrest
      rw [hsame]
      exact ⟨h, .refl _⟩
    | some piece =>
      obtain ⟨controller, source⟩ := fetched
      obtain rfl : controller = state.1 := hsame
      -- The piece goes into the block at hand, or the block is given up.
      have hplaced : ∀ {r' : Except Failure Placement} {placed : Controller Device × Source},
          (tryOnFirst (placeAt index piece)).run.run (state.1, source) = .ok (r', placed) →
          placed.1.Fit ∧ state.1.drive.Spares (GivesUp blockBytes first start) placed.1.drive := by
        intro r' placed hplace
        obtain ⟨controller, hinner, rfl⟩ := exists_of_run_onFirst hplace
        obtain ⟨hfit, hspares⟩ := spares_placeAt h hinner
        refine ⟨hfit, hspares.mono ?_⟩
        rintro other ⟨rfl, hdefies⟩
        exact ⟨waiting, state, piece, state.1, source, hcomes, hfetch, hdefies⟩
      rcases cases_of_run_attempt_bind hrest with ⟨failure, hplace, -⟩ |
        ⟨placement, placed, hplace, hrest⟩
      · exact hplaced hplace
      · obtain ⟨hfit, hspares⟩ := hplaced hplace
        obtain ⟨hlast, hspares'⟩ := ih hfit (hcomes.next hfetch hplace) hrest
        exact ⟨hlast, hspares.trans hspares'⟩

theorem spares_write {source rest : Source} (h : controller.Fit) {r : Except Failure WriteSummary}
    (hrun : (write first).run.run (controller, source) = .ok (r, (next, rest))) :
    next.Fit ∧ controller.drive.Spares
      (GivesUp (controller.drive.chip.pagesPerBlock * controller.drive.geometry.pageBytes) first
        (controller, source)) next.drive := by
  rw [write, run_attempt_bind (run_perform (run_onFirst (run_blockLayout h.genuine.laid) source))]
    at hrun
  obtain ⟨blockBytes, hbytes, hrest⟩ := exists_of_run_lift_bind hrun
  cases hbytes.symm.trans (blockBytes_eq h.genuine _ _)
  exact spares_writeFrom h .first hrest

/-! ## Scans and dumps -/

/-- A scan changes nothing, by induction on the blocks that are left. -/
theorem reads_badBlocksFrom (h : controller.Fit) {count : Nat} {r : Except Failure (List Nat)}
    (hrun : (badBlocksFrom count index).run.run controller = .ok (r, next)) :
    next.Fit ∧ controller.drive.Reads next.drive := by
  induction count generalizing controller index r with
  | zero =>
    cases hrun
    exact ⟨h, .refl _⟩
  | succ count ih =>
    rw [badBlocksFrom] at hrun
    rcases cases_of_run_attempt_bind hrun with ⟨failure, hasked, -⟩ | ⟨found?, mid, hasked, hrest⟩
    · obtain ⟨hnext, hreads, -⟩ := h.of_block? hasked
      exact ⟨hnext, hreads⟩
    obtain ⟨hmid, hreads, -⟩ := h.of_block? hasked
    obtain ⟨r', hothers⟩ := exists_of_run_bind_pure hrest
    obtain ⟨hnext, hreads'⟩ := ih hmid hothers
    exact ⟨hnext, hreads.trans hreads'⟩

theorem reads_badBlocks (h : controller.Fit) {r : Except Failure (List Nat)}
    (hrun : badBlocks.run.run controller = .ok (r, next)) :
    next.Fit ∧ controller.drive.Reads next.drive := by
  rw [badBlocks, run_attempt_bind (run_perform (run_blockLayout h.genuine.laid))] at hrun
  exact reads_badBlocksFrom h hrun

theorem reads_blockContent (h : controller.Fit) {buffer : Bytes} {r : Except Failure Bytes}
    (hrun : (blockContent index buffer).run.run controller = .ok (r, next)) :
    next.Fit ∧ controller.drive.Reads next.drive := by
  rw [blockContent] at hrun
  rcases cases_of_run_attempt_bind hrun with ⟨failure, hasked, -⟩ | ⟨found?, mid, hasked, hrest⟩
  · obtain ⟨hnext, hreads, -⟩ := h.of_block? hasked
    exact ⟨hnext, hreads⟩
  obtain ⟨hmid, hreads, -⟩ := h.of_block? hasked
  cases found? with
  | none =>
    cases hrest
    exact ⟨hmid, hreads⟩
  | some block =>
    obtain ⟨⟨outcome, content⟩, last, hread, hlast⟩ := exists_of_run_perform_bind hrest
    obtain ⟨hnext, hreads'⟩ := hmid.reads_read hread
    have hsame : next = last := by
      cases outcome <;> cases hlast <;> rfl
    rw [hsame]
    exact ⟨hnext, hreads.trans hreads'⟩

variable {sink : Sink} {ended dumping : Controller Device × Sink}

/-- A dump changes nothing, by induction on the blocks that are left. -/
theorem reads_dumpFrom {count : Nat} {buffer : Bytes} {register : UInt32} (h : dumping.1.Fit)
    {r : Except Failure UInt32}
    (hrun : (dumpFrom count index buffer register).run.run dumping = .ok (r, ended)) :
    ended.1.Fit ∧ dumping.1.drive.Reads ended.1.drive := by
  -- The sink has nothing to do with the device, and a block is only read.
  induction count generalizing dumping index buffer register with
  | zero =>
    cases hrun
    exact ⟨h, .refl _⟩
  | succ count ih =>
    obtain ⟨controller, sink⟩ := dumping
    rw [dumpFrom] at hrun
    rcases cases_of_run_attempt_bind hrun with
      ⟨failure, hcontent, -⟩ | ⟨content, mid, hcontent, hrest⟩
    · obtain ⟨next, hinner, rfl⟩ := exists_of_run_onFirst hcontent
      exact reads_blockContent h hinner
    obtain ⟨next, hinner, rfl⟩ := exists_of_run_onFirst hcontent
    obtain ⟨hnext, hreads⟩ := reads_blockContent h hinner
    rcases cases_of_run_attempt_bind hrest with ⟨failure, hsink, -⟩ | ⟨_, stored, hsink, hrest⟩
    · have hsame := fst_eq_of_run_onStream hsink
      rw [hsame]
      exact ⟨hnext, hreads⟩
    · have hsame := fst_eq_of_run_onStream hsink
      rw [← hsame] at hnext hreads
      obtain ⟨hended, hreads'⟩ := ih hnext hrest
      exact ⟨hended, hreads.trans hreads'⟩

theorem reads_dump {stop : Nat} (h : controller.Fit) {r : Except Failure UInt32}
    (hrun : (dump first stop).run.run (controller, sink) = .ok (r, ended)) :
    ended.1.Fit ∧ controller.drive.Reads ended.1.drive := by
  rw [dump, run_attempt_bind (run_perform (run_onFirst (run_blockLayout h.genuine.laid) sink))] at hrun
  split at hrun
  case isFalse =>
    cases hrun
    exact ⟨h, .refl _⟩
  obtain ⟨blockBytes, -, hrest⟩ := exists_of_run_lift_bind hrun
  obtain ⟨r', hfrom⟩ := exists_of_run_bind_pure hrest
  exact reads_dumpFrom h hfrom

end Image

end NandFlash
