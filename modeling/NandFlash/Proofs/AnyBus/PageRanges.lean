import NandFlash.Block
import NandFlash.Proofs.Profile
import NandFlash.Proofs.Program

/-!
# Page ranges of a block

A read or program of part of a block asks for its pages before it does anything else. The count of
pages is cut to a word and added to the first page in a word, so the answer is a matter of that
sum: it is a range of pages of the block, or a refusal, or a crash if the sum leaves its word. None
of them has been on the bus.
-/

namespace NandFlash

/-- The chip of a profile has so many blocks, of so many pages each, and all of its pages have
numbers of 32 bits. -/
structure Profile.Laid (profile : Profile) (blocks pagesPerBlock : Nat) : Prop where
  blocks_eq : profile.chip.blocks = .ok blocks
  pagesPerBlock_eq : profile.chip.pagesPerBlock = .ok pagesPerBlock
  pages_lt : blocks * pagesPerBlock < UInt32.size

namespace Profile.Laid

variable {blocks pagesPerBlock : Nat}

/-- The pages of a block end with those of the chip, at the latest. -/
theorem add_le {index stop : Nat} (hindex : index < blocks) (hstop : stop ≤ pagesPerBlock) :
    index * pagesPerBlock + stop ≤ blocks * pagesPerBlock := by
  have hnext : (index + 1) * pagesPerBlock ≤ blocks * pagesPerBlock :=
    Nat.mul_le_mul_right _ hindex
  rw [Nat.succ_mul] at hnext
  omega

end Profile.Laid

/-- The counts that a settled profile comes to. -/
theorem Profile.Settled.laid {profile : Profile} (h : profile.Settled) {blocks pagesPerBlock : Nat}
    (hblocks : profile.chip.blocks = .ok blocks)
    (hpagesPerBlock : profile.chip.pagesPerBlock = .ok pagesPerBlock) :
    profile.Laid blocks pagesPerBlock := by
  obtain ⟨page, block, size, hscaled⟩ := h.scaled
  cases hscaled.blocks_eq.symm.trans hblocks
  cases hscaled.pagesPerBlock_eq.symm.trans hpagesPerBlock
  refine ⟨hblocks, hpagesPerBlock, ?_⟩
  rw [← Nat.pow_add]
  have := hscaled.block_le
  have := hscaled.size_le
  exact Nat.pow_lt_pow_right (by omega) (by omega : 4 + size - block + (6 + block - page) < 32)

variable {β : Type} {controller : Controller β} {blocks pagesPerBlock : Nat}

/-- The layout is worked out from the profile, without the bus. -/
theorem Controller.run_blockLayout (h : controller.profile.Laid blocks pagesPerBlock) :
    (blockLayout : Action (Controller β) BlockLayout).run controller =
      .ok (⟨blocks, pagesPerBlock, controller.profile.geometry.pageBytes,
        controller.profile.geometry.spareSize⟩, controller) := by
  exact run_step rfl (run_step (run_action_lift h.blocks_eq)
    (run_step (run_action_lift h.pagesPerBlock_eq) rfl))

namespace Block

/-! ## The check -/

variable {bytes count : Nat}

/-- The bytes are so many whole pages, as the check counts them. -/
structure Counts (length bytes count : Nat) : Prop where
  whole : bytes % length = 0
  count_eq : bytes / length % UInt32.size = count

/-- Whole pages are counted right as long as their number is a word of 32 bits. -/
theorem Counts.of_mul {length : Nat} (hlength : 0 < length) (hcount : count < UInt32.size) :
    Counts length (count * length) count :=
  ⟨Nat.mul_mod_left _ _, by rw [Nat.mul_div_cancel _ hlength, Nat.mod_eq_of_lt hcount]⟩

section

variable (h : controller.profile.Laid blocks pagesPerBlock) (block : Block) (start : Nat)

include h

/-- Bytes that are no whole number of pages are refused. -/
theorem run_pagesFor_partial (hpartial : bytes % controller.profile.geometry.pageBytes ≠ 0) :
    (block.pagesFor start bytes : Attempt Failure (Controller β) (List Nat)).run.run controller =
      .ok (.error (.refused .partialPage), controller) := by
  unfold pagesFor
  refine run_attempt_step (run_perform (Controller.run_blockLayout h)) ?_
  rw [if_neg hpartial]
  rfl

variable (hcounts : Counts controller.profile.geometry.pageBytes bytes count)

include hcounts

/-- A sum of 33 bits ends the run. -/
theorem run_pagesFor_overflow (hover : UInt32.size ≤ start + count) :
    (block.pagesFor start bytes : Attempt Failure (Controller β) (List Nat)).run.run controller =
      .error .arithmetic := by
  have hcrash : word32 (start + bytes / controller.profile.geometry.pageBytes % UInt32.size) =
      .error .arithmetic := by
    rw [hcounts.count_eq]
    exact if_neg (Nat.not_lt.2 hover)
  unfold pagesFor
  refine run_attempt_step (run_perform (Controller.run_blockLayout h)) ?_
  rw [if_pos hcounts.whole]
  dsimp only
  rw [hcrash]
  rfl

/-- Pages behind the end of the block are refused. -/
theorem run_pagesFor_beyond (hword : start + count < UInt32.size)
    (hbeyond : pagesPerBlock < start + count) :
    (block.pagesFor start bytes : Attempt Failure (Controller β) (List Nat)).run.run controller =
      .ok (.error (.refused (.beyondBlock block.index start (start + count))), controller) := by
  unfold pagesFor
  refine run_attempt_step (run_perform (Controller.run_blockLayout h)) ?_
  rw [if_pos hcounts.whole]
  simp only [hcounts.count_eq]
  refine run_attempt_step (run_lift (word32_eq_ok.2 ⟨hword, rfl⟩)) ?_
  rw [if_neg (Nat.not_le.2 hbeyond)]
  rfl

/-- A range within the block is the list of its pages. -/
theorem run_pagesFor (hindex : block.index < blocks) (hstop : start + count ≤ pagesPerBlock) :
    (block.pagesFor start bytes : Attempt Failure (Controller β) (List Nat)).run.run controller =
      .ok (.ok (List.range' (block.index * pagesPerBlock + start) count), controller) := by
  have hlast := Nat.lt_of_le_of_lt (Profile.Laid.add_le hindex hstop) h.pages_lt
  unfold pagesFor
  refine run_attempt_step (run_perform (Controller.run_blockLayout h)) ?_
  rw [if_pos hcounts.whole]
  simp only [hcounts.count_eq]
  refine run_attempt_step (run_lift (word32_eq_ok.2 ⟨by omega, rfl⟩)) ?_
  rw [if_pos hstop]
  refine run_attempt_step (run_lift (word32_eq_ok.2 ⟨by omega, rfl⟩)) ?_
  rw [word32_eq_ok.2 ⟨hlast, rfl⟩, Nat.add_sub_cancel_left]
  rfl

end

/-! ## What becomes of a read or a program -/

section

variable [Bus β] {block : Block} {start : Nat} {buffer : Bytes}

/-- What a read does once its pages are known. -/
def readAt (g : Geometry) (buffer : Bytes) (pages : List Nat) :
    Action (Controller β) (Except Failure Unit × Bytes) := do
  let (outcome, pieces) ← readPages g buffer pages.zipIdx
  let filled := Bytes.join pieces
  return (outcome, filled ++ buffer.extract filled.size)

/-- A read whose range is accepted goes on page by page. -/
theorem run_read {pages : List Nat}
    (hpages : (block.pagesFor start buffer.size).run.run controller =
      .ok (.ok pages, controller)) :
    (block.read start buffer).run controller =
      (readAt controller.profile.geometry buffer pages).run controller :=
  run_step hpages (run_step (show (get : Action (Controller β) _).run controller = _ from rfl) rfl)

/-- A read whose range is refused leaves the buffer alone. -/
theorem run_read_error {failure : Failure}
    (hpages : (block.pagesFor start buffer.size).run.run controller =
      .ok (.error failure, controller)) :
    (block.read start buffer).run controller = .ok ((.error failure, buffer), controller) :=
  run_step hpages rfl

theorem run_read_crash {defect : Crash}
    (hpages : (block.pagesFor start buffer.size).run.run controller = .error defect) :
    (block.read start buffer).run controller = .error defect :=
  run_bind_crash hpages

/-- A program whose range is accepted goes on page by page. -/
theorem run_program {pages : List Nat}
    (hpages : (block.pagesFor start buffer.size).run.run controller =
      .ok (.ok pages, controller)) :
    (block.program start buffer).run.run controller =
      (programPages controller.profile.geometry buffer pages.zipIdx).run.run controller :=
  run_attempt_step hpages (run_attempt_step
    (show (get : Attempt Failure (Controller β) _).run.run controller = _ from rfl) rfl)

theorem run_program_error {failure : Failure}
    (hpages : (block.pagesFor start buffer.size).run.run controller =
      .ok (.error failure, controller)) :
    (block.program start buffer).run.run controller = .ok (.error failure, controller) :=
  run_attempt_bind_error hpages

theorem run_program_crash {defect : Crash}
    (hpages : (block.pagesFor start buffer.size).run.run controller = .error defect) :
    (block.program start buffer).run.run controller = .error defect :=
  run_attempt_bind_crash hpages

/-- Pages whose pieces are erased are passed over. -/
theorem programPages_filter (g : Geometry) (content : Bytes) (pages : List (Nat × Nat)) :
    (programPages g content
      (pages.filter fun entry => !(content.piece g.pageBytes entry.2).isErased) :
        Attempt Failure (Controller β) Unit) = programPages g content pages := by
  induction pages with
  | nil => rfl
  | cons entry pages ih =>
    by_cases hblank : (content.piece g.pageBytes entry.2).isErased
    · rw [List.filter_cons_of_neg (by simpa using hblank), ih]
      conv_rhs => rw [programPages, if_pos hblank]
    · rw [List.filter_cons_of_pos (by simpa using hblank), programPages, programPages, ih]

end

end Block

end NandFlash
