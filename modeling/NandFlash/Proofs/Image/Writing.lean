import NandFlash.Proofs.Image.Placing
import NandFlash.Proofs.Image.Summary
import NandFlash.Proofs.Stream

/-!
# Writing an image

An image goes into a ready device piece by piece and block by block: a block takes the next piece,
or it is bad and the piece waits for the block behind it. `Lays` is that walk as a relation on the
flash; a write is such a walk, whatever the device holds and however the source delivers.
-/

namespace NandFlash

open Sim

namespace Image

/-! ## Pieces -/

/-- The pieces of an image, the last one filled up with erased bytes. -/
def pieces (blockBytes : Nat) (image : Bytes) : List Bytes :=
  (List.range ((image.size + blockBytes - 1) / blockBytes)).map fun i =>
    image.piece blockBytes i ++ Bytes.erased (blockBytes - (image.piece blockBytes i).size)

variable {blockBytes : Nat} {image : Bytes}

theorem length_pieces : (pieces blockBytes image).length =
    (image.size + blockBytes - 1) / blockBytes := by
  rw [pieces, List.length_map, List.length_range]

theorem size_of_mem_pieces {piece : Bytes} (h : piece ∈ pieces blockBytes image) :
    piece.size = blockBytes := by
  obtain ⟨i, -, rfl⟩ := List.mem_map.1 h
  have hle : (image.piece blockBytes i).size ≤ blockBytes := by
    rw [Bytes.piece, Array.size_extract, Nat.succ_mul]
    omega
  rw [Array.size_append, Bytes.size_erased]
  omega

theorem pieces_empty (hpos : 0 < blockBytes) (h : image.size = 0) :
    pieces blockBytes image = [] := by
  rw [← List.length_eq_zero_iff, length_pieces, h, Nat.zero_add]
  exact Nat.div_eq_of_lt (by omega)

/-- Less than a block is filled up. -/
theorem padding_lt (hpos : 0 < blockBytes) (image : Bytes) :
    (pieces blockBytes image).length * blockBytes - image.size < blockBytes := by
  have := Nat.div_mul_le_self (image.size + blockBytes - 1) blockBytes
  rw [length_pieces]
  omega

theorem count_pieces_succ (hpos : 0 < blockBytes) (h : 0 < image.size) :
    (image.size + blockBytes - 1) / blockBytes =
      ((image.extract blockBytes).size + blockBytes - 1) / blockBytes + 1 := by
  rw [Array.size_extract, Nat.min_self]
  by_cases hle : blockBytes ≤ image.size
  · rw [show image.size + blockBytes - 1 =
      image.size - blockBytes + blockBytes - 1 + blockBytes by omega, Nat.add_div_right _ hpos]
  · -- The only piece of the image is not a whole one.
    rw [show image.size - blockBytes = 0 by omega, Nat.zero_add,
      Nat.div_eq_of_lt (show blockBytes - 1 < blockBytes by omega)]
    exact Nat.div_eq_of_lt_le (by omega) (by omega)

theorem piece_succ (image : Bytes) (i : Nat) : image.piece blockBytes (i + 1) =
    Bytes.piece blockBytes i (image.extract blockBytes) := by
  apply Array.ext_getElem?
  intro k
  simp only [Bytes.piece, Array.getElem?_extract, Array.size_extract, Nat.succ_mul]
  by_cases hk : k < min (i * blockBytes + blockBytes + blockBytes) image.size -
      (i * blockBytes + blockBytes)
  · rw [if_pos hk, if_pos (by omega), if_pos (by omega)]
    congr 1
    omega
  · rw [if_neg hk, if_neg (by omega)]

/-- The first piece, and those of the rest. -/
theorem pieces_cons (hpos : 0 < blockBytes) (h : 0 < image.size) :
    pieces blockBytes image =
      (image.extract 0 blockBytes ++
        Bytes.erased (blockBytes - (image.extract 0 blockBytes).size)) ::
      pieces blockBytes (image.extract blockBytes) := by
  rw [pieces, count_pieces_succ hpos h, List.range_succ_eq_map, List.map_cons, List.map_map]
  simp only [pieces, Function.comp_def, piece_succ, Nat.succ_eq_add_one]
  rw [Bytes.piece, Nat.zero_mul, Nat.zero_add, Nat.one_mul]

/-- The pieces of an image are the image, filled up; by induction on its size. -/
theorem join_pieces (hpos : 0 < blockBytes) (image : Bytes) :
    Bytes.join (pieces blockBytes image) =
      image ++ Bytes.erased ((pieces blockBytes image).length * blockBytes - image.size) := by
  obtain ⟨size, hsize⟩ : ∃ size, image.size = size := ⟨_, rfl⟩
  induction size using Nat.strong_induction_on generalizing image with
  | _ size ih =>
    -- The first piece is either a whole block of the image or all that there is, filled up.
    by_cases hempty : image.size = 0
    · rw [pieces_empty hpos hempty, Array.eq_empty_of_size_eq_zero hempty]
      simp [Bytes.erased, Bytes.filled]
    · have hrest : (image.extract blockBytes).size = size - blockBytes := by
        rw [Array.size_extract, Nat.min_self, hsize]
      rw [pieces_cons hpos (by omega), Bytes.join_cons,
        ih _ (by omega) (image.extract blockBytes) hrest, List.length_cons, Nat.succ_mul]
      by_cases hle : blockBytes ≤ image.size
      · have hwhole : image.extract 0 blockBytes ++ image.extract blockBytes = image := by
          rw [Array.extract_append_extract, Nat.zero_min, Nat.max_eq_right hle, Array.extract_size]
        have hnone : Bytes.erased (blockBytes - (image.extract 0 blockBytes).size) = #[] := by
          rw [Array.size_extract, show blockBytes - (min blockBytes image.size - 0) = 0 by omega]
          rfl
        rw [hnone, Array.append_empty, ← Array.append_assoc, hwhole, hrest]
        congr 2
        omega
      · have hwhole : image.extract 0 blockBytes = image := by
          rw [Array.extract_eq_self_iff]
          exact .inr ⟨rfl, by omega⟩
        rw [pieces_empty hpos (by omega), hwhole,
          Array.eq_empty_of_size_eq_zero (hrest.trans (by omega))]
        simp [Bytes.erased, Bytes.filled]

/-! ## The walk over the blocks -/

/-- Blocks from `index` on take pieces one after the other. A piece that a block does not take
waits for the next block; the walk may stop with pieces waiting. -/
inductive Lays (drive : Drive) :
    Nat → Flash → List Bytes → List Placement → Flash → List Bytes → Prop where
  | stop (index : Nat) (flash : Flash) (pieces : List Bytes) :
    Lays drive index flash pieces [] flash pieces
  | step {index : Nat} {flash mid last : Flash} {piece : Bytes} {pieces waiting : List Bytes}
    {placement : Placement} {placements : List Placement}
    (htakes : (drive.on flash).Takes index piece placement mid)
    (hrest : Lays drive (index + 1) mid (if placement = .bad then piece :: pieces else pieces)
      placements last waiting) :
    Lays drive index flash (piece :: pieces) (placement :: placements) last waiting

/-- Blocks from `index` on, each of which is marked or holds the next piece. -/
inductive Settled (drive : Drive) : Nat → List Bytes → List Placement → Prop where
  | done (index : Nat) : Settled drive index [] []
  | bad {index : Nat} {pieces : List Bytes} {placements : List Placement}
    (hmarked : drive.isMarked index = true) (hrest : Settled drive (index + 1) pieces placements) :
    Settled drive index pieces (.bad :: placements)
  | good {index : Nat} {piece : Bytes} {pieces : List Bytes} {placement : Placement}
    {placements : List Placement} (hgood : placement ≠ .bad)
    (hunmarked : drive.isMarked index = false) (hholds : drive.Holds index piece)
    (hrest : Settled drive (index + 1) pieces placements) :
    Settled drive index (piece :: pieces) (placement :: placements)

namespace Lays

variable {drive : Drive} {index : Nat} {flash last : Flash} {pieces waiting : List Bytes}
  {placements : List Placement}

/-- The device stays ready. -/
theorem ready (h : Lays drive index flash pieces placements last waiting)
    (hready : (drive.on flash).Ready) : (drive.on last).Ready := by
  induction h with
  | stop => exact hready
  | step htakes _ ih => exact ih (htakes.ready hready)

/-- Blocks before the first one do not change. -/
theorem agrees (h : Lays drive index flash pieces placements last waiting)
    (hpos : 0 < drive.chip.pagesPerBlock) {other : Nat} (hother : other < index) :
    (drive.on flash).AgreesOn other last := by
  induction h with
  | stop => exact Drive.AgreesOn.refl _ _
  | step htakes _ ih =>
    exact (htakes.agrees hpos (Nat.ne_of_lt hother)).trans (ih (Nat.lt_succ_of_lt hother))

/-- What has become of a block stays so while the walk goes on. -/
theorem settles_first {mid : Flash} {piece : Bytes} {placement : Placement}
    (htakes : (drive.on flash).Takes index piece placement mid) (hready : (drive.on flash).Ready)
    (hrest : Lays drive (index + 1) mid pieces placements last waiting) :
    if placement = .bad then (drive.on last).isMarked index = true
    else (drive.on last).isMarked index = false ∧ (drive.on last).Holds index piece := by
  have hpos := hready.genuine.counted.pagesPerBlock_pos
  have hagrees := hrest.agrees hpos (Nat.lt_succ_self index)
  have hmarked : (drive.on last).isMarked index = (drive.on mid).isMarked index :=
    hagrees.isMarked_eq hpos
  have hholds : (drive.on last).Holds index piece ↔ (drive.on mid).Holds index piece :=
    hagrees.holds_iff
  rw [hmarked, hholds]
  exact htakes.settles hready

/-- The pieces that have been taken come first, and they are where they have been put. -/
theorem exists_settled (h : Lays drive index flash pieces placements last waiting)
    (hready : (drive.on flash).Ready) :
    ∃ taken, pieces = taken ++ waiting ∧ Settled (drive.on last) index taken placements := by
  induction h with
  | stop index => exact ⟨[], rfl, .done index⟩
  | @step index _ _ _ piece pieces _ placement _ htakes hrest ih =>
    obtain ⟨taken, htaken, hsettled⟩ := ih (htakes.ready hready)
    have hfirst := settles_first htakes hready hrest
    by_cases hbad : placement = .bad
    · subst hbad
      exact ⟨taken, htaken, .bad hfirst hsettled⟩
    · rw [if_neg hbad] at htaken hfirst
      exact ⟨piece :: taken, congrArg (List.cons piece) htaken,
        .good hbad hfirst.1 hfirst.2 hsettled⟩

/-- A page keeps its content unless its block is rewritten or given up. -/
theorem content_eq (h : Lays drive index flash pieces placements last waiting)
    (hpos : 0 < drive.chip.pagesPerBlock) {page block : Nat}
    (hblock : page / drive.chip.pagesPerBlock = block)
    (hkept : block ∉ Placement.blocks (· == .written) index placements) :
    last.content page = flash.content page ∨
      block ∈ Placement.blocks (· == .bad) index placements ∧
        (drive.on flash).GivesUp block page last := by
  induction h with
  | stop => exact .inl rfl
  | @step index flash mid last piece pieces _ placement placements htakes hrest ih =>
    rw [Placement.mem_blocks_cons, not_or] at hkept
    simp only [Placement.mem_blocks_cons]
    by_cases heq : block = index
    · -- The walk does not come back to the block, and a step changes it only by giving it up.
      subst heq
      have hlast := (hrest.agrees hpos (Nat.lt_succ_self block) page hblock).1
      have hplacement : placement ≠ .written := fun h => hkept.1 ⟨rfl, beq_iff_eq.2 h⟩
      refine (htakes.content_eq hplacement page).imp hlast.trans ?_
      rintro ⟨rfl, hgives⟩
      exact ⟨.inl ⟨rfl, rfl⟩, hgives.isMarked_eq, hgives.isFailing, hgives.page_eq,
        hlast.trans hgives.content_eq⟩
    · -- The step does not touch the block.
      have hagrees := htakes.agrees hpos heq
      have hmid := (hagrees page hblock).1
      refine (ih hkept.2).imp (·.trans hmid) fun ⟨hmem, hgives⟩ => ⟨.inr hmem, ?_, ?_, ?_, ?_⟩
      · exact (hagrees.isMarked_eq hpos).symm.trans hgives.isMarked_eq
      · exact (congrFun htakes.isFailing_eq block).symm.trans hgives.isFailing
      · exact hgives.page_eq
      · exact hmid ▸ hgives.content_eq

end Lays

/-! ## Running a write -/

variable {source : Source} {controller : Controller Device}

/-- The next piece comes from a source that lasts. -/
theorem run_nextPiece (hlasts : source.Lasts) (hpos : 0 < blockBytes)
    (controller : Controller Device) : ∃ source' : Source,
    (nextPiece blockBytes).run.run (controller, source) =
      .ok (.ok (pieces blockBytes source.rest).head?, (controller, source')) ∧
    source'.Lasts ∧ pieces blockBytes source'.rest = (pieces blockBytes source.rest).tail := by
  obtain ⟨source', hfill, hlasts', hrest⟩ := hlasts.fill_eq blockBytes
  refine ⟨source', run_attempt_step (run_onStream hfill controller) ?_, hlasts', ?_⟩
  · by_cases hempty : source.rest.size = 0
    · rw [pieces_empty hpos hempty, if_pos (by simp [Array.eq_empty_of_size_eq_zero hempty])]
      rfl
    · have hsome : (source.rest.extract 0 blockBytes).isEmpty = false := by
        rw [Array.isEmpty, Array.size_extract]
        exact decide_eq_false (by omega)
      rw [pieces_cons hpos (by omega), hsome, if_neg Bool.false_ne_true]
      rfl
  · by_cases hempty : source.rest.size = 0
    · rw [hrest, pieces_empty hpos hempty,
        pieces_empty hpos (by rw [Array.size_extract]; omega)]
      rfl
    · have hcons := pieces_cons hpos (show 0 < source.rest.size by omega)
      rw [hrest, hcons, List.tail_cons]

/-- The piece to be placed next is the one that waits, if any. -/
theorem run_upNext {waiting : Option Bytes} {todo : List Bytes} (hlasts : source.Lasts)
    (hpos : 0 < blockBytes) (htodo : todo = waiting.toList ++ pieces blockBytes source.rest)
    (controller : Controller Device) : ∃ source' : Source,
    (upNext blockBytes waiting).run.run (controller, source) =
      .ok (.ok todo.head?, (controller, source')) ∧
    source'.Lasts ∧ pieces blockBytes source'.rest = todo.tail := by
  subst htodo
  cases waiting with
  | none => exact run_nextPiece hlasts hpos controller
  | some piece => exact ⟨source, rfl, hlasts, rfl⟩

/-- A write lays piece after piece into block after block, by induction on the blocks that are left.
It fails only if there are pieces left and no blocks. -/
theorem run_writeFrom {drive : Drive}
    (hbytes : blockBytes = drive.chip.pagesPerBlock * drive.geometry.pageBytes)
    (hpos : 0 < blockBytes) {left index : Nat} {flash : Flash} {waiting : Option Bytes}
    {todo : List Bytes} (summary : WriteSummary) (h : controller.Steady)
    (hreads : (drive.on flash).Reads controller.drive) (hready : (drive.on flash).Ready)
    (hlasts : source.Lasts) (htodo : todo = waiting.toList ++ pieces blockBytes source.rest)
    (hsizes : ∀ piece ∈ todo, piece.size = blockBytes)
    (hleft : ∀ k < left, index + k < drive.chip.blocks) :
    ∃ placements last rest next source',
      (writeFrom blockBytes left index waiting summary).run.run (controller, source) =
        .ok (if rest = [] then .ok (summary.addAll index placements)
          else .error (.refused .imageTooLarge), (next, source')) ∧
      next.Steady ∧ (drive.on last).Reads next.drive ∧
      Lays drive index flash todo placements last rest ∧ placements.length ≤ left ∧
      (rest = [] ∨ placements.length = left) := by
  -- What the walk keeps up: the piece that waits and those left in the source are what is still to
  -- be placed.
  induction left generalizing index flash waiting todo summary controller source with
  | zero =>
    obtain ⟨source', hnext, -, -⟩ := run_upNext hlasts hpos htodo controller
    refine ⟨[], flash, todo, controller, source', ?_, h, hreads, .stop index flash todo,
      Nat.le_refl _, .inr rfl⟩
    rw [writeFrom]
    refine run_attempt_step hnext ?_
    cases todo with
    | nil => rfl
    | cons piece todo => rfl
  | succ left ih =>
    obtain ⟨source', hnext, hlasts', hrest⟩ := run_upNext hlasts hpos htodo controller
    cases todo with
    | nil =>
      refine ⟨[], flash, [], controller, source', ?_, h, hreads, .stop index flash [],
        Nat.zero_le _, .inl rfl⟩
      rw [writeFrom]
      exact run_attempt_step hnext rfl
    | cons piece todo =>
      have hchip : controller.drive.chip = drive.chip := hreads.chip_eq
      have hprofile : controller.drive.profile = drive.profile := hreads.profile_eq
      rw [List.forall_mem_cons] at hsizes
      obtain ⟨placement, mid, after, hplace, hmoves, htakes⟩ :=
        Controller.run_placeAt h (hready.of_reads hreads h.isWhole)
          (hchip.symm ▸ hleft 0 (Nat.succ_pos left))
          (by rw [hchip, Drive.geometry, hprofile, hsizes.1]; exact hbytes)
      have htakes' := hreads.takes htakes
      have hreads' : (drive.on after).Reads mid.drive := (hreads.on after).trans hmoves.reads
      -- The piece has to wait if the block has not taken it.
      have htodo' : (if placement = .bad then piece :: todo else todo) =
          (if placement = .bad then some piece else none).toList ++
            pieces blockBytes source'.rest := by
        rw [hrest]
        split <;> rfl
      have hsizes' : ∀ piece' ∈ if placement = .bad then piece :: todo else todo,
          piece'.size = blockBytes := by
        split
        · exact List.forall_mem_cons.2 hsizes
        · exact hsizes.2
      obtain ⟨placements, last, rest, next, final, hrun, hsteady, hlast, hlays, hlength, hend⟩ :=
        ih (summary.add index placement) hmoves.steady hreads' (htakes'.ready hready) hlasts' htodo'
          hsizes' (Block.inRange_tail hleft)
      refine ⟨placement :: placements, last, rest, next, final, ?_, hsteady, hlast,
        .step htakes' hlays, Nat.succ_le_succ hlength, hend.imp id (congrArg Nat.succ)⟩
      rw [writeFrom]
      exact run_attempt_step hnext (run_attempt_step (run_tryOnFirst hplace source') hrun)

/-- A write starts with the first piece and the first block. -/
theorem run_write (h : controller.Steady) (hready : controller.drive.Ready) (hlasts : source.Lasts)
    (start : Nat) : ∃ placements last rest next source',
      (write start).run.run (controller, source) =
        .ok (if rest = [] then .ok (WriteSummary.empty.addAll start placements)
          else .error (.refused .imageTooLarge), (next, source')) ∧
      controller.Moves last next ∧
      Lays controller.drive start controller.drive.flash (pieces
        (controller.drive.chip.pagesPerBlock * controller.drive.geometry.pageBytes) source.rest)
        placements last rest ∧
      placements.length ≤ controller.drive.chip.blocks - start ∧
      (rest = [] ∨ placements.length = controller.drive.chip.blocks - start) := by
  have hpos : 0 < controller.drive.chip.pagesPerBlock * controller.drive.geometry.pageBytes :=
    Nat.mul_pos hready.genuine.counted.pagesPerBlock_pos (Geometry.pageBytes_pos _)
  have hleft : ∀ k < controller.drive.chip.blocks - start,
      start + k < controller.drive.chip.blocks := fun k hk => by omega
  -- No piece has been read ahead yet.
  have htodo : pieces (controller.drive.chip.pagesPerBlock * controller.drive.geometry.pageBytes)
      source.rest = (none : Option Bytes).toList ++ pieces _ source.rest := rfl
  obtain ⟨placements, last, rest, next, source', hrun, hnext, hreads, hlays, hlength, hend⟩ :=
    run_writeFrom rfl hpos .empty h (Drive.Reads.refl controller.drive) hready hlasts htodo
      (fun _ => size_of_mem_pieces) hleft
  refine ⟨placements, last, rest, next, source', ?_, ⟨hnext, hreads⟩, hlays, hlength, hend⟩
  unfold write
  refine run_attempt_step
    (run_perform (run_onFirst (Controller.run_blockLayout hready.genuine.laid) source)) ?_
  exact run_attempt_step (run_lift (Controller.blockBytes_eq hready.genuine _ _)) hrun

/-- A write that goes through has laid all pieces. -/
theorem exists_lays_of_write (h : controller.Steady) (hready : controller.drive.Ready)
    (hlasts : source.Lasts) {start : Nat} {summary : WriteSummary} {after : Controller Device}
    {source' : Source}
    (hwrite : (write start).run.run (controller, source) = .ok (.ok summary, (after, source'))) :
    ∃ placements last, summary = WriteSummary.empty.addAll start placements ∧
      controller.Moves last after ∧
      Lays controller.drive start controller.drive.flash (pieces
        (controller.drive.chip.pagesPerBlock * controller.drive.geometry.pageBytes) source.rest)
        placements last [] ∧
      placements.length ≤ controller.drive.chip.blocks - start := by
  obtain ⟨placements, last, rest, next, final, hrun, hmoves, hlays, hlength, -⟩ :=
    run_write h hready hlasts start
  obtain ⟨hsummary, hstate⟩ := Prod.mk.inj (Except.ok.inj (hwrite.symm.trans hrun))
  obtain ⟨rfl, rfl⟩ := Prod.mk.inj hstate
  by_cases hnone : rest = []
  · rw [if_pos hnone] at hsummary
    exact ⟨placements, last, Except.ok.inj hsummary, hmoves, hnone ▸ hlays, hlength⟩
  · rw [if_neg hnone] at hsummary
    cases hsummary

/-- A piece passes a marked block and one that fails, and goes to the sound block behind them. -/
theorem Lays.eq_of_worn {drive : Drive} {index : Nat} {last : Flash} {piece : Bytes}
    {placements : List Placement} {rest : List Bytes}
    (h : Lays drive index drive.flash [piece] placements last rest)
    (hend : rest = [] ∨ 3 ≤ placements.length) (hpos : 0 < drive.chip.pagesPerBlock)
    (hmarked : drive.isMarked index = true)
    (hgood : ∀ other ∈ [index + 1, index + 2],
      drive.isMarked other = false ∧ ¬drive.Holds other piece)
    (hfailing : drive.flash.isFailing (index + 1) = true)
    (hsound : drive.flash.isFailing (index + 2) = false) :
    placements = [.bad, .bad, .written] ∧ rest = [] := by
  have hsecond := hgood (index + 1) (by simp)
  have hthird := hgood (index + 2) (by simp)
  cases h with
  | stop => simp at hend
  | step htakes hrest =>
    obtain ⟨rfl, rfl⟩ := htakes.eq_of_isMarked hmarked
    rw [if_pos rfl] at hrest
    cases hrest with
    | stop => simp at hend
    | step htakes hrest =>
      obtain ⟨rfl, rfl⟩ := htakes.eq_of_isFailing hsecond.1 hsecond.2 hfailing
      rw [if_pos rfl] at hrest
      cases hrest with
      | stop => simp at hend
      | step htakes hrest =>
        -- The mark of the block in front does not reach this one.
        have hagrees : drive.AgreesOn (index + 2) (drive.flash.mark _ drive.geometry.pageBytes) :=
          Drive.agreesOn_mark hpos (show index + 2 ≠ index + 1 by omega) _
        obtain rfl := htakes.eq_written ((hagrees.isMarked_eq hpos).trans hthird.1)
          (fun hholds => hthird.2 (hagrees.holds_iff.1 hholds)) hsound
        rw [if_neg (by decide)] at hrest
        cases hrest
        exact ⟨rfl, rfl⟩

/-- Block 5 of a fresh K9F1G08 is marked, and block 6 wears out. -/
theorem exists_marked_and_worn : ∃ controller : Controller Device, controller.InUse ∧
    controller.drive.hang = false ∧ controller.drive.chip = Chip.k9f1g08 ∧
    controller.drive.profile = Controller.smallProfile ⟨some 20⟩ ∧
    controller.drive.flash =
      ((FlashArray.blank.flash Chip.k9f1g08.rawLen).mark (5 * 64) 2048).wearOut 6 := by
  obtain ⟨fresh, hinUse, hchip, hraw, hhang, -, hdrive⟩ := Controller.exists_fresh
  have hvalid : (Request.markBad 5).Valid fresh.drive.geometry fresh.drive.chip.pageCount
      fresh.drive.chip.blocks := by
    rw [hdrive]
    exact (by decide : 5 < Chip.k9f1g08.blocks)
  obtain ⟨reply, drive, hserve, hrunning, -, hflash⟩ :=
    (hinUse.steady.genuine hchip).exists_serve hraw hhang hvalid
  have hkeeps := Drive.keeps_of_serve hserve
  obtain ⟨marked, hserved, hmarked, rfl⟩ := hinUse.steady.run_serve hserve
  have hmark : (Controller.play (.request (.markBad 5))).run fresh = .ok (some reply, marked) :=
    run_step hserved rfl
  obtain ⟨worn, hwear, -, hworn⟩ := hmarked.run_play
    (show marked.drive.play (.wearOut 6) = .ok (none, _) from rfl)
  refine ⟨worn, (hinUse.played hmark).played hwear, ?_, ?_, ?_, ?_⟩
  · rw [hworn]
    exact hrunning
  · rw [hworn, hkeeps.chip_eq, hdrive]
  · rw [hworn, hkeeps.profile_eq, hdrive]
  · rw [hworn, hflash, hdrive]
    rfl

/-- On that chip block 5 is marked, block 6 is fresh but fails, and block 7 is fresh and sound. -/
theorem exists_worn_chip : ∃ controller : Controller Device,
    controller.InUse ∧ controller.channel.bus.chip.Genuine ∧
    controller.profile.geometry.pageBytes + controller.profile.geometry.spareSize ≤
      controller.channel.bus.chip.rawLen ∧
    controller.channel.bus.engine.hang = false ∧ controller.profile.poll.Allows 16 ∧
    controller.drive.chip = Chip.k9f1g08 ∧ controller.drive.geometry.pageBytes = 2048 ∧
    controller.drive.isMarked 5 = true ∧
    (∀ index ∈ [6, 7], controller.drive.Fresh (index * 64) 64) ∧
    controller.drive.flash.isFailing 6 = true ∧ controller.drive.flash.isFailing 7 = false := by
  obtain ⟨worn, hinUse, hhang, hchip, hprofile, hflash⟩ := exists_marked_and_worn
  have hgenuine : worn.drive.chip.Genuine := hchip.symm ▸ Chip.genuine_k9f1g08
  have hraw : worn.drive.profile.geometry.pageBytes + worn.drive.profile.geometry.spareSize ≤
      worn.drive.chip.rawLen := by
    rw [hprofile, hchip]
    decide
  have hpoll : worn.drive.profile.poll.Allows 16 := by
    rw [hprofile]
    exact fun limit hlimit => by
      cases hlimit
      decide
  refine ⟨worn, hinUse, hgenuine, hraw, hhang, hpoll, hchip, ?_, ?_, ?_, ?_, ?_⟩
  · rw [Drive.geometry, hprofile]
    rfl
  · rw [Drive.isMarked, Drive.geometry, hflash, hchip, hprofile]
    decide +kernel
  · intro index hindex i hi
    have hother : index * 64 + i ≠ 5 * 64 := by
      rcases List.mem_pair.1 hindex with rfl | rfl <;> omega
    rw [hflash, hchip]
    exact ⟨(Function.update_of_ne hother _ _).trans
      (FlashArray.content_blank Chip.k9f1g08.rawLen (index * 64 + i)),
      (Function.update_of_ne hother _ _).trans rfl⟩
  · rw [hflash]
    rfl
  · rw [hflash]
    rfl

/-- Three bytes are written to it from block 5 on, and go to block 7. -/
theorem exists_write : ∃ controller : Controller Device,
    controller.InUse ∧ controller.channel.bus.chip.Genuine ∧
    controller.profile.geometry.pageBytes + controller.profile.geometry.spareSize ≤
      controller.channel.bus.chip.rawLen ∧
    controller.channel.bus.engine.hang = false ∧ controller.profile.poll.Allows 16 ∧
    ∃ after source', (write 5).run.run (controller, .ofBytes #[0x4E, 0x46, 0x49]) =
        .ok (.ok ⟨#[7], #[], #[5, 6]⟩, (after, source')) := by
  obtain ⟨controller, hinUse, hgenuine, hraw, hhang, hpoll, hchip, hpage, hmarked, hfresh, hfailing,
    hsound⟩ := exists_worn_chip
  refine ⟨controller, hinUse, hgenuine, hraw, hhang, hpoll, ?_⟩
  have hready : controller.drive.Ready := ⟨hinUse.steady.genuine hgenuine, hraw, hhang, hpoll⟩
  have hpages : controller.drive.chip.pagesPerBlock = 64 := by rw [hchip]; rfl
  have hblocks : controller.drive.chip.blocks = 1024 := by rw [hchip]; rfl
  obtain ⟨placements, last, rest, after, source', hrun, -, hlays, -, hend⟩ :=
    run_write hinUse.steady hready (Source.lasts_ofBytes #[0x4E, 0x46, 0x49]) 5
  -- Three bytes make one piece.
  obtain ⟨piece, hpiece⟩ : ∃ piece, piece = #[0x4E, 0x46, 0x49] ++ Bytes.erased 131069 := ⟨_, rfl⟩
  have hsize : piece.size = controller.drive.chip.pagesPerBlock *
      controller.drive.geometry.pageBytes := by
    rw [hpages, hpage, hpiece, Array.size_append, Bytes.size_erased]
    rfl
  have hpieces : pieces 131072 #[0x4E, 0x46, 0x49] = [piece] := by
    rw [pieces_cons (by decide) (by decide), pieces_empty (by decide) (by simp), hpiece]
    simp
  rw [hpages, hpage, Source.rest_ofBytes, hpieces] at hlays
  have hnew : ∀ index ∈ [6, 7], controller.drive.isMarked index = false ∧
      ¬controller.drive.Holds index piece := by
    intro index hindex
    have hpagesFresh := hfresh index hindex
    rw [← hpages] at hpagesFresh
    refine ⟨Drive.isMarked_of_erased (hpagesFresh 0 (by omega)).1, fun hholds => ?_⟩
    have herased := hready.able.eq_erased_of_holds hsize hpagesFresh hholds
    have hfirst := congrArg (·[0]?) herased
    rw [hpiece] at hfirst
    simp [Bytes.erased, Bytes.filled, erasedByte] at hfirst
  obtain ⟨rfl, rfl⟩ := hlays.eq_of_worn (hend.imp_right fun hcount => by omega) (by omega) hmarked
    hnew hfailing hsound
  rw [if_pos rfl] at hrun
  exact ⟨after, source', hrun⟩

end Image

end NandFlash
