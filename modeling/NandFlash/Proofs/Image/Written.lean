import NandFlash.Proofs.Image.Dumping
import NandFlash.Proofs.Image.Writing

/-!
# What a write leaves behind

A write that goes through has placed the whole image: the blocks of its summary are a range from
the first block on, those that are not bad hold the image between them in ascending order, and
those that are bad are marked. Nothing else has changed but the markers of blocks that were given
up. A write that fails has run out of blocks, and has placed as much of the image as there was
room for.
-/

namespace NandFlash

open Sim

theorem Sim.Drive.Holds.blockContent_eq {drive : Drive} {index : Nat} {content : Bytes}
    (h : drive.Holds index content) (hunmarked : drive.isMarked index = false)
    (hsize : content.size = drive.chip.pagesPerBlock * drive.geometry.pageBytes) :
    drive.blockContent index drive.blockBuffer = .ok (.ok content) := by
  rw [Drive.Holds, hsize] at h
  rw [Drive.blockContent, hunmarked, if_neg Bool.false_ne_true, Drive.blockBuffer, h]
  rfl

namespace Image

/-- After a write, blocks `start` to `stop` hold some contents or are marked bad, as the summary
says. -/
structure Lies (before after : Controller Device) (start stop : Nat) (summary : WriteSummary)
    (contents : List Bytes) : Prop where
  tiles : summary.Tiles start stop
  counts : summary.written.size + summary.unchanged.size = contents.length
  /-- The blocks that are not bad can be read, and hold the contents in ascending order. -/
  reads : ∃ last, (summary.holders.mapM fun index =>
    blockContent index (Bytes.filled (before.channel.bus.chip.pagesPerBlock *
      before.profile.geometry.pageBytes) 0)).run.run after = .ok (.ok contents, last)
  marks : ∀ index, start ≤ index → index < stop → ∃ last,
    (Controller.isBad index).run.run after = .ok (.ok (decide (index ∈ summary.bad)), last)
  /-- A block that has not been written keeps its content, unless it is sound no more and has been
  given up. -/
  keeps : ∀ page, page / before.channel.bus.chip.pagesPerBlock ∉ summary.written →
    after.channel.bus.rawPage page = before.channel.bus.rawPage page ∨
      page / before.channel.bus.chip.pagesPerBlock ∈ summary.bad ∧
        before.drive.GivesUp (page / before.channel.bus.chip.pagesPerBlock) page
          after.channel.bus.flash

/-- How a write of an image ends: the image is on the device, filled up with erased bytes, or the
device has been filled to its end with the front of the image. -/
def Places (before after : Controller Device) (start : Nat) (image : Bytes) :
    Except Failure WriteSummary → Prop :=
  let blocks := before.channel.bus.chip.blocks
  let blockBytes := before.channel.bus.chip.pagesPerBlock * before.profile.geometry.pageBytes
  Ending
    (fun summary => ∃ stop contents, stop ≤ max start blocks ∧
      Lies before after start stop summary contents ∧
      contents.length = (image.size + blockBytes - 1) / blockBytes ∧
      Bytes.join contents = image ++ Bytes.erased (contents.length * blockBytes - image.size))
    (fun failure => failure = .refused .imageTooLarge ∧ ∃ summary contents,
      Lies before after start (max start blocks) summary contents ∧
      contents.length < (image.size + blockBytes - 1) / blockBytes ∧
      Bytes.join contents = image.extract 0 (contents.length * blockBytes))

variable {drive : Drive} {controller : Controller Device} {index start : Nat}
  {contents : List Bytes} {placements : List Placement}

theorem Settled.isMarked_eq (h : Settled drive index contents placements) {i : Nat}
    (hle : index ≤ i) (hlt : i < index + placements.length) :
    drive.isMarked i = decide (placements[i - index]? = some .bad) := by
  induction h with
  | done => exact absurd hlt (by rw [List.length_nil]; omega)
  | @bad index _ _ hmarked _ ih =>
    rw [List.length_cons] at hlt
    by_cases hi : i = index
    · subst hi
      simp [hmarked]
    · rw [show i - index = i - (index + 1) + 1 by omega, List.getElem?_cons_succ]
      exact ih (by omega) (by omega)
  | @good index _ _ _ _ hgood hunmarked _ _ ih =>
    rw [List.length_cons] at hlt
    by_cases hi : i = index
    · subst hi
      simp [hunmarked, hgood]
    · rw [show i - index = i - (index + 1) + 1 by omega, List.getElem?_cons_succ]
      exact ih (by omega) (by omega)

theorem Settled.length_blocks (h : Settled drive index contents placements) :
    (Placement.blocks (· != .bad) index placements).length = contents.length := by
  induction h with
  | done => rfl
  | bad _ _ ih => exact ih
  | good hgood _ _ _ ih =>
    rw [Placement.blocks, if_pos (by simpa using hgood), List.length_cons, List.length_cons, ih]

/-- The blocks that are not bad are read one after the other, by induction on the blocks. -/
theorem Settled.run_contents (h : Settled drive index contents placements)
    (hready : drive.Ready) (hsteady : controller.Steady) (hreads : drive.Reads controller.drive)
    (hsizes : ∀ content ∈ contents,
      content.size = drive.chip.pagesPerBlock * drive.geometry.pageBytes)
    (hbound : ∀ k < placements.length, index + k < drive.chip.blocks) :
    ∃ last, ((Placement.blocks (· != .bad) index placements).mapM fun index =>
      blockContent index drive.blockBuffer).run.run controller = .ok (.ok contents, last) := by
  -- A block that is bad is passed over, and a good one gives its piece back and stays as it is.
  induction h generalizing controller with
  | done => exact ⟨controller, rfl⟩
  | @bad index _ placements _ _ ih =>
    exact ih hsteady hreads hsizes (Block.inRange_tail hbound)
  | @good index piece _ placement placements hgood hunmarked hholds _ ih =>
    rw [List.forall_mem_cons] at hsizes
    have hindex : index < controller.drive.chip.blocks :=
      hreads.chip_eq.symm ▸ hbound 0 (Nat.succ_pos _)
    have hfollows := follows_blockContent hsteady (hreads.genuine hready.genuine) hindex
      (by rw [hreads.chip_eq, Drive.geometry, hreads.profile_eq]; exact drive.size_blockBuffer)
    rw [hreads.blockContent_eq, hholds.blockContent_eq hunmarked hsizes.1] at hfollows
    obtain ⟨_, mid, hrun, rfl, hmid, hreads'⟩ := hfollows.exists_of_ok
    obtain ⟨last, hrest⟩ := ih hmid (hreads.trans hreads') hsizes.2 (Block.inRange_tail hbound)
    refine ⟨last, ?_⟩
    rw [Placement.blocks, if_pos (by simpa using hgood), List.mapM_cons]
    exact run_attempt_step hrun (run_attempt_step hrest rfl)

/-- What a walk over the blocks leaves behind. -/
theorem Lays.lies {before after : Controller Device} {last : Flash} {todo rest : List Bytes}
    (hlays : Lays before.drive start before.drive.flash todo placements last rest)
    (hready : before.drive.Ready) (hmoves : before.Moves last after)
    (hsizes : ∀ piece ∈ todo, piece.size =
      before.drive.chip.pagesPerBlock * before.drive.geometry.pageBytes)
    (hbound : ∀ k < placements.length, start + k < before.drive.chip.blocks) :
    ∃ contents, todo = contents ++ rest ∧ Lies before after start (start + placements.length)
      (WriteSummary.empty.addAll start placements) contents := by
  have hlast := hlays.ready hready
  obtain ⟨contents, rfl, hsettled⟩ := hlays.exists_settled hready
  -- How many pieces there are, where they lie, which blocks are marked, and what is left as it was.
  refine ⟨contents, rfl, WriteSummary.tiles_addAll start placements, ?_, ?_, ?_, ?_⟩
  · rw [← hsettled.length_blocks, ← WriteSummary.holders_addAll, WriteSummary.holders,
      List.length_merge, Array.length_toList, Array.length_toList]
  · rw [WriteSummary.holders_addAll]
    exact hsettled.run_contents hlast hmoves.steady hmoves.reads
      (fun piece hpiece => hsizes piece (List.mem_append_left _ hpiece)) hbound
  · intro i hle hlt
    have hi : i < after.drive.chip.blocks := by
      rw [hmoves.reads.chip_eq]
      have := hbound (i - start) (by omega)
      show i < before.drive.chip.blocks
      omega
    have hgenuine := (hmoves.ready hready).genuine
    obtain ⟨asked, hrun, -, -⟩ := Controller.run_isBad hmoves.steady hgenuine hi
    refine ⟨asked, ?_⟩
    have hmem : i ∈ (WriteSummary.empty.addAll start placements).of .bad ↔
        placements[i - start]? = some .bad :=
      WriteSummary.mem_of_addAll.trans (and_iff_right hle)
    rw [hrun, hmoves.reads.isMarked_eq, hsettled.isMarked_eq hle hlt, decide_eq_decide.2 hmem.symm]
    rfl
  · intro page hpage
    have hflash : after.channel.bus.flash = last := hmoves.reads.flash_eq
    have hkept := hlays.content_eq hready.genuine.counted.pagesPerBlock_pos rfl
      fun hmem => hpage (WriteSummary.mem_of_addAll_iff.2 hmem)
    show after.channel.bus.flash.content page = _ ∨ _
    rw [hflash]
    exact hkept.imp_right fun hwritten =>
      ⟨WriteSummary.mem_of_addAll_iff.2 hwritten.1, hwritten.2⟩

/-- The pieces of an image that come first are the image as far as they go, if there are more. -/
theorem join_of_pieces_eq_append {blockBytes : Nat} (hpos : 0 < blockBytes) {image : Bytes}
    {contents rest : List Bytes} (h : pieces blockBytes image = contents ++ rest)
    (hrest : rest ≠ []) : Bytes.join contents = image.extract 0 (contents.length * blockBytes) := by
  have hsizes : ∀ piece ∈ contents, piece.size = blockBytes := fun piece hpiece =>
    size_of_mem_pieces (h ▸ List.mem_append_left rest hpiece)
  -- There is one more piece at least, so that those in front are full ones.
  have hlength : contents.length + 1 ≤ (image.size + blockBytes - 1) / blockBytes := by
    rw [← length_pieces, h, List.length_append]
    have := List.length_pos_iff.2 hrest
    omega
  have hle : contents.length * blockBytes ≤ image.size := by
    have := (Nat.le_div_iff_mul_le hpos).1 hlength
    rw [Nat.succ_mul] at this
    omega
  have hfront : ∀ a b : Bytes, contents.length * blockBytes ≤ a.size →
      (a ++ b).extract 0 (contents.length * blockBytes) =
        a.extract 0 (contents.length * blockBytes) := by
    intro a b hle
    simp [Array.extract_append, hle]
  calc Bytes.join contents
      = (Bytes.join contents ++ Bytes.join rest).extract 0 (contents.length * blockBytes) := by
        rw [← Bytes.size_join hsizes, Array.extract_append_left, Array.extract_size]
    _ = image.extract 0 (contents.length * blockBytes) := by
        rw [← Bytes.join_append, ← h, join_pieces hpos, hfront _ _ hle]

/-- A write returns, whatever the flash of the device holds and whichever blocks fail, and places
the image or as much of it as there is room for. -/
theorem write_places_image (h : controller.InUse) (hchip : controller.channel.bus.chip.Genuine)
    (hraw : controller.profile.geometry.pageBytes + controller.profile.geometry.spareSize ≤
      controller.channel.bus.chip.rawLen)
    (hhang : controller.channel.bus.engine.hang = false)
    (hpoll : controller.profile.poll.Allows 16) {source : Source} (hlasts : source.Lasts)
    (start : Nat) : ∃ outcome after source',
      (write start).run.run (controller, source) = .ok (outcome, (after, source')) ∧
      Places controller after start source.rest outcome := by
  have hready : controller.drive.Ready := ⟨h.steady.genuine hchip, hraw, hhang, hpoll⟩
  have hpos : 0 < controller.drive.chip.pagesPerBlock * controller.drive.geometry.pageBytes :=
    Nat.mul_pos hready.genuine.counted.pagesPerBlock_pos (Geometry.pageBytes_pos _)
  obtain ⟨placements, last, rest, after, source', hrun, hmoves, hlays, hlength, hend⟩ :=
    run_write h.steady hready hlasts start
  have hbound : ∀ k < placements.length, start + k < controller.drive.chip.blocks :=
    fun k hk => by omega
  obtain ⟨contents, hcontents, hlies⟩ :=
    hlays.lies hready hmoves (fun _ => size_of_mem_pieces) hbound
  have hcount : contents.length + rest.length =
      (source.rest.size + controller.drive.chip.pagesPerBlock *
        controller.drive.geometry.pageBytes - 1) / (controller.drive.chip.pagesPerBlock *
        controller.drive.geometry.pageBytes) := by
    rw [← length_pieces, hcontents, List.length_append]
  refine ⟨_, after, source', hrun, ?_⟩
  -- Either each piece has found a block, or the device has come to its end with pieces left.
  by_cases hnone : rest = []
  · rw [if_pos hnone]
    subst hnone
    have hjoin := join_pieces hpos source.rest
    rw [hcontents, List.append_nil] at hjoin
    refine ⟨start + placements.length, contents, ?_, hlies, hcount, hjoin⟩
    show start + placements.length ≤ max start controller.drive.chip.blocks
    omega
  · rw [if_neg hnone]
    have hpositive := List.length_pos_iff.2 hnone
    have hfull := hend.resolve_left hnone
    have hstop : start + placements.length = max start controller.drive.chip.blocks := by omega
    refine ⟨rfl, _, contents, hstop ▸ hlies, ?_, join_of_pieces_eq_append hpos hcontents hnone⟩
    exact Nat.lt_of_lt_of_eq (Nat.lt_add_of_pos_right hpositive) hcount

/-- Three bytes pass a marked block and one that fails, and go to the block behind them. -/
theorem write_places_image_worn_block : ∃ controller : Controller Device,
    controller.InUse ∧ controller.channel.bus.chip.Genuine ∧
    controller.profile.geometry.pageBytes + controller.profile.geometry.spareSize ≤
      controller.channel.bus.chip.rawLen ∧
    controller.channel.bus.engine.hang = false ∧ controller.profile.poll.Allows 16 ∧
    let source := Source.ofBytes #[0x4E, 0x46, 0x49]
    source.Lasts ∧ ∃ after source',
      (write 5).run.run (controller, source) = .ok (.ok ⟨#[7], #[], #[5, 6]⟩, (after, source')) ∧
      Places controller after 5 source.rest (.ok ⟨#[7], #[], #[5, 6]⟩) := by
  obtain ⟨controller, hinUse, hgenuine, hraw, hhang, hpoll, after, source', hwrite⟩ := exists_write
  have hlasts := Source.lasts_ofBytes #[0x4E, 0x46, 0x49]
  obtain ⟨outcome, last, rest, hrun, hplaces⟩ :=
    write_places_image hinUse hgenuine hraw hhang hpoll hlasts 5
  obtain ⟨rfl, hlast⟩ := Prod.mk.inj (Except.ok.inj (hwrite.symm.trans hrun))
  obtain ⟨rfl, rfl⟩ := Prod.mk.inj hlast
  exact ⟨controller, hinUse, hgenuine, hraw, hhang, hpoll, hlasts, after, source', hwrite, hplaces⟩

end Image

end NandFlash
