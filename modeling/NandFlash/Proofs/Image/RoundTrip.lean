import NandFlash.Proofs.Image.Written

/-!
# Dumps of whole blocks

A dump shows each block of a range as it is: filler for a bad block, and what can be read of any
other. What a write has placed comes back by a dump of the blocks of its summary, once the chunks of
the bad ones are left out.
-/

namespace NandFlash

open Sim

namespace Controller

/-- Data bytes of a block of the chip, as the driver works with it. -/
def blockBytes (controller : Controller Device) : Nat :=
  controller.channel.bus.chip.pagesPerBlock * controller.profile.geometry.pageBytes

/-- What a block shows: filler if it is marked bad, and else what can be read of it. -/
inductive Shows (controller : Controller Device) (index : Nat) : Bytes → Prop where
  | bad {next : Controller Device}
    (hmarked : (isBad index).run.run controller = .ok (.ok true, next)) :
    Shows controller index (Bytes.filled controller.blockBytes Image.badBlockFill)
  | good {next last : Controller Device} {content : Bytes}
    (hunmarked : (isBad index).run.run controller = .ok (.ok false, next))
    (hread : (Block.read ⟨index⟩ 0 (Bytes.filled controller.blockBytes 0)).run controller =
      .ok ((.ok (), content), last)) : Shows controller index content

/-- A good block that cannot be read. -/
def Unreadable (controller : Controller Device) (index : Nat) (failure : Failure) : Prop :=
  ∃ next last bytes, (isBad index).run.run controller = .ok (.ok false, next) ∧
    (Block.read ⟨index⟩ 0 (Bytes.filled controller.blockBytes 0)).run controller =
      .ok ((.error failure, bytes), last)

variable {controller : Controller Device} {index : Nat}

/-- What a dump holds for a block is what the block shows. -/
theorem ending_of_blockContent (h : controller.Steady) (hgenuine : controller.drive.Genuine)
    (hindex : index < controller.drive.chip.blocks) {outcome : Except Failure Bytes}
    (hcontent : controller.drive.blockContent index controller.drive.blockBuffer = .ok outcome) :
    Ending (controller.Shows index) (controller.Unreadable index) outcome := by
  obtain ⟨next, hmarked, -, -⟩ := run_isBad h hgenuine hindex
  -- What the drive says of a block decides how asking for it and reading it come out.
  unfold Drive.blockContent at hcontent
  split at hcontent
  · next hbad =>
    cases hcontent
    rw [hbad] at hmarked
    rw [Drive.size_blockBuffer]
    exact .bad hmarked
  · next hgood =>
    rw [Bool.not_eq_true] at hgood
    rw [hgood] at hmarked
    obtain ⟨⟨result, bytes⟩, hread, hresult⟩ := exists_of_map_eq_ok hcontent
    have hfollows := follows_read h hgenuine hindex controller.drive.size_blockBuffer
    rw [hread] at hfollows
    obtain ⟨_, last, hrun, rfl, -, -⟩ := hfollows.exists_of_ok
    cases result with
    | error failure =>
      cases hresult
      exact ⟨next, last, bytes, hmarked, hrun⟩
    | ok =>
      cases hresult
      exact .good hmarked hrun

end Controller

namespace Image

variable {drive : Drive} {controller : Controller Device} {index : Nat}

/-- How a dump of blocks `first` to `stop` ends. A range that the device does not have is refused
before anything is written. Otherwise the sink holds what the blocks show, chunk by chunk, up to the
first block that is unreadable or for which the sink has no room, and the checksum is that of all
chunks. -/
def Dumped (before : Controller Device) (first stop : Nat) (sink : Sink)
    (outcome : Except Failure UInt32) (after : Sink) : Prop :=
  if before.channel.bus.chip.blocks < stop then
    outcome = .error (.refused (.noSuchBlocks first stop)) ∧ after = sink
  else ∃ chunks : List Bytes, after = ⟨sink.written ++ Bytes.join chunks, sink.limit⟩ ∧
    (∀ i chunk, chunks[i]? = some chunk →
      chunk.size = before.blockBytes ∧ before.Shows (first + i) chunk) ∧
    Ending
      (fun checksum => chunks.length = stop - first ∧
        (Bytes.join chunks).size = (stop - first) * before.blockBytes ∧
        checksum = Checksum.ofBytes (Bytes.join chunks))
      (fun failure => chunks.length < stop - first ∧
        (before.Unreadable (first + chunks.length) failure ∨
          failure = .stream .broken ∧ ¬after.HasRoom before.blockBytes)) outcome

/-- A range that the device does not have is refused. -/
theorem run_dump_of_lt (hgenuine : controller.drive.Genuine) {first stop : Nat}
    (hstop : controller.drive.chip.blocks < stop) (sink : Sink) :
    (dump first stop).run.run (controller, sink) =
      .ok (.error (.refused (.noSuchBlocks first stop)), (controller, sink)) := by
  unfold dump
  refine run_attempt_step
    (run_perform (run_onFirst (Controller.run_blockLayout hgenuine.laid) sink)) ?_
  rw [if_neg (Nat.not_le_of_lt hstop)]
  rfl

/-- Any other range is dumped from its first block on. -/
theorem run_dump_of_le (h : controller.Steady) (hgenuine : controller.drive.Genuine)
    {first stop : Nat} (hstop : stop ≤ controller.drive.chip.blocks) (sink : Sink) :
    (∃ outcome next after chunks, (dump first stop).run.run (controller, sink) =
        .ok (outcome.map Checksum.finish, (next, after)) ∧
      next.Steady ∧ controller.drive.Reads next.drive ∧
      Dumps controller.drive first (stop - first) Checksum.start sink outcome chunks after) ∨
    ∃ defect, controller.drive.hang = true ∧
      controller.drive.profile.poll.exhaust .transferIn = .error defect ∧
      (dump first stop).run.run (controller, sink) = .error defect := by
  -- Past the check of the range, a dump is its loop and the end of the checksum.
  have hdump : (dump first stop).run.run (controller, sink) =
      (do return Checksum.finish (← dumpFrom (stop - first) first controller.drive.blockBuffer
        Checksum.start) : Attempt Failure (Controller Device × Sink) UInt32).run.run
          (controller, sink) := by
    unfold dump
    refine run_attempt_step
      (run_perform (run_onFirst (Controller.run_blockLayout hgenuine.laid) sink)) ?_
    rw [if_pos hstop]
    exact run_attempt_step (run_lift (Controller.blockBytes_eq hgenuine _ _)) rfl
  have hcount : ∀ k < stop - first, first + k < controller.drive.chip.blocks :=
    fun k hk => by omega
  rw [hdump]
  rcases run_dumpFrom hgenuine h (Drive.Reads.refl _) (.refl (Drive.size_blockBuffer _)) hcount with
    ⟨outcome, next, after, chunks, hrun, hnext, hreads, hdumps⟩ | ⟨defect, hhang, hpoll, hrun⟩
  · refine .inl ⟨outcome, next, after, chunks, ?_, hnext, hreads, hdumps⟩
    cases outcome with
    | ok register => exact run_attempt_step hrun rfl
    | error failure => exact run_attempt_bind_error hrun
  · exact .inr ⟨defect, hhang, hpoll, run_attempt_bind_crash hrun⟩

/-- A dump on a device as it may be. -/
theorem Dumps.dumped (h : controller.Steady) (hgenuine : controller.drive.Genuine)
    {first stop : Nat} (hstop : stop ≤ controller.drive.chip.blocks) {sink after : Sink}
    {outcome : Except Failure UInt32} {chunks : List Bytes}
    (hdumps : Dumps controller.drive first (stop - first) Checksum.start sink outcome chunks
      after) :
    Dumped controller first stop sink (outcome.map Checksum.finish) after := by
  -- Whole or cut short, there is not a chunk more than the range has blocks.
  have hlength : chunks.length ≤ stop - first := by
    cases outcome with
    | ok => exact Nat.le_of_eq hdumps.ending.1
    | error => exact Nat.le_of_lt hdumps.ending.1
  have hsizes : ∀ chunk ∈ chunks, chunk.size = controller.blockBytes := hdumps.size_of_mem hgenuine
  have hblocks : ¬controller.channel.bus.chip.blocks < stop := Nat.not_lt_of_le hstop
  rw [Dumped, if_neg hblocks]
  refine ⟨chunks, hdumps.after_eq,
    fun i chunk hchunk => ⟨hsizes _ (List.mem_of_getElem? hchunk), ?_⟩, ?_⟩
  · have hi : i < chunks.length := (List.getElem?_eq_some_iff.1 hchunk).1
    exact Controller.ending_of_blockContent h hgenuine (by omega) (hdumps.content_eq i chunk hchunk)
  · cases outcome with
    | ok register =>
      obtain ⟨hcount, hregister⟩ := hdumps.ending
      refine ⟨hcount, ?_, congrArg Checksum.finish hregister⟩
      rw [Bytes.size_join hsizes, hcount]
    | error failure =>
      obtain ⟨hcount, hfailure⟩ := hdumps.ending
      refine ⟨hcount, hfailure.imp_left fun hread => ?_⟩
      have hblock : first + chunks.length < controller.drive.chip.blocks := by omega
      have hending := Controller.ending_of_blockContent h hgenuine hblock hread
      exact hending

/-! ## Dumping what has been written -/

/-- The chunks of a dump from `start` on that are not those of bad blocks. -/
def goodChunks (summary : WriteSummary) (start : Nat) (chunks : List Bytes) : List Bytes :=
  ((chunks.zipIdx start).filter fun entry => entry.2 ∉ summary.bad).map Prod.fst

/-- Behind its first chunk, a dump is one that sets out from the next block. -/
theorem blockContent_tail {buffer chunk : Bytes} {chunks : List Bytes}
    (h : ∀ i other, (chunk :: chunks)[i]? = some other →
      drive.blockContent (index + i) buffer = .ok (.ok other)) :
    ∀ i other, chunks[i]? = some other →
      drive.blockContent (index + 1 + i) buffer = .ok (.ok other) :=
  fun i other hi => Nat.add_right_comm index i 1 ▸ h (i + 1) other hi

/-- The chunks of the good blocks are what these blocks hold, by induction on the blocks. -/
theorem Settled.good_chunks {contents chunks : List Bytes} {placements : List Placement}
    (h : Settled drive index contents placements)
    (hsizes : ∀ content ∈ contents,
      content.size = drive.chip.pagesPerBlock * drive.geometry.pageBytes)
    (hlength : chunks.length = placements.length)
    (hchunks : ∀ i chunk, chunks[i]? = some chunk →
      drive.blockContent (index + i) drive.blockBuffer = .ok (.ok chunk)) :
    ((chunks.zipIdx index).filter fun entry => !drive.isMarked entry.2).map Prod.fst =
      contents := by
  induction h generalizing chunks with
  | done =>
    rw [List.length_eq_zero_iff.1 hlength]
    rfl
  | @bad index _ _ hmarked _ ih =>
    obtain ⟨chunk, chunks, rfl⟩ := List.exists_cons_of_length_eq_add_one hlength
    -- The chunk of a bad block is left out, whatever it holds.
    rw [List.zipIdx_cons, List.filter_cons_of_neg (by simp [hmarked])]
    exact ih hsizes (Nat.succ.inj hlength) (blockContent_tail hchunks)
  | @good index piece _ _ _ _ hunmarked hholds _ ih =>
    obtain ⟨chunk, chunks, rfl⟩ := List.exists_cons_of_length_eq_add_one hlength
    rw [List.forall_mem_cons] at hsizes
    have hchunk : chunk = piece := Except.ok.inj (Except.ok.inj
      ((hchunks 0 chunk rfl).symm.trans (hholds.blockContent_eq hunmarked hsizes.1)))
    rw [List.zipIdx_cons, List.filter_cons_of_pos (by simp [hunmarked]), List.map_cons, hchunk,
      ih hsizes.2 (Nat.succ.inj hlength) (blockContent_tail hchunks)]

theorem Settled.goodChunks_eq {start : Nat} {contents chunks : List Bytes}
    {placements : List Placement} (h : Settled drive start contents placements)
    (hsizes : ∀ content ∈ contents,
      content.size = drive.chip.pagesPerBlock * drive.geometry.pageBytes)
    (hlength : chunks.length = placements.length)
    (hchunks : ∀ i chunk, chunks[i]? = some chunk →
      drive.blockContent (start + i) drive.blockBuffer = .ok (.ok chunk)) :
    goodChunks (WriteSummary.empty.addAll start placements) start chunks = contents := by
  rw [← h.good_chunks hsizes hlength hchunks, goodChunks]
  refine congrArg _ (List.filter_congr fun entry hentry => ?_)
  obtain ⟨hle, hlt, -⟩ := List.mem_zipIdx hentry
  have hmem : entry.2 ∈ (WriteSummary.empty.addAll start placements).of .bad ↔
      placements[entry.2 - start]? = some .bad :=
    WriteSummary.mem_of_addAll.trans (and_iff_right hle)
  rw [h.isMarked_eq hle (hlength ▸ hlt), ← decide_not, decide_eq_decide]
  exact not_congr hmem

/-- No block that has been settled is unreadable. -/
theorem Settled.exists_blockContent {contents : List Bytes} {placements : List Placement}
    (h : Settled drive index contents placements)
    (hsizes : ∀ content ∈ contents,
      content.size = drive.chip.pagesPerBlock * drive.geometry.pageBytes) {i : Nat}
    (hi : i < placements.length) :
    ∃ chunk, drive.blockContent (index + i) drive.blockBuffer = .ok (.ok chunk) := by
  induction h generalizing i with
  | done => exact absurd hi (Nat.not_lt_zero i)
  | @bad index _ _ hmarked _ ih =>
    cases i with
    | zero => exact ⟨_, if_pos hmarked⟩
    | succ i => exact Nat.add_right_comm index 1 i ▸ ih hsizes (Nat.lt_of_succ_lt_succ hi)
  | @good index _ _ _ _ _ hunmarked hholds _ ih =>
    rw [List.forall_mem_cons] at hsizes
    cases i with
    | zero => exact ⟨_, hholds.blockContent_eq hunmarked hsizes.1⟩
    | succ i => exact Nat.add_right_comm index 1 i ▸ ih hsizes.2 (Nat.lt_of_succ_lt_succ hi)

/-- A dump of settled blocks goes through, if the sink has room. -/
theorem Settled.exists_dump {start : Nat} {contents : List Bytes} {placements : List Placement}
    (h : Settled drive start contents placements) (hready : drive.Ready)
    (hsteady : controller.Steady) (hreads : drive.Reads controller.drive)
    (hsizes : ∀ content ∈ contents,
      content.size = drive.chip.pagesPerBlock * drive.geometry.pageBytes)
    (hbound : start + placements.length ≤ drive.chip.blocks) {sink : Sink}
    (hroom : sink.HasRoom (placements.length * controller.blockBytes)) :
    ∃ next chunks, (dump start (start + placements.length)).run.run (controller, sink) =
        .ok (.ok (Checksum.ofBytes (Bytes.join chunks)),
          (next, ⟨sink.written ++ Bytes.join chunks, sink.limit⟩)) ∧
      chunks.length = placements.length ∧ (∀ chunk ∈ chunks, chunk.size = controller.blockBytes) ∧
      ∀ i chunk, chunks[i]? = some chunk →
        drive.blockContent (start + i) drive.blockBuffer = .ok (.ok chunk) := by
  have hgenuine := hreads.genuine hready.genuine
  have hbuffer : controller.drive.blockBuffer = drive.blockBuffer := by
    rw [Drive.blockBuffer, Drive.blockBuffer, Drive.geometry, hreads.profile_eq, hreads.chip_eq]
    rfl
  have hstop : start + placements.length ≤ controller.drive.chip.blocks := by
    rw [hreads.chip_eq]
    exact hbound
  rcases run_dump_of_le hsteady hgenuine hstop sink with
    ⟨outcome, next, after, chunks, hrun, -, -, hdumps⟩ | ⟨defect, hhang, -, -⟩
  · rw [Nat.add_sub_cancel_left] at hdumps
    have hcontent := hdumps.content_eq
    have hending := hdumps.ending
    rw [hreads.blockContent_eq, hbuffer] at hcontent hending
    cases outcome with
    | ok register =>
      obtain ⟨hcount, rfl⟩ := hending
      rw [hdumps.after_eq] at hrun
      exact ⟨next, chunks, hrun, hcount, hdumps.size_of_mem hgenuine, hcontent⟩
    | error failure =>
      obtain ⟨hcount, hread | ⟨-, hfull⟩⟩ := hending
      -- No way to stop short is open: the blocks can be read, and the sink has room.
      · obtain ⟨chunk, hchunk⟩ := h.exists_blockContent hsizes hcount
        cases hread.symm.trans hchunk
      · exact absurd (hdumps.hasRoom hgenuine hroom hcount) hfull
  · rw [hreads.hang_eq, hready.hang_eq] at hhang
    cases hhang

/-- A dump of the blocks of a summary gives an image back: with the chunks of the bad blocks left
out it is the image, filled up with erased bytes. The dump goes through, unless there is nothing to
be dumped and the blocks begin behind the end of the device. -/
def GivesBack (after : Controller Device) (start : Nat) (summary : WriteSummary) (image : Bytes) :
    Prop :=
  let count := summary.written.size + summary.unchanged.size + summary.bad.size
  ∀ sink : Sink, sink.HasRoom (count * after.blockBytes) → ∃ outcome final chunks padding,
    (dump start (start + count)).run.run (after, sink) =
      .ok (outcome, (final, ⟨sink.written ++ Bytes.join chunks, sink.limit⟩)) ∧
    chunks.length = count ∧ (∀ chunk ∈ chunks, chunk.size = after.blockBytes) ∧
    Bytes.join (goodChunks summary start chunks) = image ++ Bytes.erased padding ∧
    padding < after.blockBytes ∧
    (outcome = .ok (Checksum.ofBytes (Bytes.join chunks)) ∨
      image = #[] ∧ after.channel.bus.chip.blocks < start)

/-- There is nothing to dump behind the end of the device, and nothing that would come back. -/
theorem gives_back_nothing (hgenuine : controller.drive.Genuine)
    (hpos : 0 < controller.blockBytes) {start : Nat}
    (hbehind : controller.drive.chip.blocks < start) : GivesBack controller start .empty #[] := by
  intro sink _
  have hrefused : (dump start start).run.run (controller, sink) =
      .ok (.error (.refused (.noSuchBlocks start start)), (controller, sink)) :=
    run_dump_of_lt hgenuine hbehind sink
  refine ⟨_, controller, [], 0, hrefused, rfl, fun chunk hchunk => ?_, rfl, hpos,
    .inr ⟨rfl, hbehind⟩⟩
  cases hchunk

theorem write_gives_back (h : controller.Steady) (hready : controller.drive.Ready) {source : Source}
    (hlasts : source.Lasts) {start : Nat} {summary : WriteSummary} {after : Controller Device}
    {source' : Source}
    (hwrite : (write start).run.run (controller, source) = .ok (.ok summary, (after, source'))) :
    GivesBack after start summary source.rest := by
  obtain ⟨placements, last, rfl, hmoves, hlays, hlength⟩ :=
    exists_lays_of_write h hready hlasts hwrite
  obtain ⟨contents, hcontents, hsettled⟩ := hlays.exists_settled hready
  have hlast := hlays.ready hready
  have hpos : 0 < controller.blockBytes :=
    Nat.mul_pos hready.genuine.counted.pagesPerBlock_pos (Geometry.pageBytes_pos _)
  have hbytes : after.blockBytes = controller.blockBytes := by
    have hchip : after.channel.bus.chip = controller.channel.bus.chip := hmoves.reads.chip_eq
    have hprofile : after.profile = controller.profile := hmoves.reads.profile_eq
    rw [Controller.blockBytes, Controller.blockBytes, hchip, hprofile]
  have hblocks : after.drive.chip.blocks = controller.drive.chip.blocks := by
    rw [hmoves.reads.chip_eq]
    rfl
  rw [List.append_nil] at hcontents
  have hsizes : ∀ content ∈ contents, content.size =
      controller.drive.chip.pagesPerBlock * controller.drive.geometry.pageBytes :=
    fun content hcontent => size_of_mem_pieces (hcontents ▸ hcontent)
  -- The contents that have been placed are the pieces of the image, which make up the image.
  have hjoin : Bytes.join contents =
      source.rest ++ Bytes.erased (contents.length * controller.blockBytes - source.rest.size) := by
    rw [← hcontents]
    exact join_pieces hpos source.rest
  by_cases hfits : start + placements.length ≤ controller.drive.chip.blocks
  · rw [GivesBack, WriteSummary.size_addAll, hbytes]
    intro sink hroom
    obtain ⟨final, chunks, hrun, hcount, hchunkSizes, hchunks⟩ :=
      hsettled.exists_dump hlast hmoves.steady hmoves.reads hsizes hfits (hbytes.symm ▸ hroom)
    refine ⟨_, final, chunks, _, hrun, hcount, hbytes ▸ hchunkSizes, ?_,
      padding_lt hpos source.rest, .inl rfl⟩
    rw [hsettled.goodChunks_eq hsizes hcount hchunks, hjoin, ← hcontents]
    rfl
  · -- Only a write of nothing can begin behind the end of the device.
    have hnone : placements = [] := List.eq_nil_of_length_eq_zero (by omega)
    subst hnone
    cases hsettled
    have hempty : source.rest = #[] := by
      rw [List.length_nil, Nat.zero_mul, Nat.zero_sub] at hjoin
      exact Array.append_empty.symm.trans hjoin.symm
    have hbehind : after.drive.chip.blocks < start := by
      rw [hblocks]
      exact Nat.lt_of_not_le hfits
    rw [hempty]
    exact gives_back_nothing (hmoves.ready hready).genuine (hbytes ▸ hpos) hbehind

/-- Waiting in vain ends by a crash only without a limit that the counter can reach. -/
theorem eq_arithmetic_of_exhaust {poll : Poll} {awaited : Awaited} {defect : Crash}
    (h : poll.exhaust awaited = .error defect) :
    defect = .arithmetic ∧ ∀ limit, ¬poll.Reaches limit := by
  unfold Poll.exhaust at h
  split at h
  · next limit hlimit =>
    split at h
    · cases h
    · next hnot =>
      refine ⟨(Except.error.inj h).symm, fun limit' hreaches => hnot ?_⟩
      cases hlimit.symm.trans hreaches.limit_eq
      exact hreaches.limit_lt
  · next hlimit =>
    refine ⟨(Except.error.inj h).symm, fun limit hreaches => ?_⟩
    cases hlimit.symm.trans hreaches.limit_eq

/-- A dump shows the blocks of its range as they are and leaves the flash alone; it can crash only
on a device that hangs, for want of a limit to wait. And it gives back what a write has placed. -/
theorem dump_shows_blocks (h : controller.InUse) (hchip : controller.channel.bus.chip.Genuine) :
    (∀ first stop sink,
      (∃ outcome next after, (dump first stop).run.run (controller, sink) =
          .ok (outcome, (next, after)) ∧
        next.channel.bus.flash = controller.channel.bus.flash ∧
        Dumped controller first stop sink outcome after) ∨
      controller.channel.bus.engine.hang = true ∧
        (∀ limit, ¬controller.profile.poll.Reaches limit) ∧
        (dump first stop).run.run (controller, sink) = .error .arithmetic) ∧
    (controller.profile.geometry.pageBytes + controller.profile.geometry.spareSize ≤
        controller.channel.bus.chip.rawLen →
      controller.channel.bus.engine.hang = false → controller.profile.poll.Allows 16 →
      ∀ source : Source, source.Lasts → ∀ start summary after source',
        (write start).run.run (controller, source) = .ok (.ok summary, (after, source')) →
        GivesBack after start summary source.rest) := by
  have hgenuine := h.steady.genuine hchip
  constructor
  · intro first stop sink
    by_cases hstop : controller.channel.bus.chip.blocks < stop
    · refine .inl ⟨_, controller, sink, run_dump_of_lt hgenuine hstop sink, rfl, ?_⟩
      rw [Dumped, if_pos hstop]
      exact ⟨rfl, rfl⟩
    · rcases run_dump_of_le h.steady hgenuine (Nat.le_of_not_lt hstop) sink with
        ⟨outcome, next, after, chunks, hrun, -, hreads, hdumps⟩ | ⟨defect, hhang, hpoll, hrun⟩
      · exact .inl ⟨_, next, after, hrun, hreads.flash_eq,
          hdumps.dumped h.steady hgenuine (Nat.le_of_not_lt hstop)⟩
      · obtain ⟨rfl, hnever⟩ := eq_arithmetic_of_exhaust hpoll
        exact .inr ⟨hhang, hnever, hrun⟩
  · intro hraw hhang hpoll source hlasts start summary after source' hwrite
    exact write_gives_back h.steady ⟨hgenuine, hraw, hhang, hpoll⟩ hlasts hwrite

/-- Blocks 4 to 7 of a chip are dumped, of which block 5 is marked and block 6 fails. Three bytes that
are written past these two come back. -/
theorem dump_shows_blocks_worn_block : ∃ controller : Controller Device,
    controller.InUse ∧ controller.channel.bus.chip.Genuine ∧
    (∃ outcome next after, (dump 4 8).run.run (controller, .unlimited 0) =
        .ok (outcome, (next, after)) ∧
      next.channel.bus.flash = controller.channel.bus.flash ∧
      Dumped controller 4 8 (.unlimited 0) outcome after) ∧
    controller.profile.geometry.pageBytes + controller.profile.geometry.spareSize ≤
      controller.channel.bus.chip.rawLen ∧
    controller.channel.bus.engine.hang = false ∧ controller.profile.poll.Allows 16 ∧
    let source := Source.ofBytes #[0x4E, 0x46, 0x49]
    source.Lasts ∧ ∃ after source',
      (write 5).run.run (controller, source) = .ok (.ok ⟨#[7], #[], #[5, 6]⟩, (after, source')) ∧
      GivesBack after 5 ⟨#[7], #[], #[5, 6]⟩ source.rest := by
  obtain ⟨controller, hinUse, hgenuine, hraw, hhang, hpoll, after, source', hwrite⟩ := exists_write
  obtain ⟨hdump, hback⟩ := dump_shows_blocks hinUse hgenuine
  have hlasts := Source.lasts_ofBytes #[0x4E, 0x46, 0x49]
  have hshown := (hdump 4 8 (.unlimited 0)).resolve_right fun hcrash =>
    Bool.false_ne_true (hhang.symm.trans hcrash.1)
  exact ⟨controller, hinUse, hgenuine, hshown, hraw, hhang, hpoll, hlasts, after, source', hwrite,
    hback hraw hhang hpoll _ hlasts 5 _ after source' hwrite⟩

end Image

end NandFlash
