import NandFlash.Proofs.Sim.BlockReads
import NandFlash.Proofs.Stream

/-!
# Dumping blocks

All blocks of a dump go through one buffer. Where the pages of a chip are shorter than the pages the
driver works with, a read does not reach the end of each page of the buffer. That part stays as it
was from the start: repairs do not touch it, and on such a chip no block is taken for a bad one. So
every block is dumped as it would be through a fresh buffer.
-/

namespace NandFlash

namespace Bytes

variable {pieces : List Bytes} {length i : Nat}

theorem size_join (h : ∀ piece ∈ pieces, piece.size = length) :
    (join pieces).size = pieces.length * length := by
  induction pieces with
  | nil => simp
  | cons piece pieces ih =>
    rw [List.forall_mem_cons] at h
    rw [join_cons, Array.size_append, h.1, ih h.2, List.length_cons, Nat.succ_mul, Nat.add_comm]

theorem join_append (pieces others : List Bytes) :
    join (pieces ++ others) = join pieces ++ join others := by
  induction pieces with
  | nil => rw [List.nil_append, join_nil, Array.empty_append]
  | cons piece pieces ih => rw [List.cons_append, join_cons, join_cons, ih, Array.append_assoc]

/-- A piece of some joined pieces. -/
theorem piece_join (h : ∀ piece ∈ pieces, piece.size = length) {piece : Bytes}
    (hi : pieces[i]? = some piece) : (join pieces).piece length i = piece := by
  induction pieces generalizing i with
  | nil => cases hi
  | cons first pieces ih =>
    rw [List.forall_mem_cons] at h
    cases i with
    | zero =>
      cases hi
      rw [join_cons, Bytes.piece, ← h.1]
      simp [Array.extract_append]
    | succ i =>
      have hle : first.size ≤ (i + 1) * length := by
        rw [h.1]
        exact Nat.le_mul_of_pos_left _ (Nat.succ_pos i)
      -- The first piece lies wholly in front of a later one.
      have hfront : first.extract ((i + 1) * length) ((i + 1 + 1) * length) = #[] := by
        apply Array.eq_empty_of_size_eq_zero
        rw [Array.size_extract]
        omega
      have hshift : ∀ k, (k + 1) * length - first.size = k * length := by
        intro k
        rw [h.1, Nat.succ_mul, Nat.add_sub_cancel]
      rw [← ih h.2 hi, join_cons, Bytes.piece, Bytes.piece, Array.extract_append, hfront,
        Array.empty_append, hshift, hshift]

/-- Cutting some joined pieces apart gives them back. -/
theorem pieces_join (h : ∀ piece ∈ pieces, piece.size = length) :
    (List.range pieces.length).map ((join pieces).piece length) = pieces := by
  apply List.ext_getElem
  · simp
  · intro i _ hi
    rw [List.getElem_map, List.getElem_range, piece_join h (List.getElem?_eq_getElem hi)]

end Bytes

/-- Repairs elsewhere leave a byte of the page buffer alone. -/
theorem Correction.getElem?_foldl_mend {corrections : List Correction} {i : Nat}
    (h : ∀ c ∈ corrections, c.location.place = .data → c.location.offset ≠ i)
    (page : Bytes × Bytes) : (corrections.foldl mend page).1[i]? = page.1[i]? := by
  induction corrections generalizing page with
  | nil => rfl
  | cons c corrections ih =>
    rw [List.forall_mem_cons] at h
    rw [List.foldl_cons, ih h.2, mend]
    cases hplace : c.location.place with
    | data => rw [Array.getElem?_modify, if_neg (h.1 hplace)]
    | window => rfl

namespace Sim

variable {g : Geometry} {content buffer other : Bytes}
  {reference? : Option Bytes}

/-! ## What a page does not reach -/

/-- Repairs in the page buffer are made where the page has been damaged. -/
theorem Engine.offset_lt_of_mem_damage {report : DamageReport}
    (hmem : report ∈ Engine.damage g content reference?) {c : Correction}
    (hc : c ∈ report.corrections g) (hplace : c.location.place = .data) :
    c.location.offset < content.size := by
  obtain ⟨error, herror, rfl⟩ := List.mem_map.1 hc
  unfold Engine.damage at hmem
  split at hmem
  · cases hmem
  · cases reference? with
    | none => cases hmem
    | some reference =>
      obtain ⟨index, hindex, hreport⟩ := List.mem_filterMap.1 hmem
      obtain ⟨hfield, herrors⟩ := Engine.eq_of_damageReport? hreport
      rw [herrors] at herror
      obtain ⟨⟨raw, address⟩, hbyte, rfl⟩ := List.mem_map.1 herror
      obtain ⟨hmem, hflip⟩ := List.mem_filter.1 hbyte
      obtain ⟨haddress, hlocate⟩ :=
        Engine.locate?_codewordBytes (List.mem_range.1 hindex) hmem
      have hword : (Engine.errorOf (Engine.flipAt content reference) (raw, address)).1.toNat =
          address := UInt16.toNat_ofNat_of_lt' (Nat.lt_trans haddress (by decide))
      simp only [DamageReport.locationOf, hfield, hword, hlocate, Option.getD_some,
        Geometry.locationOfRaw] at hplace ⊢
      split at hplace
      · rw [if_pos ‹_›]
        -- A byte that the page does not have cannot have flipped.
        by_contra hout
        simp only [Engine.flipAt, Array.getElem?_eq_none (Nat.le_of_not_lt hout), ne_eq,
          not_true_eq_false, false_and, decide_false, Bool.false_eq_true] at hflip
      · cases hplace

theorem Repairs.size_all (poll : Poll) (page turns : Nat) (reports : List DamageReport)
    (repairs : Repairs) :
    (Repairs.all poll g page turns reports repairs).2.data.size = repairs.data.size := by
  induction reports generalizing turns repairs with
  | nil => rfl
  | cons report reports ih =>
    have hcredit : (repairs.credit g report).data.size = repairs.data.size :=
      (Correction.size_foldl_mend _ _).1
    rw [Repairs.all]
    split_ifs
    · rfl
    · exact hcredit
    · rw [ih, hcredit]

theorem Repairs.getElem?_all {reports : List DamageReport} {i : Nat}
    (h : ∀ report ∈ reports, ∀ c ∈ report.corrections g,
      c.location.place = .data → c.location.offset ≠ i)
    (poll : Poll) (page turns : Nat) (repairs : Repairs) :
    (Repairs.all poll g page turns reports repairs).2.data[i]? = repairs.data[i]? := by
  induction reports generalizing turns repairs with
  | nil => rfl
  | cons report reports ih =>
    rw [List.forall_mem_cons] at h
    have hcredit : (repairs.credit g report).data[i]? = repairs.data[i]? :=
      Correction.getElem?_foldl_mend h.1 _
    rw [Repairs.all]
    split_ifs
    · rfl
    · exact hcredit
    · rw [ih h.2, hcredit]

theorem size_fetch (profile : Profile) (page : Nat) :
    (fetch profile page content reference? buffer).2.size = buffer.size := by
  show (Repairs.all ..).2.data.size = _
  rw [Repairs.size_all, Bytes.size_overlay]

/-- A read of a page leaves alone what the page does not reach. -/
theorem getElem?_fetch {profile : Profile} (page : Nat) {i : Nat} (hi : content.size ≤ i) :
    (fetch profile page content reference? buffer).2[i]? = buffer[i]? := by
  show (Repairs.all ..).2.data[i]? = _
  rw [Repairs.getElem?_all, Bytes.getElem?_overlay, if_neg]
  · rw [Array.size_extract]
    omega
  · intro report hreport c hc hplace
    have := Engine.offset_lt_of_mem_damage hreport hc hplace
    omega

/-- What a page reaches does not depend on the buffer. -/
theorem fetch_congr (profile : Profile) (page : Nat)
    (hbuffer : buffer.size = profile.geometry.pageBytes)
    (hother : other.size = profile.geometry.pageBytes)
    (h : ∀ i, content.size ≤ i → buffer[i]? = other[i]?) :
    fetch profile page content reference? buffer = fetch profile page content reference? other := by
  have hoverlay : buffer.overlay 0 (content.extract 0 profile.geometry.pageBytes) =
      other.overlay 0 (content.extract 0 profile.geometry.pageBytes) := by
    apply Array.ext_getElem?
    intro i
    rw [Bytes.getElem?_overlay, Bytes.getElem?_overlay, hbuffer, hother, Array.size_extract]
    by_cases hi : i < content.size ∧ i < profile.geometry.pageBytes
    · rw [if_pos (by omega), if_pos (by omega)]
    · rw [if_neg (by omega), if_neg (by omega)]
      by_cases hpage : i < profile.geometry.pageBytes
      · exact h i (by omega)
      · rw [Array.getElem?_eq_none (by omega), Array.getElem?_eq_none (by omega)]
  rw [fetch, hoverlay, fetch]

/-! ## Blocks through one buffer -/

namespace Drive

variable {drive : Drive} {index : Nat}

/-- What a dump holds for a block. -/
def blockContent (drive : Drive) (index : Nat) (buffer : Bytes) :
    Except Crash (Except Failure Bytes) :=
  if drive.isMarked index then
    .ok (.ok (Bytes.filled buffer.size Image.badBlockFill))
  else
    (drive.blockRead index buffer).map fun (outcome, content) => outcome.map fun _ => content

/-- A fresh buffer for a block. -/
def blockBuffer (drive : Drive) : Bytes :=
  Bytes.filled (drive.chip.pagesPerBlock * drive.geometry.pageBytes) 0

theorem size_blockBuffer (drive : Drive) :
    drive.blockBuffer.size = drive.chip.pagesPerBlock * drive.geometry.pageBytes :=
  Bytes.size_filled _ _

/-- Two buffers for a block that agree on all bytes that no page reaches. -/
structure SameTails (drive : Drive) (buffer other : Bytes) : Prop where
  size_eq : buffer.size = drive.chip.pagesPerBlock * drive.geometry.pageBytes
  other_size_eq : other.size = drive.chip.pagesPerBlock * drive.geometry.pageBytes
  tail_eq : ∀ i < drive.chip.pagesPerBlock, ∀ k, drive.chip.rawLen ≤ k →
    (buffer.piece drive.geometry.pageBytes i)[k]? = (other.piece drive.geometry.pageBytes i)[k]?

theorem SameTails.refl (h : buffer.size = drive.chip.pagesPerBlock * drive.geometry.pageBytes) :
    drive.SameTails buffer buffer :=
  ⟨h, h, fun _ _ _ _ => rfl⟩

theorem pagesRead_congr {pages : List (Nat × Nat)}
    (h : ∀ entry ∈ pages, drive.pageRead entry.1 (buffer.piece drive.geometry.pageBytes entry.2) =
      drive.pageRead entry.1 (other.piece drive.geometry.pageBytes entry.2)) :
    drive.pagesRead buffer pages = drive.pagesRead other pages := by
  induction pages with
  | nil => rfl
  | cons entry pages ih =>
    rw [List.forall_mem_cons] at h
    simp only [pagesRead, h.1, ih h.2]

/-- Pages that have all been read have been read one by one. -/
theorem forall₂_of_pagesRead {pages : List (Nat × Nat)} {pieces : List Bytes}
    (h : drive.pagesRead buffer pages = .ok (.ok (), pieces)) :
    List.Forall₂ (fun entry data => drive.pageRead entry.1
      (buffer.piece drive.geometry.pageBytes entry.2) = .ok (.ok (), data)) pages pieces := by
  induction pages generalizing pieces with
  | nil =>
    cases h
    exact .nil
  | cons entry pages ih =>
    obtain ⟨⟨outcome, data⟩, hpage, h⟩ := exists_of_bind_eq_ok h
    cases outcome with
    | error e => cases h
    | ok =>
      obtain ⟨⟨outcome, rest⟩, hrest, h⟩ := exists_of_bind_eq_ok h
      cases h
      exact .cons hpage (ih hrest)

/-- Only a page of a drive that does not hang is read. -/
theorem eq_fetch_of_pageRead {page : Nat} {data : Bytes}
    (h : drive.pageRead page buffer = .ok (.ok (), data)) :
    data = (fetch drive.profile page (drive.flash.content page) (drive.flash.reference page)
      buffer).2 := by
  unfold pageRead at h
  split at h
  · obtain ⟨e, -, h⟩ := exists_of_map_eq_ok h
    cases h
  · exact (congrArg Prod.snd (Except.ok.inj h)).symm

/-- The pages of a block, if all of them have been read. -/
structure Reading (drive : Drive) (buffer : Bytes) (pieces : List Bytes) : Prop where
  length_eq : pieces.length = drive.chip.pagesPerBlock
  size_eq : ∀ piece ∈ pieces, piece.size = drive.geometry.pageBytes
  fetched : ∀ i < drive.chip.pagesPerBlock, ∃ page piece, pieces[i]? = some piece ∧
    piece = (fetch drive.profile page (drive.flash.content page) (drive.flash.reference page)
      (buffer.piece drive.geometry.pageBytes i)).2

theorem reading_of_pagesRead {pieces : List Bytes}
    (hbuffer : buffer.size = drive.chip.pagesPerBlock * drive.geometry.pageBytes)
    (hread : drive.pagesRead buffer (drive.pagesOf index) = .ok (.ok (), pieces)) :
    drive.Reading buffer pieces := by
  obtain ⟨hlength, hget⟩ := List.forall₂_iff_get.1 (forall₂_of_pagesRead hread)
  rw [pagesOf, List.length_zipIdx, List.length_range'] at hlength
  have hpages : ∀ i < drive.chip.pagesPerBlock, ∃ page piece, pieces[i]? = some piece ∧
      piece = (fetch drive.profile page (drive.flash.content page) (drive.flash.reference page)
        (buffer.piece drive.geometry.pageBytes i)).2 := by
    intro i hi
    have hpage := hget i (by rw [pagesOf, List.length_zipIdx, List.length_range']; exact hi)
      (hlength ▸ hi)
    simp only [pagesOf, List.get_eq_getElem, List.getElem_zipIdx, Nat.zero_add] at hpage
    exact ⟨_, _, List.getElem?_eq_getElem (hlength ▸ hi), eq_fetch_of_pageRead hpage⟩
  refine ⟨hlength.symm, fun piece hpiece => ?_, hpages⟩
  obtain ⟨i, hi, rfl⟩ := List.mem_iff_getElem.1 hpiece
  obtain ⟨page, piece, hsome, hfetch⟩ := hpages i (hlength ▸ hi)
  rw [List.getElem?_eq_getElem hi] at hsome
  cases hsome
  rw [hfetch, size_fetch]
  exact Controller.size_piece hbuffer (hlength ▸ hi)

/-- A block that has been read fills the buffer. -/
theorem Reading.extract_eq {pieces : List Bytes} (h : drive.Reading buffer pieces)
    (hbuffer : buffer.size = drive.chip.pagesPerBlock * drive.geometry.pageBytes) :
    buffer.extract (Bytes.join pieces).size = #[] := by
  apply Array.eq_empty_of_size_eq_zero
  rw [Array.size_extract, Bytes.size_join h.size_eq, h.length_eq, hbuffer]
  omega

/-- What is read of a block is a block, and what no page reaches stays. -/
theorem Genuine.sameTails_of_blockRead (h : drive.Genuine)
    (hbuffer : buffer.size = drive.chip.pagesPerBlock * drive.geometry.pageBytes)
    (hread : drive.blockRead index buffer = .ok (.ok (), content)) :
    drive.SameTails content buffer := by
  obtain ⟨⟨outcome, pieces⟩, hpages, hcontent⟩ := exists_of_bind_eq_ok hread
  obtain ⟨rfl, rfl⟩ := Prod.mk.inj (Except.ok.inj hcontent)
  have hreading := reading_of_pagesRead hbuffer hpages
  rw [hreading.extract_eq hbuffer, Array.append_empty]
  refine ⟨by rw [Bytes.size_join hreading.size_eq, hreading.length_eq], hbuffer,
    fun i hi k hk => ?_⟩
  obtain ⟨page, piece, hsome, hfetch⟩ := hreading.fetched i hi
  rw [Bytes.piece_join hreading.size_eq hsome, hfetch]
  exact getElem?_fetch page (by rw [h.isWhole]; exact hk)

/-- Blocks of a chip with short pages are not taken for bad ones. -/
theorem Genuine.lt_rawLen_of_isMarked (h : drive.Genuine) (hmarked : drive.isMarked index = true) :
    drive.geometry.pageBytes < drive.chip.rawLen := by
  by_contra hshort
  rw [isMarked, Array.getD_eq_getD_getElem?,
    Array.getElem?_eq_none (by rw [h.isWhole]; omega)] at hmarked
  exact Bool.false_ne_true hmarked

/-- What a dump holds for a block is a block, and what no page reaches is as it is in the buffer. -/
theorem Genuine.sameTails_of_blockContent (h : drive.Genuine)
    (hbuffer : buffer.size = drive.chip.pagesPerBlock * drive.geometry.pageBytes)
    (hcontent : drive.blockContent index buffer = .ok (.ok content)) :
    drive.SameTails content buffer := by
  unfold blockContent at hcontent
  split at hcontent
  · next hmarked =>
    cases hcontent
    refine ⟨(Bytes.size_filled _ _).trans hbuffer, hbuffer, fun i hi k hk => ?_⟩
    have hlong := h.lt_rawLen_of_isMarked hmarked
    rw [Array.getElem?_eq_none, Array.getElem?_eq_none]
    · rw [Controller.size_piece hbuffer hi]
      omega
    · rw [Controller.size_piece ((Bytes.size_filled _ _).trans hbuffer) hi]
      omega
  · obtain ⟨⟨outcome, bytes⟩, hread, hcontent⟩ := exists_of_map_eq_ok hcontent
    cases outcome with
    | error e => cases hcontent
    | ok =>
      cases hcontent
      exact h.sameTails_of_blockRead hbuffer hread

/-- A drive that hangs gives up on the first page of a block. -/
theorem Genuine.blockRead_of_hang (h : drive.Genuine) (hhang : drive.hang = true) (index : Nat)
    (buffer : Bytes) :
    ((drive.blockRead index buffer).map fun (outcome, content) => outcome.map fun _ => content) =
      (drive.profile.poll.exhaust .transferIn).map fun e =>
        .error (.reading (index * drive.chip.pagesPerBlock) e) := by
  obtain ⟨count, hcount⟩ := Nat.exists_eq_succ_of_ne_zero (Nat.ne_of_gt h.counted.pagesPerBlock_pos)
  have hpages : drive.pagesOf index = (index * drive.chip.pagesPerBlock, 0) ::
      (List.range' (index * drive.chip.pagesPerBlock + 1) count).zipIdx 1 := by
    rw [pagesOf]
    conv_lhs => rw [hcount, List.range'_succ, List.zipIdx_cons]
    rw [← hcount]
  rw [blockRead, hpages, pagesRead, pageRead, hhang, if_pos rfl]
  cases drive.profile.poll.exhaust .transferIn <;> rfl

/-- Each block is dumped as through any other buffer that agrees on what no page reaches. -/
theorem Genuine.blockContent_congr (h : drive.Genuine) (htails : drive.SameTails buffer other)
    (index : Nat) : drive.blockContent index buffer = drive.blockContent index other := by
  unfold blockContent
  split
  · rw [htails.size_eq, htails.other_size_eq]
  · cases hhang : drive.hang with
    | true => rw [h.blockRead_of_hang hhang, h.blockRead_of_hang hhang]
    | false =>
      -- A page overwrites what it reaches of its piece, and the rest is the same in both buffers.
      have hpages : drive.pagesRead buffer (drive.pagesOf index) =
          drive.pagesRead other (drive.pagesOf index) := by
        refine pagesRead_congr fun entry hentry => ?_
        obtain ⟨hi, -⟩ := Controller.mem_pagesOf.1 hentry
        rw [pageRead, pageRead, hhang, if_neg Bool.false_ne_true, if_neg Bool.false_ne_true]
        refine congrArg Except.ok (fetch_congr drive.profile entry.1
          (Controller.size_piece htails.size_eq hi) (Controller.size_piece htails.other_size_eq hi)
          fun k hk => htails.tail_eq entry.2 hi k (h.isWhole entry.1 ▸ hk))
      rw [blockRead, blockRead, hpages]
      cases hread : drive.pagesRead other (drive.pagesOf index) with
      | error defect => rfl
      | ok result =>
        obtain ⟨outcome | _, pieces⟩ := result
        · rfl
        · have hfull := (reading_of_pagesRead htails.size_eq (hpages.trans hread)).extract_eq
            htails.size_eq
          have hfull' := (reading_of_pagesRead htails.other_size_eq hread).extract_eq
            htails.other_size_eq
          show Except.ok (Except.ok (_ ++ buffer.extract _)) =
            Except.ok (Except.ok (_ ++ other.extract _))
          rw [hfull, hfull']

/-- Only a drive that hangs can end a dump by a crash. -/
theorem Genuine.exists_blockContent (h : drive.Genuine) (index : Nat) (buffer : Bytes) :
    (∃ r, drive.blockContent index buffer = .ok r) ∨ ∃ defect, drive.hang = true ∧
      drive.profile.poll.exhaust .transferIn = .error defect ∧
      drive.blockContent index buffer = .error defect := by
  unfold blockContent
  split
  · exact .inl ⟨_, rfl⟩
  · cases hhang : drive.hang with
    | false =>
      obtain ⟨outcome, bytes, hread⟩ := exists_blockRead hhang index buffer
      exact .inl ⟨_, congrArg (Except.map _) hread⟩
    | true =>
      rw [h.blockRead_of_hang hhang]
      cases hpoll : drive.profile.poll.exhaust .transferIn with
      | error defect => exact .inr ⟨defect, rfl, rfl, rfl⟩
      | ok e => exact .inl ⟨_, rfl⟩

theorem Reads.blockContent_eq {next : Drive} (h : drive.Reads next) :
    next.blockContent = drive.blockContent := by
  funext index buffer
  simp only [blockContent, h.isMarked_eq, h.blockRead_eq]

end Drive

end Sim

namespace Image

open Sim

variable {controller : Controller Device} {drive : Drive} {index : Nat} {buffer : Bytes}

/-- What a dump holds for a block is what its drive says. -/
theorem follows_blockContent (h : controller.Steady) (hgenuine : controller.drive.Genuine)
    (hindex : index < controller.drive.chip.blocks) (hbuffer : buffer.size =
      controller.drive.chip.pagesPerBlock * controller.drive.geometry.pageBytes) :
    Follows (controller.drive.blockContent index buffer)
      (fun result r next => r = result ∧ next.Steady ∧ controller.drive.Reads next.drive)
      ((blockContent index buffer).run.run controller) := by
  obtain ⟨asked, hask, hsteady, hreads⟩ := Controller.run_block? h hgenuine hindex
  unfold Drive.blockContent blockContent
  refine Follows.attempt_step hask ?_
  cases hmarked : controller.drive.isMarked index with
  | true => exact Follows.of_ok rfl ⟨rfl, hsteady, hreads⟩
  | false =>
    have hread := Controller.follows_read hsteady (hreads.genuine hgenuine)
      (hreads.chip_eq.symm ▸ hindex)
      (by rw [hreads.chip_eq, Drive.geometry, hreads.profile_eq]; exact hbuffer)
    rw [hreads.blockRead_eq] at hread
    refine Follows.attempt_bind hread.perform ?_
    rintro ⟨outcome, content⟩ _ next ⟨rfl, hnext, hreads'⟩
    cases outcome <;> exact Follows.of_ok rfl ⟨rfl, hnext, hreads.trans hreads'⟩

end Image

/-! ## Dumps -/

namespace Image

open Sim

variable {controller : Controller Device} {drive : Drive} {index count : Nat} {buffer : Bytes}

/-- What a dump of `count` blocks from `index` on comes to: the chunks that have been written, one
for each block up to the first that is unreadable or does not fit into the sink. -/
structure Dumps (drive : Drive) (index count : Nat) (register : UInt32) (sink : Sink)
    (outcome : Except Failure UInt32) (chunks : List Bytes) (after : Sink) : Prop where
  after_eq : after = ⟨sink.written ++ Bytes.join chunks, sink.limit⟩
  content_eq : ∀ i chunk, chunks[i]? = some chunk →
    drive.blockContent (index + i) drive.blockBuffer = .ok (.ok chunk)
  ending : Ending
    (fun register' => chunks.length = count ∧
      register' = Checksum.update register (Bytes.join chunks))
    (fun failure => chunks.length < count ∧
      (drive.blockContent (index + chunks.length) drive.blockBuffer = .ok (.error failure) ∨
        failure = .stream .broken ∧
          ¬after.HasRoom (drive.chip.pagesPerBlock * drive.geometry.pageBytes))) outcome

theorem Dumps.done (register : UInt32) (sink : Sink) :
    Dumps drive index 0 register sink (.ok register) [] sink := by
  refine ⟨?_, fun i chunk hchunk => ?_, rfl, ?_⟩
  · rw [Bytes.join_nil, Array.append_empty]
  · cases hchunk
  · rw [Bytes.join_nil]
    rfl

/-- A dump that its first block ends has written nothing. -/
theorem Dumps.stopped {register : UInt32} {sink : Sink} {failure : Failure}
    (h : drive.blockContent index drive.blockBuffer = .ok (.error failure) ∨
      failure = .stream .broken ∧
        ¬sink.HasRoom (drive.chip.pagesPerBlock * drive.geometry.pageBytes)) :
    Dumps drive index (count + 1) register sink (.error failure) [] sink := by
  refine ⟨?_, fun i chunk hchunk => ?_, Nat.succ_pos count, h⟩
  · rw [Bytes.join_nil, Array.append_empty]
  · cases hchunk

/-- One more chunk before the others. -/
theorem Dumps.cons {register : UInt32} {sink after : Sink} {outcome : Except Failure UInt32}
    {chunk : Bytes} {chunks : List Bytes}
    (hchunk : drive.blockContent index drive.blockBuffer = .ok (.ok chunk))
    (h : Dumps drive (index + 1) count (Checksum.update register chunk)
      ⟨sink.written ++ chunk, sink.limit⟩ outcome chunks after) :
    Dumps drive index (count + 1) register sink outcome (chunk :: chunks) after := by
  obtain ⟨hafter, hcontent, hending⟩ := h
  refine ⟨?_, fun i piece hpiece => ?_, ?_⟩
  · rw [hafter, Bytes.join_cons, Array.append_assoc]
  · cases i with
    | zero =>
      cases hpiece
      exact hchunk
    | succ i =>
      rw [← Nat.add_assoc, Nat.add_right_comm]
      exact hcontent i piece hpiece
  · cases outcome with
    | ok register' =>
      refine ⟨congrArg Nat.succ hending.1, ?_⟩
      rw [hending.2, Bytes.join_cons, Checksum.update_append]
    | error failure =>
      refine ⟨Nat.succ_lt_succ hending.1, hending.2.imp_left fun hread => ?_⟩
      rw [List.length_cons, ← Nat.add_assoc, Nat.add_right_comm]
      exact hread

/-- Each chunk is as long as a block. -/
theorem Dumps.size_of_mem (hgenuine : drive.Genuine) {register : UInt32} {sink after : Sink}
    {outcome : Except Failure UInt32} {chunks : List Bytes}
    (h : Dumps drive index count register sink outcome chunks after) :
    ∀ chunk ∈ chunks, chunk.size = drive.chip.pagesPerBlock * drive.geometry.pageBytes := by
  intro chunk hchunk
  obtain ⟨i, hi⟩ := List.mem_iff_getElem?.1 hchunk
  exact (hgenuine.sameTails_of_blockContent drive.size_blockBuffer (h.content_eq i chunk hi)).size_eq

/-- Where all blocks fit into the sink, there is room for one more as long as not all have been
written. -/
theorem Dumps.hasRoom (hgenuine : drive.Genuine) {register : UInt32} {sink after : Sink}
    {outcome : Except Failure UInt32} {chunks : List Bytes}
    (h : Dumps drive index count register sink outcome chunks after)
    (hroom : sink.HasRoom (count * (drive.chip.pagesPerBlock * drive.geometry.pageBytes)))
    (hcount : chunks.length < count) :
    after.HasRoom (drive.chip.pagesPerBlock * drive.geometry.pageBytes) := by
  intro limit hlimit
  rw [h.after_eq] at hlimit ⊢
  have hall := hroom limit hlimit
  have hnext : (chunks.length + 1) * (drive.chip.pagesPerBlock * drive.geometry.pageBytes) ≤
      count * (drive.chip.pagesPerBlock * drive.geometry.pageBytes) := Nat.mul_le_mul_right _ hcount
  rw [Nat.succ_mul] at hnext
  rw [Array.size_append, Bytes.size_join (h.size_of_mem hgenuine)]
  omega

/-- Blocks are dumped one after the other, by induction on those that are left. What no page reaches
is as in a fresh buffer throughout. -/
theorem run_dumpFrom (hgenuine : drive.Genuine) {register : UInt32} {sink : Sink}
    (h : controller.Steady) (hreads : drive.Reads controller.drive)
    (htails : drive.SameTails buffer drive.blockBuffer)
    (hcount : ∀ k < count, index + k < drive.chip.blocks) :
    (∃ outcome next after chunks, (dumpFrom count index buffer register).run.run
        (controller, sink) = .ok (outcome, (next, after)) ∧
      next.Steady ∧ drive.Reads next.drive ∧
      Dumps drive index count register sink outcome chunks after) ∨
    ∃ defect, drive.hang = true ∧ drive.profile.poll.exhaust .transferIn = .error defect ∧
      (dumpFrom count index buffer register).run.run (controller, sink) = .error defect := by
  induction count generalizing index buffer register sink controller with
  | zero =>
    exact .inl ⟨.ok register, controller, sink, [], rfl, h, hreads, .done register sink⟩
  | succ count ih =>
    rw [dumpFrom]
    have hindex : index < controller.drive.chip.blocks :=
      hreads.chip_eq.symm ▸ hcount 0 (Nat.succ_pos count)
    have hfollows := follows_blockContent h (hreads.genuine hgenuine) hindex
      (by rw [hreads.chip_eq, Drive.geometry, hreads.profile_eq]; exact htails.size_eq)
    -- The buffer of the block before serves as a fresh one does: their tails are the same.
    rw [hreads.blockContent_eq, hgenuine.blockContent_congr htails] at hfollows
    rcases hgenuine.exists_blockContent index drive.blockBuffer with
      ⟨result, hcontent⟩ | ⟨defect, hhang, hpoll, hcontent⟩
    · rw [hcontent] at hfollows
      obtain ⟨outcome, mid, hrun, rfl, hmid, hreads'⟩ := hfollows.exists_of_ok
      have hreads' := hreads.trans hreads'
      have hread := run_tryOnFirst hrun sink
      cases outcome with
      | error failure =>
        exact .inl ⟨.error failure, mid, sink, [], run_attempt_bind_error hread, hmid, hreads',
          .stopped (.inl hcontent)⟩
      | ok content =>
        have htails' := hgenuine.sameTails_of_blockContent drive.size_blockBuffer hcontent
        -- A chunk goes out as a whole, or the dump ends with what has gone out before.
        by_cases hroom : sink.HasRoom content.size
        · have hwrite := run_onStream (Sink.write_of_hasRoom hroom) mid
          rcases ih hmid hreads' htails' (Block.inRange_tail hcount) with
            ⟨outcome, next, after, chunks, hrest, hnext, hreads'', hdumps⟩ |
            ⟨defect, hhang, hpoll, hrest⟩
          · exact .inl ⟨outcome, next, after, content :: chunks,
              run_attempt_step hread (run_attempt_step hwrite hrest), hnext, hreads'',
              hdumps.cons hcontent⟩
          · exact .inr ⟨defect, hhang, hpoll,
              run_attempt_step hread (run_attempt_step hwrite hrest)⟩
        · have hwrite := run_onStream (Sink.write_of_not_hasRoom hroom) mid
          exact .inl ⟨.error (.stream .broken), mid, sink, [],
            run_attempt_step hread (run_attempt_bind_error hwrite), hmid, hreads',
            .stopped (.inr ⟨rfl, htails'.size_eq ▸ hroom⟩)⟩
    · rw [hcontent] at hfollows
      exact .inr ⟨defect, hhang, hpoll,
        run_attempt_bind_crash (run_tryOnFirst_crash hfollows.run_eq_error sink)⟩

end Image

end NandFlash
