import NandFlash.Image
import NandFlash.Proofs.AnyBus.PageRanges
import NandFlash.Proofs.Sim.Effect
import NandFlash.Proofs.Sim.Mending

/-!
# Reading blocks of the simulated device

What a read of a page or of a block comes to is a computation on the drive: it depends on the flash
of the page or block, and on the buffer only as far as the page does not fill it. A read changes
nothing but the statistics.
-/

namespace NandFlash

/-- A walk over blocks that are in range stays in range when it moves on. -/
theorem Block.inRange_tail {count index limit : Nat} (h : ∀ k < count + 1, index + k < limit) :
    ∀ k < count, index + 1 + k < limit := by
  intro k hk
  have hnext := h (k + 1) (Nat.succ_lt_succ hk)
  omega

namespace Correction

/-- What a repair makes of the page buffer does not depend on the spare area. -/
theorem mend_fst_congr {page other : Bytes × Bytes} (h : page.1 = other.1) (c : Correction) :
    (c.mend page).1 = (c.mend other).1 := by
  unfold mend
  split
  · exact congrArg (fun data : Bytes => data.modify c.location.offset (· ^^^ c.value)) h
  · exact h

theorem foldl_mend_fst_congr {page other : Bytes × Bytes} (h : page.1 = other.1)
    (corrections : List Correction) :
    (corrections.foldl mend page).1 = (corrections.foldl mend other).1 := by
  induction corrections generalizing page other with
  | nil => exact h
  | cons c corrections ih => exact ih (mend_fst_congr h c)

end Correction

namespace Sim

/-! ## Pages -/

namespace Repairs

/-- Nor does how a read ends, and what it leaves in the page buffer. -/
theorem all_congr (poll : Poll) (g : Geometry) (page : Nat) {repairs other : Repairs}
    (h : repairs.data = other.data) (turns : Nat) (reports : List DamageReport) :
    (all poll g page turns reports repairs).1 = (all poll g page turns reports other).1 ∧
      (all poll g page turns reports repairs).2.data =
        (all poll g page turns reports other).2.data := by
  induction reports generalizing turns repairs other with
  | nil => exact ⟨rfl, h⟩
  | cons report rest ih =>
    have hcredit : (repairs.credit g report).data = (other.credit g report).data :=
      Correction.foldl_mend_fst_congr h _
    simp only [all]
    split_ifs
    · exact ⟨rfl, h⟩
    · exact ⟨rfl, hcredit⟩
    · exact ih hcredit _

end Repairs

/-- How a read of a page ends, and what it leaves in the page buffer. -/
def fetch (profile : Profile) (page : Nat) (content : Bytes) (reference? : Option Bytes)
    (buffer : Bytes) : Except Error Unit × Bytes :=
  let (outcome, repairs) := Repairs.all profile.poll profile.geometry page 0
    (Engine.damage profile.geometry content reference?)
    ⟨buffer.overlay 0 (content.extract 0 profile.geometry.pageBytes), #[], ⟨0, 0⟩, []⟩
  (outcome, repairs.data)

namespace Drive

variable {drive next : Drive}

/-- Two drives that differ in their statistics at most. -/
structure Reads (drive next : Drive) : Prop where
  profile_eq : next.profile = drive.profile
  chip_eq : next.chip = drive.chip
  flash_eq : next.flash = drive.flash
  hang_eq : next.hang = drive.hang

theorem Reads.refl (drive : Drive) : drive.Reads drive := ⟨rfl, rfl, rfl, rfl⟩

theorem Reads.trans {last : Drive} (h : drive.Reads next) (h' : next.Reads last) :
    drive.Reads last :=
  ⟨h'.profile_eq.trans h.profile_eq, h'.chip_eq.trans h.chip_eq, h'.flash_eq.trans h.flash_eq,
    h'.hang_eq.trans h.hang_eq⟩

theorem Reads.symm (h : drive.Reads next) : next.Reads drive :=
  ⟨h.profile_eq.symm, h.chip_eq.symm, h.flash_eq.symm, h.hang_eq.symm⟩

theorem Reads.keeps (h : drive.Reads next) : drive.Keeps next := by
  refine ⟨h.chip_eq, h.profile_eq, fun hwhole => ?_⟩
  rw [h.chip_eq, h.flash_eq]
  exact hwhole

theorem Reads.genuine (h : drive.Reads next) (hgenuine : drive.Genuine) : next.Genuine := by
  refine ⟨?_, ?_, ?_⟩
  · rw [h.chip_eq, h.profile_eq]
    exact hgenuine.counted
  · rw [geometry, h.profile_eq]
    exact hgenuine.fits
  · rw [h.chip_eq, h.flash_eq]
    exact hgenuine.isWhole

/-- Only the statistics tell them apart. -/
theorem Reads.eq_with (h : drive.Reads next) : next = { drive with stats := next.stats } := by
  obtain ⟨hprofile, hchip, hflash, hhang⟩ := h
  cases drive
  cases next
  subst hprofile hchip hflash hhang
  rfl

theorem Genuine.laid (h : drive.Genuine) :
    drive.profile.Laid drive.chip.blocks drive.chip.pagesPerBlock :=
  ⟨h.counted.blocks_eq, h.counted.pagesPerBlock_eq, h.counted.pageCount_lt⟩

/-- A read of a page. -/
def pageRead (drive : Drive) (page : Nat) (buffer : Bytes) :
    Except Crash (Except Error Unit × Bytes) :=
  if drive.hang then
    (drive.profile.poll.exhaust .transferIn).map fun e => (.error e, buffer)
  else
    .ok (fetch drive.profile page (drive.flash.content page) (drive.flash.reference page) buffer)

/-- Reads of pages one by one, into the pieces of a buffer. -/
def pagesRead (drive : Drive) (buffer : Bytes) :
    List (Nat × Nat) → Except Crash (Except Failure Unit × List Bytes)
  | [] => return (.ok (), [])
  | (page, i) :: rest => do
    let (outcome, data) ← drive.pageRead page (buffer.piece drive.geometry.pageBytes i)
    match outcome with
    | .error error => return (.error (.reading page error), [data])
    | .ok _ =>
      let (outcome, pieces) ← drive.pagesRead buffer rest
      return (outcome, data :: pieces)

/-- The pages of a block, each with its place in the block. -/
def pagesOf (drive : Drive) (index : Nat) : List (Nat × Nat) :=
  (List.range' (index * drive.chip.pagesPerBlock) drive.chip.pagesPerBlock).zipIdx

/-- A read of pages one after another into a buffer. -/
def readInto (drive : Drive) (pages : List Nat) (buffer : Bytes) :
    Except Crash (Except Failure Unit × Bytes) := do
  let (outcome, pieces) ← drive.pagesRead buffer pages.zipIdx
  let filled := Bytes.join pieces
  return (outcome, filled ++ buffer.extract filled.size)

/-- A read of a whole block. -/
def blockRead (drive : Drive) (index : Nat) (buffer : Bytes) :
    Except Crash (Except Failure Unit × Bytes) := do
  let (outcome, pieces) ← drive.pagesRead buffer (drive.pagesOf index)
  let filled := Bytes.join pieces
  return (outcome, filled ++ buffer.extract filled.size)

theorem blockRead_eq (drive : Drive) (index : Nat) : drive.blockRead index =
    drive.readInto (List.range' (index * drive.chip.pagesPerBlock) drive.chip.pagesPerBlock) := rfl

/-- A read of a block on a drive that does not hang does not crash. -/
theorem exists_blockRead (hhang : drive.hang = false) (index : Nat) (buffer : Bytes) :
    ∃ outcome bytes, drive.blockRead index buffer = .ok (outcome, bytes) := by
  have hpages : ∀ pages : List (Nat × Nat), ∃ outcome pieces,
      drive.pagesRead buffer pages = .ok (outcome, pieces) := by
    intro pages
    induction pages with
    | nil => exact ⟨_, _, rfl⟩
    | cons entry pages ih =>
      obtain ⟨outcome, pieces, hrest⟩ := ih
      rw [pagesRead, pageRead, hhang, if_neg Bool.false_ne_true]
      obtain ⟨result, hfetch⟩ : ∃ result, fetch drive.profile entry.1
          (drive.flash.content entry.1) (drive.flash.reference entry.1)
          (buffer.piece drive.geometry.pageBytes entry.2) = result := ⟨_, rfl⟩
      rw [hfetch]
      obtain ⟨e | _, data⟩ := result
      · exact ⟨_, _, rfl⟩
      · simp only [bind, Except.bind, hrest]
        exact ⟨_, _, rfl⟩
  obtain ⟨outcome, pieces, hread⟩ := hpages (drive.pagesOf index)
  rw [blockRead, hread]
  exact ⟨_, _, rfl⟩

/-- Is a block marked bad? -/
def isMarked (drive : Drive) (index : Nat) : Bool :=
  (drive.flash.content (index * drive.chip.pagesPerBlock)).getD drive.geometry.pageBytes
    erasedByte != erasedByte

/-- A block with an erased first page is a good one. -/
theorem isMarked_of_erased {index length : Nat}
    (h : drive.flash.content (index * drive.chip.pagesPerBlock) = Bytes.erased length) :
    drive.isMarked index = false := by
  rw [isMarked, h, Bytes.erased, Bytes.filled, Array.getD_eq_getD_getElem?,
    Array.getElem?_replicate]
  split <;> rfl

theorem Reads.pageRead_eq (h : drive.Reads next) : next.pageRead = drive.pageRead := by
  funext page buffer
  simp only [pageRead, h.profile_eq, h.flash_eq, h.hang_eq]

theorem Reads.isMarked_eq (h : drive.Reads next) : next.isMarked = drive.isMarked := by
  funext index
  simp only [isMarked, geometry, h.profile_eq, h.chip_eq, h.flash_eq]

theorem Reads.pagesRead_eq (h : drive.Reads next) : next.pagesRead = drive.pagesRead := by
  funext buffer pages
  induction pages with
  | nil => rfl
  | cons page pages ih => simp only [pagesRead, geometry, h.pageRead_eq, h.profile_eq, ih]

theorem Reads.readInto_eq (h : drive.Reads next) : next.readInto = drive.readInto := by
  funext pages buffer
  simp only [readInto, h.pagesRead_eq]

theorem Reads.blockRead_eq (h : drive.Reads next) : next.blockRead = drive.blockRead := by
  funext index
  rw [Drive.blockRead_eq, Drive.blockRead_eq, h.readInto_eq, h.chip_eq]

variable {page : Nat} {data spare : Bytes}

/-- A request to read a page crashes as the read does, or else ends as it does and leaves the drive
with other statistics. -/
theorem Genuine.perform_readPage (h : drive.Genuine) (hpage : page < drive.chip.pageCount)
    (data spare : Bytes) :
    (∃ defect, drive.pageRead page data = .error defect ∧
      drive.perform (.readPage page data spare) = .error defect) ∨
    ∃ outcome buffer reports found stats, drive.pageRead page data = .ok (outcome, buffer) ∧
      drive.perform (.readPage page data spare) =
        .ok ((outcome.map fun _ => .repaired reports, buffer, found), { drive with stats }) := by
  simp only [perform, h.rowAt_eq .read hpage, Device.readOutcome, pageRead, bind, Except.bind, pure,
    Except.pure]
  cases hhang : drive.hang with
  | true =>
    simp only [if_true]
    cases drive.profile.poll.exhaust .transferIn with
    | error defect => exact .inl ⟨defect, rfl, rfl⟩
    | ok e => exact .inr ⟨.error e, data, [], drive.spareOf page, drive.stats, rfl, rfl⟩
  | false =>
    simp only [Bool.false_eq_true, if_false]
    obtain ⟨start, hstart⟩ : ∃ start : Repairs, start =
        ⟨data.overlay 0 ((drive.flash.content page).extract 0 drive.geometry.pageBytes),
          drive.spareOf page, drive.stats, []⟩ := ⟨_, rfl⟩
    rw [← hstart]
    obtain ⟨outcome, repairs, hall⟩ : ∃ outcome repairs, Repairs.all drive.profile.poll
        drive.geometry page 0 (Engine.damage drive.geometry (drive.flash.content page)
          (drive.flash.reference page)) start = (outcome, repairs) := ⟨_, _, rfl⟩
    -- The repairs of the data do not depend on the spare area, the counters or past reports.
    have hfetch : fetch drive.profile page (drive.flash.content page) (drive.flash.reference page)
        data = (outcome, repairs.data) := by
      have hdata : data.overlay 0
          ((drive.flash.content page).extract 0 drive.geometry.pageBytes) = start.data := by
        rw [hstart]
      have hcongr := Repairs.all_congr drive.profile.poll drive.geometry page
        (show (Repairs.mk _ #[] ⟨0, 0⟩ []).data = start.data from hdata) 0
        (Engine.damage drive.geometry (drive.flash.content page) (drive.flash.reference page))
      rw [hall] at hcongr
      exact Prod.ext hcongr.1 hcongr.2
    refine .inr ⟨outcome, repairs.data, repairs.reports, repairs.spare, repairs.stats,
      congrArg Except.ok hfetch, ?_⟩
    rw [hall]
    cases outcome <;> rfl

end Drive

end Sim

namespace Controller

open Sim

variable {controller : Controller Device} {drive : Drive} {index : Nat}

theorem Steady.of_reads (h : controller.Steady) {next : Controller Device} (hrests : next.Rests)
    (hreads : controller.drive.Reads next.drive) : next.Steady :=
  h.of_keeps hrests hreads.keeps

/-- A page is read as its drive says. -/
theorem follows_pageRead (h : controller.Steady) (hgenuine : controller.drive.Genuine) {page : Nat}
    (hpage : page < controller.drive.chip.pageCount) {data spare : Bytes}
    (hdata : data.size = controller.profile.geometry.pageBytes)
    (hspare : spare.size = controller.profile.geometry.spareSize) :
    Follows (controller.drive.pageRead page data)
      (fun result r next => r.outcome.map (fun _ => ()) = result.1 ∧ r.data = result.2 ∧
        next.Steady ∧ controller.drive.Reads next.drive)
      ((readPage page data spare).run controller) := by
  have hread := follows_readPage h.rests hgenuine.counted.pages_eq hpage hdata hspare
  rcases hgenuine.perform_readPage hpage data spare with ⟨defect, hpageRead, hperform⟩ |
    ⟨outcome, buffer, reports, found, stats, hpageRead, hperform⟩
  · rw [hperform] at hread
    rw [hpageRead]
    exact Follows.of_error hread.run_eq_error
  · rw [hperform] at hread
    rw [hpageRead]
    obtain ⟨r, next, hrun, houtcome, hbuffer, -, hrests, hdrive⟩ := hread.exists_of_ok
    have hreads : controller.drive.Reads next.drive := hdrive ▸ ⟨rfl, rfl, rfl, rfl⟩
    refine Follows.of_ok hrun ⟨?_, hbuffer, h.of_reads hrests hreads, hreads⟩
    cases outcome <;> cases hr : r.outcome <;> rw [hr] at houtcome <;> cases houtcome <;> rfl

/-! ## Blocks -/

/-- The bytes of a block are counted without an overflow. -/
theorem blockBytes_eq (hgenuine : controller.drive.Genuine) (blocks spareBytes : Nat) :
    BlockLayout.blockBytes ⟨blocks, controller.drive.chip.pagesPerBlock,
        controller.profile.geometry.pageBytes, spareBytes⟩ =
      .ok (controller.drive.chip.pagesPerBlock * controller.drive.geometry.pageBytes) := by
  refine word64_eq_ok.2 ⟨?_, rfl⟩
  calc controller.drive.chip.pagesPerBlock * controller.profile.geometry.pageBytes
      ≤ 2 ^ 9 * 8192 := Nat.mul_le_mul hgenuine.counted.pagesPerBlock_le (Geometry.pageBytes_le _)
    _ < UInt64.size := by decide

theorem run_get (controller : Controller Device) :
    (get : Action (Controller Device) (Controller Device)).run controller =
      .ok (controller, controller) := rfl

/-- Pages are read one by one, by induction on those that are left. -/
theorem follows_readPages (h : controller.Steady) (hgenuine : controller.drive.Genuine)
    {buffer : Bytes} {pages : List (Nat × Nat)}
    (hpages : ∀ entry ∈ pages, entry.1 < controller.drive.chip.pageCount ∧
      (buffer.piece controller.drive.geometry.pageBytes entry.2).size =
        controller.drive.geometry.pageBytes) :
    Follows (controller.drive.pagesRead buffer pages)
      (fun result r next => r = result ∧ next.Steady ∧ controller.drive.Reads next.drive)
      ((Block.readPages controller.profile.geometry buffer pages).run controller) := by
  -- A read leaves the pages behind it as they are, and the first failure ends the run.
  induction pages generalizing controller with
  | nil => exact Follows.of_ok rfl ⟨rfl, h, Drive.Reads.refl _⟩
  | cons entry pages ih =>
    obtain ⟨page, i⟩ := entry
    rw [List.forall_mem_cons] at hpages
    obtain ⟨⟨hpage, hsize⟩, hrest⟩ := hpages
    refine (follows_pageRead h hgenuine hpage hsize (Bytes.size_filled _ _)).bind ?_
    rintro ⟨outcome, data⟩ result next ⟨houtcome, rfl, hnext, hreads⟩
    cases outcome with
    | error e =>
      cases hresult : result.outcome with
      | ok reports =>
        rw [hresult] at houtcome
        cases houtcome
      | error e' =>
        rw [hresult] at houtcome
        cases houtcome
        exact Follows.of_ok rfl ⟨rfl, hnext, hreads⟩
    | ok =>
      cases hresult : result.outcome with
      | error e' =>
        rw [hresult] at houtcome
        cases houtcome
      | ok reports =>
        have hgeometry : next.profile.geometry = controller.profile.geometry :=
          congrArg Profile.geometry hreads.profile_eq
        have hfollows := ih hnext (hreads.genuine hgenuine) (by
          rw [hreads.chip_eq, Drive.geometry, hreads.profile_eq]
          exact hrest)
        rw [hreads.pagesRead_eq, hgeometry] at hfollows
        refine hfollows.bind fun result' r last hend => ?_
        obtain ⟨rfl, hlast, hreads'⟩ := hend
        exact Follows.of_ok rfl ⟨rfl, hlast, hreads.trans hreads'⟩

/-- The pages that part of a block takes up. -/
theorem run_pagesFor (hgenuine : controller.drive.Genuine)
    (hindex : index < controller.drive.chip.blocks) {start count bytes : Nat}
    (hstop : start + count ≤ controller.drive.chip.pagesPerBlock)
    (hbytes : bytes = count * controller.drive.geometry.pageBytes) :
    ((⟨index⟩ : Block).pagesFor start bytes :
      Attempt Failure (Controller Device) (List Nat)).run.run controller =
      .ok (.ok (List.range' (index * controller.drive.chip.pagesPerBlock + start) count),
        controller) := by
  have hcount : count < UInt32.size := by
    calc count ≤ controller.drive.chip.pagesPerBlock := by omega
      _ ≤ 2 ^ 9 := hgenuine.counted.pagesPerBlock_le
      _ < UInt32.size := by decide
  have hcounts : Block.Counts controller.profile.geometry.pageBytes bytes count := by
    rw [hbytes]
    exact .of_mul controller.drive.geometry.pageBytes_pos hcount
  exact Block.run_pagesFor hgenuine.laid ⟨index⟩ start hcounts hindex hstop

/-- The pieces of a buffer of whole pages are pages. -/
theorem size_piece {buffer : Bytes} {length count i : Nat} (hbuffer : buffer.size = count * length)
    (hi : i < count) : (buffer.piece length i).size = length := by
  have hlast : (i + 1) * length ≤ count * length := Nat.mul_le_mul_right _ hi
  rw [Bytes.piece, Array.size_extract, hbuffer, Nat.min_eq_left hlast, Nat.succ_mul]
  omega

/-- A range of pages, each with its place in the range. -/
theorem zipIdx_range' (first count : Nat) :
    (List.range' first count).zipIdx = (List.range count).map fun i => (first + i, i) := by
  apply List.ext_getElem
  · simp
  · intro i _ _
    simp

theorem mem_pagesOf {entry : Nat × Nat} : entry ∈ drive.pagesOf index ↔
    entry.2 < drive.chip.pagesPerBlock ∧ entry.1 = index * drive.chip.pagesPerBlock + entry.2 := by
  obtain ⟨page, i⟩ := entry
  rw [Drive.pagesOf, zipIdx_range', List.mem_map]
  constructor
  · rintro ⟨i, hi, heq⟩
    cases heq
    exact ⟨List.mem_range.1 hi, rfl⟩
  · rintro ⟨hi, hpage⟩
    exact ⟨i, List.mem_range.2 hi, Prod.ext hpage.symm rfl⟩

/-- Pages are read into a buffer as the drive says. -/
theorem follows_readAt (h : controller.Steady) (hgenuine : controller.drive.Genuine)
    {pages : List Nat} {buffer : Bytes}
    (hpages : ∀ page ∈ pages, page < controller.drive.chip.pageCount)
    (hbuffer : buffer.size = pages.length * controller.drive.geometry.pageBytes) :
    Follows (controller.drive.readInto pages buffer)
      (fun result r next => r = result ∧ next.Steady ∧ controller.drive.Reads next.drive)
      ((Block.readAt controller.profile.geometry buffer pages).run controller) := by
  have hentries : ∀ entry ∈ pages.zipIdx, entry.1 < controller.drive.chip.pageCount ∧
      (buffer.piece controller.drive.geometry.pageBytes entry.2).size =
        controller.drive.geometry.pageBytes := by
    rintro ⟨page, i⟩ hentry
    obtain ⟨hi, hpage⟩ := List.mem_zipIdx' hentry
    exact ⟨hpages _ (hpage ▸ List.getElem_mem hi), size_piece hbuffer hi⟩
  refine (follows_readPages h hgenuine hentries).bind fun result r next hend => ?_
  obtain ⟨outcome, pieces⟩ := result
  obtain ⟨rfl, hnext, hreads⟩ := hend
  exact Follows.of_ok rfl ⟨rfl, hnext, hreads⟩

/-- Part of a block is read as its drive says. -/
theorem follows_readFrom (h : controller.Steady) (hgenuine : controller.drive.Genuine)
    (hindex : index < controller.drive.chip.blocks) {start count : Nat}
    (hstop : start + count ≤ controller.drive.chip.pagesPerBlock) {buffer : Bytes}
    (hbuffer : buffer.size = count * controller.drive.geometry.pageBytes) :
    Follows (controller.drive.readInto
        (List.range' (index * controller.drive.chip.pagesPerBlock + start) count) buffer)
      (fun result r next => r = result ∧ next.Steady ∧ controller.drive.Reads next.drive)
      ((Block.read ⟨index⟩ start buffer).run controller) := by
  rw [Block.run_read (run_pagesFor hgenuine hindex hstop hbuffer)]
  refine follows_readAt h hgenuine (fun page hpage => ?_) (by rw [List.length_range', hbuffer])
  obtain ⟨hfirst, hlast⟩ := List.mem_range'_1.1 hpage
  have hplace := Chip.page_lt hindex (k := page - index * controller.drive.chip.pagesPerBlock)
    (by omega)
  omega

/-- A whole block is read as its drive says. -/
theorem follows_read (h : controller.Steady) (hgenuine : controller.drive.Genuine)
    (hindex : index < controller.drive.chip.blocks) {buffer : Bytes}
    (hbuffer : buffer.size =
      controller.drive.chip.pagesPerBlock * controller.drive.geometry.pageBytes) :
    Follows (controller.drive.blockRead index buffer)
      (fun result r next => r = result ∧ next.Steady ∧ controller.drive.Reads next.drive)
      ((Block.read ⟨index⟩ 0 buffer).run controller) :=
  follows_readFrom h hgenuine hindex (Nat.le_of_eq (Nat.zero_add _)) hbuffer

theorem run_adapt {ε ε' σ α : Type} {m : Attempt ε σ α} {s t : σ} {r : Except ε α}
    (h : m.run.run s = .ok (r, t)) (f : ε → ε') :
    (m.adapt f).run.run s = .ok (r.mapError f, t) := by
  show (StateT.run (Except.mapError f <$> m.run) s) = _
  rw [StateT.run_map, h]
  rfl

/-- The marker of a block is looked at. -/
theorem run_isBad (h : controller.Steady) (hgenuine : controller.drive.Genuine)
    (hindex : index < controller.drive.chip.blocks) :
    ∃ next, (isBad index).run.run controller =
        .ok (.ok (controller.drive.isMarked index), next) ∧ next.Steady ∧
      controller.drive.Reads next.drive := by
  have hfollows := follows_isBad h.rests hgenuine.counted.blocks_eq hindex
  simp only [Drive.perform, hgenuine.firstRow_eq hindex,
    hgenuine.rowAt_eq .read (hgenuine.first_lt hindex), bind, Except.bind, pure, Except.pure]
    at hfollows
  obtain ⟨r, next, hrun, hr, hrests, hdrive⟩ := hfollows.exists_of_ok
  have hreads : controller.drive.Reads next.drive := hdrive ▸ Drive.Reads.refl _
  refine ⟨next, ?_, h.of_reads hrests hreads, hreads⟩
  rw [hrun]
  cases r with
  | error e => cases congrArg Prod.fst hr
  | ok marked =>
    have heq := Answer.marked.inj (Except.ok.inj (congrArg Prod.fst hr))
    rw [← heq]
    rfl

/-- A block is handed out unless it is marked bad. -/
theorem run_block? (h : controller.Steady) (hgenuine : controller.drive.Genuine)
    (hindex : index < controller.drive.chip.blocks) :
    ∃ next, (block? index).run.run controller =
        .ok (.ok (if controller.drive.isMarked index then none else some ⟨index⟩), next) ∧
      next.Steady ∧ controller.drive.Reads next.drive := by
  obtain ⟨next, hrun, hnext, hreads⟩ := run_isBad h hgenuine hindex
  have hask : (device (isBad index)).run.run controller =
      .ok (.ok (controller.drive.isMarked index), next) := run_adapt hrun Failure.device
  refine ⟨next, ?_, hnext, hreads⟩
  unfold block?
  refine run_attempt_step (run_perform (run_blockLayout hgenuine.laid)) ?_
  rw [if_pos hindex]
  refine run_attempt_step hask ?_
  cases controller.drive.isMarked index <;> rfl

end Controller

end NandFlash
