import NandFlash.Proofs.Image.Dumping
import NandFlash.Proofs.Sim.BlockWrites

/-!
# Counting used pages

The count of used pages reads the pages of a block one by one, through one buffer. On an able
device every page fills the buffer, so the count is a sum over the pages: what each of them adds is
a matter of its own flash.
-/

namespace NandFlash

theorem Bytes.piece_zero {bytes : Bytes} {length : Nat} (h : bytes.size = length) :
    bytes.piece length 0 = bytes := by
  rw [piece, Nat.zero_mul, Nat.zero_add, Nat.one_mul, ← h, Array.extract_size]

namespace Sim.Drive

variable {drive other : Drive} {buffer : Bytes}

/-! ## A sum over the pages -/

/-- What a page adds to a count of used pages, if it can be read. -/
def usedAt (drive : Drive) (page : Nat) : Except Failure Nat :=
  let (outcome, data) := fetch drive.profile page (drive.flash.content page)
    (drive.flash.reference page) (Bytes.filled drive.geometry.pageBytes 0)
  (outcome.mapError (.reading page)).map fun _ => if data.isErased then 0 else 1

/-- Count the used pages among some. -/
def used (drive : Drive) : List Nat → Except Failure Nat
  | [] => return 0
  | page :: rest => return (← drive.usedAt page) + (← drive.used rest)

theorem used_append (drive : Drive) (pages others : List Nat) :
    drive.used (pages ++ others) = do return (← drive.used pages) + (← drive.used others) := by
  induction pages with
  | nil =>
    rw [List.nil_append, used]
    cases drive.used others with
    | error failure => rfl
    | ok more => exact congrArg Except.ok (Nat.zero_add more).symm
  | cons page pages ih =>
    rw [List.cons_append, used, used, ih]
    cases drive.usedAt page with
    | error failure => rfl
    | ok first =>
      cases drive.used pages with
      | error failure => rfl
      | ok rest =>
        cases drive.used others with
        | error failure => rfl
        | ok more => exact congrArg Except.ok (Nat.add_assoc first rest more).symm

theorem used_append_eq_ok {pages others : List Nat} {n : Nat} :
    drive.used (pages ++ others) = .ok n ↔ ∃ used more,
      drive.used pages = .ok used ∧ drive.used others = .ok more ∧ n = used + more := by
  rw [used_append]
  constructor
  · intro h
    obtain ⟨used, hused, h⟩ := exists_of_bind_eq_ok h
    obtain ⟨more, hmore, h⟩ := exists_of_bind_eq_ok h
    cases h
    exact ⟨used, more, hused, hmore, rfl⟩
  · rintro ⟨used, more, hused, hmore, rfl⟩
    rw [hused, hmore]
    rfl

theorem used_congr (hprofile : other.profile = drive.profile) {pages : List Nat}
    (h : ∀ page ∈ pages, other.flash.content page = drive.flash.content page ∧
      other.flash.reference page = drive.flash.reference page) :
    other.used pages = drive.used pages := by
  induction pages with
  | nil => rfl
  | cons page pages ih =>
    rw [List.forall_mem_cons] at h
    rw [used, used, ih h.2, usedAt, usedAt, geometry, geometry, hprofile, h.1.1, h.1.2]

theorem Reads.used_eq (h : drive.Reads other) (pages : List Nat) :
    other.used pages = drive.used pages :=
  used_congr h.profile_eq fun _ _ => ⟨by rw [h.flash_eq], by rw [h.flash_eq]⟩

/-- Pages that hold some data count as used unless the data are erased. -/
theorem Able.used_of_stores (h : drive.Able) {pages : List (Nat × Bytes)}
    (hstores : ∀ entry ∈ pages, drive.Stores entry.1 entry.2) :
    drive.used (pages.map Prod.fst) = .ok (pages.countP fun entry => !entry.2.isErased) := by
  induction pages with
  | nil => rfl
  | cons entry pages ih =>
    rw [List.forall_mem_cons] at hstores
    rw [List.map_cons, used, usedAt, h.fetch_of_stores hstores.1 (Bytes.size_filled _ _),
      ih hstores.2, List.countP_cons]
    show Except.ok _ = Except.ok _
    rw [Nat.add_comm]
    cases entry.2.isErased <;> rfl

/-- A count grows by what a stretch of pages adds that counted for nothing before. -/
theorem used_grow {front middle back : List Nat} {used more : Nat}
    (hfront : other.used front = drive.used front) (hback : other.used back = drive.used back)
    (hnothing : drive.used middle = .ok 0) (hmore : other.used middle = .ok more)
    (hused : drive.used (front ++ (middle ++ back)) = .ok used) :
    other.used (front ++ (middle ++ back)) = .ok (used + more) := by
  obtain ⟨ahead, rest, hahead, hrest, rfl⟩ := used_append_eq_ok.1 hused
  obtain ⟨nothing, behind, hmiddle, hbehind, rfl⟩ := used_append_eq_ok.1 hrest
  cases hnothing.symm.trans hmiddle
  rw [used_append_eq_ok]
  refine ⟨ahead, more + behind, hfront.trans hahead, ?_, by omega⟩
  exact used_append_eq_ok.2 ⟨more, behind, hmore, hback.trans hbehind, rfl⟩

/-- A page that fills the buffer is read as it would be through a fresh one. -/
theorem Able.readInto_singleton (h : drive.Able) (page : Nat)
    (hbuffer : buffer.size = drive.geometry.pageBytes) :
    ∃ outcome data, fetch drive.profile page (drive.flash.content page)
        (drive.flash.reference page) (Bytes.filled drive.geometry.pageBytes 0) = (outcome, data) ∧
      data.size = drive.geometry.pageBytes ∧
      drive.readInto [page] buffer = .ok (outcome.mapError (.reading page), data) := by
  obtain ⟨⟨outcome, data⟩, hfetch⟩ : ∃ result, fetch drive.profile page
      (drive.flash.content page) (drive.flash.reference page)
      (Bytes.filled drive.geometry.pageBytes 0) = result := ⟨_, rfl⟩
  have hroom : drive.geometry.pageBytes ≤ (drive.flash.content page).size := by
    rw [h.genuine.isWhole]
    exact Nat.le_trans (Nat.le_add_right _ _) h.fitsRaw
  -- The page overwrites all of the buffer, so that it does not matter what was in it.
  have hsame : fetch drive.profile page (drive.flash.content page) (drive.flash.reference page)
      buffer = (outcome, data) := by
    rw [← hfetch]
    refine fetch_congr _ _ hbuffer (Bytes.size_filled _ _) fun i hi => ?_
    rw [Array.getElem?_eq_none (by omega),
      Array.getElem?_eq_none (by rw [Bytes.size_filled]; omega)]
  have hsize : data.size = drive.geometry.pageBytes :=
    hbuffer ▸ (congrArg (Array.size ∘ Prod.snd) hsame).symm.trans (size_fetch _ _)
  refine ⟨outcome, data, hfetch, hsize, ?_⟩
  have hjoin : Bytes.join [data] ++ buffer.extract (Bytes.join [data]).size = data := by
    rw [Bytes.join_cons, Bytes.join_nil, Array.append_empty, hsize, ← hbuffer]
    simp
  rw [readInto, List.zipIdx_singleton, pagesRead, Bytes.piece_zero hbuffer, pageRead, h.hang_eq,
    if_neg Bool.false_ne_true, hsame]
  cases outcome with
  | error e => exact congrArg (fun bytes => Except.ok (Except.error _, bytes)) hjoin
  | ok => exact congrArg (fun bytes => Except.ok (Except.ok (), bytes)) hjoin

/-! ## Ranges of pages -/

variable {first count : Nat} {content : Bytes} {flash : Flash}

theorem map_fst_range (first count : Nat) (data : Nat → Bytes) :
    ((List.range count).map fun i => (first + i, data i)).map Prod.fst =
      List.range' first count := by
  rw [List.map_map, List.range'_eq_map_range]
  rfl

/-- Fresh pages do not count as used. -/
theorem Fresh.used_eq (h : drive.Fresh first count) (hable : drive.Able) :
    drive.used (List.range' first count) = .ok 0 := by
  rw [← map_fst_range first count fun _ => Bytes.erased drive.geometry.pageBytes,
    hable.used_of_stores]
  · simp
  · intro entry hentry
    obtain ⟨i, hi, rfl⟩ := List.mem_map.1 hentry
    obtain ⟨herased, hreference⟩ := h i (List.mem_range.1 hi)
    exact hable.stores_erased (Bytes.size_erased _) (Bytes.isErased_erased _) herased hreference

/-- Once they have taken some content, those that have been written to do. -/
theorem Fills.used_eq (h : drive.Fills first count content flash) (hable : (drive.on flash).Able) :
    (drive.on flash).used (List.range' first count) = .ok ((List.range count).countP fun i =>
      !(content.piece drive.geometry.pageBytes i).isErased) := by
  rw [← map_fst_range first count (content.piece drive.geometry.pageBytes), hable.used_of_stores]
  · rw [List.countP_map]
    rfl
  · intro entry hentry
    obtain ⟨i, hi, rfl⟩ := List.mem_map.1 hentry
    exact h.stores i (List.mem_range.1 hi)

end Sim.Drive

/-! ## Counting on a controller -/

namespace Controller

open Sim

variable {controller : Controller Device} {index start count : Nat}

/-- Pages of a block are counted as their drive says, by induction on those that are left. -/
theorem run_countUsed (h : controller.Steady) (hable : controller.drive.Able)
    (hindex : index < controller.drive.chip.blocks)
    (hstop : start + count ≤ controller.drive.chip.pagesPerBlock) {buffer : Bytes}
    (hbuffer : buffer.size = controller.drive.geometry.pageBytes) :
    ∃ next, (Block.countUsed ⟨index⟩ count start buffer).run.run controller =
        .ok (controller.drive.used
          (List.range' (index * controller.drive.chip.pagesPerBlock + start) count), next) ∧
      next.Steady ∧ controller.drive.Reads next.drive := by
  induction count generalizing controller start buffer with
  | zero => exact ⟨controller, rfl, h, Drive.Reads.refl _⟩
  | succ count ih =>
    have hone : start + 1 ≤ controller.drive.chip.pagesPerBlock := by omega
    obtain ⟨page, hpage⟩ : ∃ page, page =
        index * controller.drive.chip.pagesPerBlock + start := ⟨_, rfl⟩
    obtain ⟨outcome, data, hfetch, hdata, hinto⟩ := hable.readInto_singleton page hbuffer
    have hread := follows_readFrom h hable.genuine hindex hone (hbuffer.trans (Nat.one_mul _).symm)
    rw [← hpage, List.range'_one, hinto] at hread
    obtain ⟨_, next, hrun, rfl, hnext, hreads⟩ := hread.exists_of_ok
    rw [← hpage, List.range'_succ, Drive.used, Drive.usedAt, hfetch, Block.countUsed]
    cases outcome with
    | error e => exact ⟨next, run_attempt_step (run_perform hrun) rfl, hnext, hreads⟩
    | ok =>
      have hstop' : start + 1 + count ≤ next.drive.chip.pagesPerBlock := by
        rw [hreads.chip_eq]
        omega
      have hdata' : data.size = next.drive.geometry.pageBytes := by
        rw [Drive.geometry, hreads.profile_eq]
        exact hdata
      -- What was read is the buffer for the next page.
      obtain ⟨last, hrest, hlast, hreads'⟩ := ih hnext ((Moves.of_reads hnext hreads).able hable)
        (hreads.chip_eq.symm ▸ hindex) hstop' hdata'
      rw [hreads.used_eq, hreads.chip_eq, ← Nat.add_assoc, ← hpage] at hrest
      refine ⟨last, run_attempt_step (run_perform hrun) ?_, hlast, hreads.trans hreads'⟩
      show ((Block.countUsed ⟨index⟩ count (start + 1) data) >>= _).run.run next = _
      cases hused : controller.drive.used (List.range' (page + 1) count) with
      | error failure =>
        rw [hused] at hrest
        exact run_attempt_bind_error hrest
      | ok rest =>
        rw [hused] at hrest
        refine run_attempt_step hrest ?_
        rw [Nat.add_comm rest]
        rfl

/-- The count of used pages is a count over the pages of the block. -/
theorem run_usedPages (h : controller.Steady) (hable : controller.drive.Able)
    (hindex : index < controller.drive.chip.blocks) :
    ∃ next, (Block.usedPages ⟨index⟩).run.run controller =
        .ok (controller.drive.used (List.range' (index * controller.drive.chip.pagesPerBlock)
          controller.drive.chip.pagesPerBlock), next) ∧
      next.Steady ∧ controller.drive.Reads next.drive := by
  obtain ⟨next, hrun, hnext, hreads⟩ := run_countUsed h hable hindex (Nat.le_of_eq (Nat.zero_add _))
    (Bytes.size_filled controller.drive.geometry.pageBytes 0)
  exact ⟨next, run_attempt_step (run_perform (run_blockLayout hable.genuine.laid)) hrun, hnext,
    hreads⟩

end Controller

end NandFlash
