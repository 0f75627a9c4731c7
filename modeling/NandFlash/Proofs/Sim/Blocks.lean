import NandFlash.Proofs.Sim.BlockReads
import NandFlash.Proofs.Sim.Restoring

/-!
# Blocks of an able device

A device is able if its chip is genuine, its pages have room for the geometry, and its engine does
not hang; it is ready if reads are given enough turns too. On an able device no request crashes:
a page of a sound block takes what is written to it, and one that has stored some data is read as
these.
-/

namespace NandFlash

namespace Bytes

/-- Cutting a buffer into pieces and joining them again changes nothing. -/
theorem join_pieces {bytes : Bytes} {length count : Nat} (h : bytes.size = count * length) :
    join ((List.range count).map (bytes.piece length)) = bytes := by
  have hfront : ∀ n ≤ count,
      join ((List.range n).map (bytes.piece length)) = bytes.extract 0 (n * length) := by
    intro n hn
    induction n with
    | zero => simp
    | succ n ih =>
      have hlast : (n + 1) * length ≤ count * length := Nat.mul_le_mul_right _ hn
      rw [Nat.succ_mul] at hlast
      have hjoin : join ((List.range (n + 1)).map (bytes.piece length)) =
          join ((List.range n).map (bytes.piece length)) ++ bytes.piece length n := by
        simp only [join, List.range_succ, List.map_append, List.foldl_append, List.map_cons,
          List.map_nil, List.foldl_cons, List.foldl_nil]
      rw [hjoin, ih (by omega), piece, Array.extract_append_extract, Nat.zero_min,
        Nat.max_eq_right (by rw [Nat.succ_mul]; omega)]
  rw [hfront count (Nat.le_refl _), ← h, Array.extract_size]

end Bytes

namespace Sim

/-! ## Undamaged pages -/

theorem Engine.damage_self (g : Geometry) (content : Bytes) :
    Engine.damage g content (some content) = [] := by
  have hflip : ∀ raw, Engine.flipAt content content raw = 0 :=
    fun raw => (flipAt_eq_zero_iff rfl).2 rfl
  unfold Engine.damage
  split
  · rfl
  · refine List.filterMap_eq_nil_iff.2 fun index _ => ?_
    have howned : Engine.owned g (g.spareSize - g.parityBytes) (Engine.flipAt content content)
        index = [] := List.filter_eq_nil_iff.2 fun byte _ => by simp [hflip]
    rw [howned]
    rfl

/-- There is nothing to report of a page that has no reference, or does not differ from it. -/
theorem Engine.damage_of_undamaged (g : Geometry) {content : Bytes} {reference? : Option Bytes}
    (hundamaged : reference? = none ∨ reference? = some content) :
    Engine.damage g content reference? = [] := by
  rcases hundamaged with rfl | rfl
  · unfold Engine.damage
    split <;> rfl
  · exact Engine.damage_self _ _

/-- A page without damage is read as it is. -/
theorem fetch_undamaged (profile : Profile) (page : Nat) {content buffer : Bytes}
    {reference? : Option Bytes} (hundamaged : reference? = none ∨ reference? = some content)
    (hsize : profile.geometry.pageBytes ≤ content.size)
    (hbuffer : buffer.size = profile.geometry.pageBytes) :
    fetch profile page content reference? buffer =
      (.ok (), content.extract 0 profile.geometry.pageBytes) := by
  rw [fetch, Engine.damage_of_undamaged _ hundamaged]
  show (Except.ok (), buffer.overlay 0 _) = _
  rw [Bytes.overlay_zero_of_size_eq (by rw [Array.size_extract, hbuffer]; omega)]

namespace Drive

variable {drive next : Drive} {flash : Flash} {index : Nat}

/-- A drive with other flash. -/
def on (drive : Drive) (flash : Flash) : Drive := { drive with flash }

@[simp] theorem on_flash : (drive.on flash).flash = flash := rfl

@[simp] theorem on_geometry : (drive.on flash).geometry = drive.geometry := rfl

/-- What requests rely on to be carried out. -/
structure Able (drive : Drive) : Prop where
  genuine : drive.Genuine
  fitsRaw : drive.geometry.pageBytes + drive.geometry.spareSize ≤ drive.chip.rawLen
  hang_eq : drive.hang = false

theorem Able.of_reads (h : drive.Able) (hreads : (drive.on flash).Reads next)
    (hwhole : next.flash.IsWhole next.chip.rawLen) : next.Able := by
  have hprofile : next.profile = drive.profile := hreads.profile_eq
  have hchip : next.chip = drive.chip := hreads.chip_eq
  refine ⟨⟨?_, ?_, hwhole⟩, ?_, hreads.hang_eq.trans h.hang_eq⟩
  · rw [hchip, hprofile]
    exact h.genuine.counted
  · rw [geometry, hprofile]
    exact h.genuine.fits
  · rw [geometry, hprofile, hchip]
    exact h.fitsRaw

/-- What block operations rely on. -/
structure Ready (drive : Drive) : Prop where
  genuine : drive.Genuine
  fitsRaw : drive.geometry.pageBytes + drive.geometry.spareSize ≤ drive.chip.rawLen
  hang_eq : drive.hang = false
  /-- A read may have to wait for each of at most sixteen fields. -/
  allows : drive.profile.poll.Allows 16

theorem Ready.able (h : drive.Ready) : drive.Able := ⟨h.genuine, h.fitsRaw, h.hang_eq⟩

theorem Ready.of_reads (h : drive.Ready) (hreads : (drive.on flash).Reads next)
    (hwhole : next.flash.IsWhole next.chip.rawLen) : next.Ready := by
  obtain ⟨hgenuine, hraw, hhang⟩ := h.able.of_reads hreads hwhole
  refine ⟨hgenuine, hraw, hhang, ?_⟩
  rw [show next.profile = drive.profile from hreads.profile_eq]
  exact h.allows

/-! ## What a block holds -/

/-- A page is in some flash as it is on a drive. -/
def KeepsPage (drive : Drive) (page : Nat) (flash : Flash) : Prop :=
  flash.content page = drive.flash.content page ∧ flash.reference page = drive.flash.reference page

/-- Two states of the flash that agree on the pages of a block. -/
def AgreesOn (drive : Drive) (index : Nat) (flash : Flash) : Prop :=
  ∀ page, page / drive.chip.pagesPerBlock = index → flash.content page = drive.flash.content page ∧
    flash.reference page = drive.flash.reference page

/-- A read of a block goes through and answers some content. -/
def Holds (drive : Drive) (index : Nat) (content : Bytes) : Prop :=
  drive.blockRead index (Bytes.filled content.size 0) = .ok (.ok (), content)

theorem AgreesOn.isMarked_eq (h : drive.AgreesOn index flash)
    (hpos : 0 < drive.chip.pagesPerBlock) :
    (drive.on flash).isMarked index = drive.isMarked index := by
  simp only [isMarked, on, geometry, (h _ (Nat.mul_div_cancel _ hpos)).1]

theorem AgreesOn.pagesRead_eq (h : drive.AgreesOn index flash) (buffer : Bytes)
    {pages : List (Nat × Nat)}
    (hpages : ∀ entry ∈ pages, entry.1 / drive.chip.pagesPerBlock = index) :
    (drive.on flash).pagesRead buffer pages = drive.pagesRead buffer pages := by
  induction pages with
  | nil => rfl
  | cons entry pages ih =>
    rw [List.forall_mem_cons] at hpages
    obtain ⟨hcontent, hreference⟩ := h _ hpages.1
    have hpage : (drive.on flash).pageRead entry.1 = drive.pageRead entry.1 := by
      funext buffer
      simp only [pageRead, on, hcontent, hreference]
    simp only [pagesRead, hpage, ih hpages.2]
    rfl

theorem AgreesOn.blockRead_eq (h : drive.AgreesOn index flash) :
    (drive.on flash).blockRead index = drive.blockRead index := by
  funext buffer
  simp only [blockRead]
  rw [h.pagesRead_eq buffer fun entry hentry => ?_]
  · rfl
  · obtain ⟨hi, hpage⟩ := Controller.mem_pagesOf.1 hentry
    rw [hpage]
    exact Nat.div_eq_of_lt_le (Nat.le_add_right _ _) (by
      rw [Nat.succ_mul]
      exact Nat.add_lt_add_left hi _)

/-- A page holds some data: it is not damaged, and its first spare byte is erased, so that it
cannot be taken for a bad block marker. -/
structure Stores (drive : Drive) (page : Nat) (data : Bytes) : Prop where
  data_eq : (drive.flash.content page).extract 0 drive.geometry.pageBytes = data
  undamaged : drive.flash.reference page = none ∨
    drive.flash.reference page = some (drive.flash.content page)
  unmarked : (drive.flash.content page)[drive.geometry.pageBytes]? = some erasedByte

/-- A page that holds some data is read as these. -/
theorem Able.fetch_of_stores (h : drive.Able) {page : Nat} {data buffer : Bytes}
    (hstores : drive.Stores page data) (hbuffer : buffer.size = drive.geometry.pageBytes) :
    fetch drive.profile page (drive.flash.content page) (drive.flash.reference page) buffer =
      (.ok (), data) := by
  rw [fetch_undamaged drive.profile page hstores.undamaged ?_ hbuffer]
  · exact Prod.ext rfl hstores.data_eq
  · rw [h.genuine.isWhole]
    exact Nat.le_trans (Nat.le_add_right _ _) h.fitsRaw

/-- Pages that hold their pieces of some content are read as these, by induction on the pages. -/
theorem Able.pagesRead_of_stores (h : drive.Able) (content : Bytes) {buffer : Bytes}
    {pages : List (Nat × Nat)} (hbuffer : ∀ entry ∈ pages,
      (buffer.piece drive.geometry.pageBytes entry.2).size = drive.geometry.pageBytes)
    (hstores : ∀ entry ∈ pages,
      drive.Stores entry.1 (content.piece drive.geometry.pageBytes entry.2)) :
    drive.pagesRead buffer pages =
      .ok (.ok (), pages.map fun entry => content.piece drive.geometry.pageBytes entry.2) := by
  induction pages with
  | nil => rfl
  | cons entry pages ih =>
    rw [List.forall_mem_cons] at hbuffer hstores
    rw [pagesRead, pageRead, h.hang_eq, if_neg Bool.false_ne_true, h.fetch_of_stores hstores.1
      hbuffer.1]
    show (drive.pagesRead _ pages >>= _) = _
    rw [ih hbuffer.2 hstores.2]
    rfl

/-- A range of pages that hold the pieces of some content is read as the content. -/
theorem Able.readInto_of_stores (h : drive.Able) {content buffer : Bytes} {first count : Nat}
    (hsize : content.size = count * drive.geometry.pageBytes) (hbuffer : buffer.size = content.size)
    (hstores : ∀ i < count,
      drive.Stores (first + i) (content.piece drive.geometry.pageBytes i)) :
    drive.readInto (List.range' first count) buffer = .ok (.ok (), content) := by
  have hread : drive.pagesRead buffer (List.range' first count).zipIdx =
      .ok (.ok (), (List.range count).map (content.piece drive.geometry.pageBytes)) := by
    rw [Controller.zipIdx_range', h.pagesRead_of_stores content ?_ ?_, List.map_map]
    · rfl
    all_goals
      intro entry hentry
      obtain ⟨i, hi, rfl⟩ := List.mem_map.1 hentry
      rw [List.mem_range] at hi
    · exact Controller.size_piece (hbuffer.trans hsize) hi
    · exact hstores i hi
  -- Put together again, the pieces that were read are the content.
  rw [readInto, hread]
  show Except.ok (Except.ok (), Bytes.join _ ++ _) = _
  rw [Bytes.join_pieces hsize, ← hbuffer]
  simp

/-- A block whose pages hold the pieces of some content holds the content, and is not marked. -/
theorem Able.holds_of_stores (h : drive.Able) {content : Bytes}
    (hsize : content.size = drive.chip.pagesPerBlock * drive.geometry.pageBytes)
    (hpages : ∀ i < drive.chip.pagesPerBlock,
      drive.Stores (index * drive.chip.pagesPerBlock + i)
        (content.piece drive.geometry.pageBytes i)) :
    drive.Holds index content ∧ drive.isMarked index = false := by
  constructor
  · rw [Holds, blockRead_eq]
    exact h.readInto_of_stores hsize (Bytes.size_filled _ _) hpages
  · have hfirst := hpages 0 h.genuine.counted.pagesPerBlock_pos
    rw [Nat.add_zero] at hfirst
    rw [isMarked, Array.getD_eq_getD_getElem?, hfirst.unmarked]
    rfl

theorem Stores.of_eq {page : Nat} {data : Bytes} (h : drive.Stores page data)
    (hgeometry : next.geometry = drive.geometry)
    (hcontent : next.flash.content page = drive.flash.content page)
    (hreference : next.flash.reference page = drive.flash.reference page) :
    next.Stores page data := by
  refine ⟨?_, ?_, ?_⟩
  · rw [hcontent, hgeometry]
    exact h.data_eq
  · rw [hcontent, hreference]
    exact h.undamaged
  · rw [hcontent, hgeometry]
    exact h.unmarked

/-- An erased page stores erased data. -/
theorem Able.stores_erased (h : drive.Able) {page : Nat} {data : Bytes}
    (hdata : data.size = drive.geometry.pageBytes) (hisErased : data.isErased)
    (herased : drive.flash.content page = Bytes.erased drive.chip.rawLen)
    (hreference : drive.flash.reference page = none) : drive.Stores page data := by
  have hfour := Geometry.Fits.four_le_parityStart drive.profile.layout
  have hadd := h.genuine.fits.parityStart_add
  have hroom := h.fitsRaw
  refine ⟨?_, .inl hreference, ?_⟩
  · rw [herased]
    apply Array.ext
    · rw [Array.size_extract, Bytes.size_erased, hdata]
      omega
    · intro i hi hi'
      rw [Bytes.isErased_iff.1 hisErased i hi']
      simp [Bytes.erased, Bytes.filled]
  · rw [herased, Bytes.erased, Bytes.filled, Array.getElem?_replicate, if_pos (by omega)]

/-! ## Requests on an able device -/

/-- A request with valid arguments is carried out, and changes the flash by its effect. -/
theorem Able.exists_perform (h : drive.Able) (request : Request)
    (hvalid : request.Valid drive.geometry drive.chip.pageCount drive.chip.blocks) :
    ∃ result next, drive.perform request = .ok (result, next) ∧
      (∀ outcome, request.outcome? drive.chip drive.profile drive.flash = some outcome →
        result.1 = outcome) ∧
      (drive.on (request.effect drive.chip drive.profile drive.flash result.2.2)).Reads next := by
  obtain ⟨result, next, hperform, hhang, houtcome, heffect⟩ :=
    h.genuine.exists_perform h.fitsRaw h.hang_eq hvalid
  have hkeeps := keeps_of_perform hperform
  exact ⟨result, next, hperform, houtcome,
    ⟨hkeeps.profile_eq, hkeeps.chip_eq, heffect, hhang.trans h.hang_eq.symm⟩⟩

/-- A page written to erased flash stores its data; no other page changes. -/
theorem Able.stores_writePage (h : drive.Able) {page : Nat} {data : Bytes}
    (hdata : data.size = drive.geometry.pageBytes)
    (herased : drive.flash.content page = Bytes.erased drive.chip.rawLen) (answered : Bytes)
    (flash : Flash)
    (hflash : flash = (Request.writePage page data (Bytes.erased drive.geometry.spareSize)).effect
      drive.chip drive.profile drive.flash answered) :
    (drive.on flash).Stores page data ∧ flash.isFailing = drive.flash.isFailing ∧
      ∀ other ≠ page, drive.KeepsPage other flash := by
  have hfour := Geometry.Fits.four_le_parityStart drive.profile.layout
  have hadd := h.genuine.fits.parityStart_add
  have hroom := h.fitsRaw
  -- The spare bytes go to flash erased but for the two that say that the page has been written.
  have hfirst : (Device.sealed (Device.sealed ((Bytes.erased drive.geometry.spareSize).extract 0
      drive.profile.layout.parityStart) 3) 2)[0]? = some erasedByte :=
    Device.getElem?_zero_sealed h.genuine.fits
  obtain ⟨spare, hspare, hmark⟩ : ∃ spare : Bytes,
      (Request.writePage page data (Bytes.erased drive.geometry.spareSize)).effect drive.chip
        drive.profile drive.flash answered =
      drive.flash.program page (rawPage drive.chip.rawLen data spare)
        (drive.profile.geometry.eccEnabled &&
          !drive.flash.isFailing (page / drive.chip.pagesPerBlock)) ∧
      spare[0]? = some erasedByte :=
    ⟨_, rfl, (Array.getElem?_append_left (Array.getElem?_eq_some_iff.1 hfirst).1).trans hfirst⟩
  rw [hspare] at hflash
  subst hflash
  simp only [Flash.program, herased, FlashArray.merge_erased]
  refine ⟨⟨?_, ?_, ?_⟩, trivial, fun other hother => ?_⟩
  · simp only [on_flash, on_geometry, Function.update_self, rawPage, Array.extract_extract]
    rw [← hdata, Nat.min_eq_left (by omega), Array.append_assoc,
      Array.extract_append]
    simp
  · simp only [on_flash, Function.update_self]
    split
    · exact .inr rfl
    · exact .inl rfl
  · simp only [on_flash, on_geometry, Function.update_self]
    rw [← hdata, rawPage, Array.append_assoc]
    have hlen := (Array.getElem?_eq_some_iff.1 hmark).1
    rw [Array.getElem?_extract, Array.size_append, Array.size_append, if_pos (by omega),
      Nat.zero_add, Array.getElem?_append_right (Nat.le_refl _), Nat.sub_self,
      Array.getElem?_append_left hlen, hmark]
  · exact ⟨Function.update_of_ne hother _ _, Function.update_of_ne hother _ _⟩

end Drive

end Sim

namespace Controller

open Sim

variable {controller next : Controller Device} {flash : Flash} {index : Nat}

/-- A controller that has come to rest again on other flash. -/
structure Moves (controller : Controller Device) (flash : Flash) (next : Controller Device) :
    Prop where
  steady : next.Steady
  reads : (controller.drive.on flash).Reads next.drive

theorem Moves.of_reads (hnext : next.Steady) (hreads : controller.drive.Reads next.drive) :
    controller.Moves controller.drive.flash next := ⟨hnext, hreads⟩

theorem Moves.trans {after : Flash} {last : Controller Device} (h : controller.Moves flash next)
    (h' : next.Moves after last) : controller.Moves after last :=
  ⟨h'.steady, h'.reads.profile_eq.trans h.reads.profile_eq,
    h'.reads.chip_eq.trans h.reads.chip_eq, h'.reads.flash_eq,
    h'.reads.hang_eq.trans h.reads.hang_eq⟩

theorem Moves.able (h : controller.Moves flash next) (hable : controller.drive.Able) :
    next.drive.Able :=
  hable.of_reads h.reads h.steady.isWhole

theorem Moves.ready (h : controller.Moves flash next) (hready : controller.drive.Ready) :
    next.drive.Ready :=
  hready.of_reads h.reads h.steady.isWhole

theorem Moves.able_on (h : controller.Moves flash next) (hable : controller.drive.Able) :
    (controller.drive.on flash).Able :=
  (h.able hable).of_reads h.reads.symm
    (h.reads.symm.flash_eq ▸ h.reads.chip_eq ▸ h.steady.isWhole)

theorem eq_of_map_done {r : Except Error Unit} {isFailing : Bool} {e : Error}
    (h : (r.map fun _ => Answer.done) = if isFailing then .error e else .ok .done) :
    r = if isFailing then .error e else .ok () := by
  cases isFailing <;> cases r <;> cases h <;> rfl

section

variable (h : controller.Steady) (hable : controller.drive.Able)
  (hindex : index < controller.drive.chip.blocks)

include h hable hindex

/-- A sound block is erased; a failing one stays as it is. -/
theorem run_eraseBlock : ∃ next, (eraseBlock index).run.run controller =
      .ok (if controller.drive.flash.isFailing index then .error (.eraseFailed index) else .ok (),
        next) ∧
    controller.Moves ((Request.eraseBlock index).effect controller.drive.chip
      controller.drive.profile controller.drive.flash #[]) next := by
  obtain ⟨result, drive, hperform, houtcome, hreads⟩ :=
    hable.exists_perform (.eraseBlock index) hindex
  have hfollows := follows_eraseBlock h.rests hable.genuine.counted.blocks_eq hindex
  rw [hperform] at hfollows
  obtain ⟨r, next, hrun, hresult, hrests, hdrive⟩ := hfollows.exists_of_ok
  have hr := eq_of_map_done ((congrArg Prod.fst hresult).symm.trans (houtcome _ rfl))
  have hsteady := h.of_keeps hrests (hdrive ▸ Drive.keeps_of_perform hperform)
  exact ⟨next, by rw [hrun, hr], hsteady, hdrive ▸ hreads⟩

/-- The marker is written even if the chip says that this has failed. -/
theorem run_markBad : ∃ outcome next, (markBad index).run.run controller = .ok (outcome, next) ∧
    controller.Moves (controller.drive.flash.mark (index * controller.drive.chip.pagesPerBlock)
      controller.profile.geometry.pageBytes) next := by
  obtain ⟨result, drive, hperform, -, hreads⟩ := hable.exists_perform (.markBad index) hindex
  have hfollows := follows_markBad h.rests hable.genuine.counted.blocks_eq hindex
  rw [hperform] at hfollows
  obtain ⟨r, next, hrun, -, hrests, hdrive⟩ := hfollows.exists_of_ok
  have hsteady := h.of_keeps hrests (hdrive ▸ Drive.keeps_of_perform hperform)
  exact ⟨r, next, hrun, hsteady, hdrive ▸ hreads⟩

end

/-- A page is programmed, unless its block is failing. -/
theorem run_writePage (h : controller.Steady) (hable : controller.drive.Able) {page : Nat}
    (hpage : page < controller.drive.chip.pageCount) {data : Bytes}
    (hdata : data.size = controller.profile.geometry.pageBytes) :
    ∃ answered next, (writePage page data (Bytes.erased controller.profile.geometry.spareSize)).run
        controller =
        .ok ((if controller.drive.flash.isFailing (page / controller.drive.chip.pagesPerBlock)
          then .error (.programFailed page) else .ok (), answered), next) ∧
      controller.Moves ((Request.writePage page data
        (Bytes.erased controller.profile.geometry.spareSize)).effect controller.drive.chip
        controller.drive.profile controller.drive.flash answered) next := by
  obtain ⟨result, drive, hperform, houtcome, hreads⟩ := hable.exists_perform
    (.writePage page data (Bytes.erased controller.profile.geometry.spareSize))
    ⟨hpage, hdata, Bytes.size_erased _⟩
  have hfollows := follows_writePage h.rests hable.genuine.counted.pages_eq hpage hdata
    (Bytes.size_erased _)
  rw [hperform] at hfollows
  obtain ⟨⟨r, answered⟩, next, hrun, hresult, -, hanswered, hrests, hdrive⟩ :=
    hfollows.exists_of_ok
  have hr := eq_of_map_done (hresult.trans (houtcome _ rfl))
  have hsteady := h.of_keeps hrests (hdrive ▸ Drive.keeps_of_perform hperform)
  refine ⟨answered, next, hr ▸ hrun, hsteady, ?_⟩
  rw [hdrive, show answered = result.2.2 from hanswered]
  exact hreads

/-- A block of a fresh K9F1G08 is handed out. -/
theorem exists_fresh_block (hindex : index < 1024) : ∃ controller ready : Controller Device,
    controller.InUse ∧ controller.channel.bus.chip.Genuine ∧
    controller.profile.geometry.pageBytes + controller.profile.geometry.spareSize ≤
      controller.channel.bus.chip.rawLen ∧
    controller.drive = ⟨smallProfile ⟨some 20⟩, Chip.k9f1g08,
      FlashArray.blank.flash Chip.k9f1g08.rawLen, false, ⟨0, 0⟩⟩ ∧
    (block? index).run.run controller = .ok (.ok (some ⟨index⟩), ready) ∧ ready.Steady ∧
    ready.drive = { controller.drive with stats := ready.stats } := by
  obtain ⟨controller, hinUse, hgenuine, hraw, -, -, hdrive⟩ := exists_fresh
  have hgood : controller.drive.isMarked index = false := by
    rw [hdrive]
    exact Drive.isMarked_of_erased (FlashArray.content_blank Chip.k9f1g08.rawLen (index * 64))
  have hblocks : controller.drive.chip.blocks = 1024 := by
    rw [hdrive]
    rfl
  obtain ⟨ready, hrun, hready, hreads⟩ :=
    run_block? hinUse.steady (hinUse.steady.genuine hgenuine) (hblocks ▸ hindex)
  rw [hgood, if_neg Bool.false_ne_true] at hrun
  exact ⟨controller, ready, hinUse, hgenuine, hraw, hdrive, hrun, hready, hreads.eq_with⟩

end Controller

end NandFlash
