import NandFlash.Proofs.Sim.Genuine
import NandFlash.Proofs.Sim.InUse

/-!
# What requests do to the flash

On a genuine chip a controller is an abstract flash: a map of pages and a map of reference copies.
`Request.effect` says what each request makes of the two, in terms of the caller's bytes and of the
parity that the call returns. The main statement is that a run of requests has just these effects,
one after the other.
-/

namespace NandFlash

namespace Bytes

/-- Laying one stretch behind another over a longer buffer puts them before its tail. -/
theorem overlay_overlay_eq_append {target data spare : Bytes}
    (h : data.size + spare.size ≤ target.size) :
    (target.overlay 0 data).overlay data.size spare =
      data ++ spare ++ target.extract (data.size + spare.size) target.size := by
  apply Array.ext_getElem?
  intro i
  simp only [getElem?_overlay, size_overlay, Nat.sub_zero, Array.getElem?_append,
    Array.getElem?_extract, Array.size_append]
  grind

end Bytes

theorem Geometry.eccEnabled_eq (g : Geometry) : g.eccEnabled = decide (g.strength ≠ .none) :=
  Bool.eq_iff_iff.2 (by simp [eccEnabled])

open Sim

/-! ## Effects -/

namespace Sim

namespace Flash

/-- Clear the two bytes of a page that mark a block as bad. -/
def mark (flash : Flash) (row column : Nat) : Flash :=
  { flash with
    content := Function.update flash.content row
      (((flash.content row).setIfInBounds column 0).setIfInBounds (column + 1) 0)
    reference := Function.update flash.reference row none }

end Flash

/-- A raw page: data, spare area, and erased bytes as far as the page goes. -/
def rawPage (rawLen : Nat) (data spare : Bytes) : Bytes :=
  data ++ spare ++ Bytes.erased (rawLen - (data.size + spare.size))

end Sim

/-- What a request makes of the flash of a chip, given the spare bytes that it answers. Programming
clears bits: the caller's spare bytes before the parity go to flash with the two bytes that say
that the page has been written set, and behind them the parity that is answered. -/
def Request.effect (chip : Chip) (profile : Profile) (flash : Flash) (answered : Bytes) :
    Request → Flash
  | .writePage page data spare =>
    let parityStart := profile.layout.parityStart
    let user := Device.sealed (Device.sealed (spare.extract 0 parityStart) 3) 2
    let parity := answered.extract parityStart answered.size
    flash.program page (rawPage chip.rawLen data (user ++ parity))
      (profile.geometry.eccEnabled && !flash.isFailing (page / chip.pagesPerBlock))
  | .eraseBlock block =>
    if flash.isFailing block then flash
    else flash.erase chip.rawLen (block * chip.pagesPerBlock) chip.pagesPerBlock
  | .markBad block => flash.mark (block * chip.pagesPerBlock) profile.geometry.pageBytes
  | .readPage .. | .readSpare .. | .isBad _ | .readId | .reset => flash

/-- The outcome of a request on an abstract flash. That of a page read depends on the damage found,
and is left open. -/
def Request.outcome? (chip : Chip) (profile : Profile) (flash : Flash) :
    Request → Option (Except Error Answer)
  | .writePage page _ _ =>
    some (if flash.isFailing (page / chip.pagesPerBlock) then .error (.programFailed page)
      else .ok .done)
  | .eraseBlock block =>
    some (if flash.isFailing block then .error (.eraseFailed block) else .ok .done)
  | .markBad block =>
    some (if flash.isFailing block then .error (.programFailed (block * chip.pagesPerBlock))
      else .ok .done)
  | .isBad block =>
    let marker := (flash.content (block * chip.pagesPerBlock)).getD profile.geometry.pageBytes
      erasedByte
    some (.ok (.marked (marker != erasedByte)))
  | .readId => some (.ok (.id chip.id))
  | .readSpare .. | .reset => some (.ok .done)
  | .readPage .. => none

/-- A run of requests on an abstract flash: each has its outcome, and its effect is what the next
one finds. -/
inductive Sim.Flash.Run (chip : Chip) (profile : Profile) :
    Flash → List (Request × Reply) → Flash → Prop where
  | nil {flash} : Run chip profile flash [] flash
  | cons {flash request reply exchanges after}
    (houtcome : ∀ outcome, request.outcome? chip profile flash = some outcome →
      reply.outcome = outcome)
    (hrest : Run chip profile (request.effect chip profile flash reply.spare) exchanges after) :
    Run chip profile flash ((request, reply) :: exchanges) after

namespace Sim

namespace Device

/-- Setting a mark and cutting may be exchanged. -/
theorem extract_sealed (bytes : Bytes) (i n : Nat) :
    (sealed bytes i).extract 0 n = sealed (bytes.extract 0 n) i := by
  apply Array.ext_getElem?
  intro k
  simp only [sealed, Array.getElem?_extract, Array.size_modify, Array.getElem?_modify]
  grind

/-- The spare bytes before the parity go to flash as they are, with the marks set. -/
theorem extract_encode {g : Geometry} {layout : SpareLayout} (hfits : g.Fits layout) (data : Bytes)
    {spare : Bytes} (hsize : spare.size = g.spareSize) :
    (encode g data spare).extract 0 layout.parityStart =
      sealed (sealed (spare.extract 0 layout.parityStart) 3) 2 := by
  have hadd := hfits.parityStart_add
  rw [← extract_sealed, ← extract_sealed]
  apply Array.ext_getElem?
  intro i
  simp only [Array.getElem?_extract, size_encode hfits.spareSize_le data hsize, size_sealed, hsize,
    Nat.zero_add]
  by_cases hi : i < layout.parityStart
  · rw [if_pos (by omega), if_pos (by omega)]
    unfold encode
    split
    · rfl
    · -- The parity is generated behind `parityStart`, so that the front of the window stays.
      have hmarked : (sealed (sealed spare 3) 2).size ≤ windowLen := by
        rw [size_sealed, size_sealed, hsize]
        exact hfits.spareSize_le
      rw [Window.getElem?_front, if_pos (by omega),
        Window.getElem?_generateParity g data _ (by omega)]
      have hfront := Window.front_overlay_zero Window.erased hmarked
      rw [← hfront, Window.getElem?_front, if_pos (by rw [size_sealed, size_sealed]; omega)]
      simp only [hfront]
  · rw [if_neg (by omega), if_neg (by omega)]

/-- The marks that say that a page has been written leave the bad block marker alone. -/
theorem getElem?_zero_sealed {g : Geometry} {layout : SpareLayout} (hfits : g.Fits layout) :
    (sealed (sealed ((Bytes.erased g.spareSize).extract 0 layout.parityStart) 3) 2)[0]? =
      some erasedByte := by
  have hfour := Geometry.Fits.four_le_parityStart layout
  have hadd := hfits.parityStart_add
  simp only [sealed, Array.getElem?_modify, Array.getElem?_extract, Bytes.erased, Bytes.filled,
    Array.getElem?_replicate, Array.size_replicate]
  rw [if_neg (by decide), if_neg (by decide), if_pos (by omega), if_pos (by omega)]

end Device

namespace Flash

variable {flash : Flash} {rawLen : Nat}

/-- A buffer that is erased but for the marker: two zero bytes. -/
theorem getElem?_marker {column i : Nat} (hi : i < rawLen) :
    ((Bytes.erased rawLen).overlay column Controller.badBlockMarker)[i]? =
      some (if i = column ∨ i = column + 1 then 0 else erasedByte) := by
  rw [Bytes.getElem?_overlay, Bytes.size_erased]
  simp only [Controller.badBlockMarker, Bytes.erased, Bytes.filled]
  grind

/-- Merged with a page, it clears these two bytes. -/
theorem merge_marker {content : Bytes} (h : content.size = rawLen) (column : Nat) :
    FlashArray.merge content ((Bytes.erased rawLen).overlay column Controller.badBlockMarker) =
      (content.setIfInBounds column 0).setIfInBounds (column + 1) 0 := by
  have hkeep : ∀ cell : UInt8, cell &&& erasedByte = cell := fun _ => UInt8.and_neg_one
  apply Array.ext
  · rw [FlashArray.size_merge, Bytes.size_overlay, Bytes.size_erased, h, Nat.min_self,
      Array.size_setIfInBounds, Array.size_setIfInBounds, h]
  · intro i hi hi'
    have hlt : i < rawLen := by
      rw [FlashArray.size_merge, h] at hi
      omega
    have hsize : i < content.size := h.symm ▸ hlt
    have hsize' : i < (content.setIfInBounds column 0).size := by
      rw [Array.size_setIfInBounds]
      exact hsize
    have hmarker : ((Bytes.erased rawLen).overlay column Controller.badBlockMarker)[i]? = _ :=
      getElem?_marker hlt
    have hmerge := FlashArray.getElem?_merge (Array.getElem?_eq_getElem hsize) hmarker
    rw [(Array.getElem?_eq_some_iff.1 hmerge).2,
      Array.getElem_setIfInBounds hsize', Array.getElem_setIfInBounds hsize]
    by_cases hmarked : i = column ∨ i = column + 1
    · rw [if_pos hmarked, UInt8.and_zero]
      rcases hmarked with rfl | rfl
      · rw [if_neg (by omega), if_pos rfl]
      · rw [if_pos rfl]
    · rw [if_neg hmarked, hkeep, if_neg (by omega), if_neg (by omega)]

/-- Programming a page with the marker is marking it. -/
theorem program_marker (h : flash.IsWhole rawLen) (row column : Nat) :
    flash.program row ((Bytes.erased rawLen).overlay column Controller.badBlockMarker) false =
      flash.mark row column := by
  simp only [Flash.program, Flash.mark, merge_marker (h row), Bool.false_eq_true, if_false]

end Flash

namespace Drive

variable {drive : Drive}

/-- The front of a spare area, staged over erased bytes, is found in front of what is staged. -/
theorem extract_staged {front : Nat} {size : Nat} {spare : Bytes} (hsize : spare.size = size)
    (hle : front ≤ size) :
    ((Bytes.erased size).overlay 0 (spare.extract 0 front)).extract 0 front =
      spare.extract 0 front := by
  apply Array.ext_getElem?
  intro i
  simp only [Array.getElem?_extract, Bytes.getElem?_overlay, Array.size_extract,
    Bytes.size_overlay, Bytes.size_erased]
  grind

/-- What goes to flash as the spare area of a page is the caller's bytes with the marks set, and
then the parity. -/
theorem spareFor_eq (hfits : drive.geometry.Fits drive.profile.layout) (data : Bytes)
    {spare : Bytes} (hsize : spare.size = drive.geometry.spareSize) :
    drive.spareFor data spare =
      Device.sealed (Device.sealed (spare.extract 0 drive.profile.layout.parityStart) 3) 2 ++
        (drive.spareFor data spare).extract drive.profile.layout.parityStart
          (drive.spareFor data spare).size ∧
    (drive.spareFor data spare).size = drive.geometry.spareSize := by
  have hadd := hfits.parityStart_add
  have hstaged : ((Bytes.erased drive.geometry.spareSize).overlay 0
      (spare.extract 0 drive.profile.layout.parityStart)).size = drive.geometry.spareSize := by
    rw [Bytes.size_overlay, Bytes.size_erased]
  have hsizeFor := drive.size_spareFor hfits.spareSize_le data spare
  refine ⟨?_, hsizeFor⟩
  -- Of what is staged, the front goes out with the marks set.
  have hencoded := Device.extract_encode hfits data hstaged
  rw [extract_staged hsize (by omega)] at hencoded
  rw [← hencoded]
  show drive.spareFor data spare = (drive.spareFor data spare).extract 0 _ ++ _
  rw [Array.extract_append_extract, Nat.zero_min, Nat.max_eq_right (by omega), Array.extract_size]

namespace Genuine

variable (h : drive.Genuine)
include h

theorem perform_eraseBlock {block : Nat} (hblock : block < drive.chip.blocks) :
    drive.perform (.eraseBlock block) =
      .ok ((outcomeOf (!drive.flash.isFailing block) (.eraseFailed block), #[], #[]),
        { drive with
          flash := if drive.flash.isFailing block then drive.flash
            else drive.flash.erase drive.chip.rawLen (block * drive.chip.pagesPerBlock)
              drive.chip.pagesPerBlock }) := by
  simp only [perform, h.firstRow_eq hblock, h.rowAt_eq .eraseSetup (h.first_lt hblock),
    h.eraseRow_eq drive.flash hblock, bind, Except.bind, pure, Except.pure]

/-- A block is marked even if it fails. -/
theorem perform_markBad {block : Nat} (hblock : block < drive.chip.blocks) :
    drive.perform (.markBad block) =
      .ok ((outcomeOf (!drive.flash.isFailing block)
          (.programFailed (block * drive.chip.pagesPerBlock)), #[], #[]),
        { drive with
          flash := drive.flash.mark (block * drive.chip.pagesPerBlock)
            drive.geometry.pageBytes }) := by
  have hmark : drive.flash.program (block * drive.chip.pagesPerBlock)
      (drive.pageWith drive.geometry.pageBytes Controller.badBlockMarker) false =
      drive.flash.mark (block * drive.chip.pagesPerBlock) drive.geometry.pageBytes :=
    Flash.program_marker h.isWhole _ _
  simp only [perform, h.firstRow_eq hblock, h.rowAt_eq .programSetup (h.first_lt hblock),
    h.programRow_eq drive.flash (h.first_lt hblock), Bool.false_and, hmark,
    Nat.mul_div_cancel _ h.counted.pagesPerBlock_pos, bind, Except.bind, pure, Except.pure]

/-- A page goes to flash if its transfer goes through. -/
theorem perform_writePage {page : Nat} (hpage : page < drive.chip.pageCount) (data spare : Bytes) :
    drive.perform (.writePage page data spare) = (do
      match ← drive.transferOut with
      | some error => return ((.error error, data, spare), drive)
      | none =>
        let isSound := !drive.flash.isFailing (page / drive.chip.pagesPerBlock)
        let parityStart := drive.profile.layout.parityStart
        let written := drive.spareFor data spare
        return ((outcomeOf isSound (.programFailed page), data,
          spare.extract 0 parityStart ++ written.extract parityStart written.size),
          { drive with
            flash := drive.flash.program page
              ((drive.pageWith 0 data).overlay drive.geometry.pageBytes written)
              (decide (drive.geometry.strength ≠ .none) && isSound) })) := by
  rw [perform, h.rowAt_eq .programSetup hpage]
  refine congrArg (drive.transferOut >>= ·) (funext fun failure? => ?_)
  cases failure? with
  | some error => rfl
  | none =>
    simp only [h.programRow_eq drive.flash hpage, bind, Except.bind]

/-- A write that gets through to the chip has the effect of the request. -/
theorem exists_perform_writePage
    (hraw : drive.geometry.pageBytes + drive.geometry.spareSize ≤ drive.chip.rawLen)
    (hhang : drive.hang = false) {page : Nat} (hpage : page < drive.chip.pageCount)
    {data spare : Bytes} (hdata : data.size = drive.geometry.pageBytes)
    (hspare : spare.size = drive.geometry.spareSize) :
    ∃ answered, drive.perform (.writePage page data spare) =
      .ok ((outcomeOf (!drive.flash.isFailing (page / drive.chip.pagesPerBlock))
        (.programFailed page), data, answered),
        { drive with
          flash := (Request.writePage page data spare).effect drive.chip drive.profile drive.flash
            answered }) := by
  obtain ⟨hsplit, hsize⟩ := spareFor_eq h.fits data hspare
  have hadd := h.fits.parityStart_add
  have htransfer : drive.transferOut = .ok none := by
    rw [transferOut, hhang]
    rfl
  -- The buffer that is programmed holds data, spare area and filler.
  have hbuffer : (drive.pageWith 0 data).overlay drive.geometry.pageBytes
      (drive.spareFor data spare) = rawPage drive.chip.rawLen data (drive.spareFor data spare) := by
    rw [pageWith, ← hdata, Bytes.overlay_overlay_eq_append (by rw [Bytes.size_erased]; omega),
      rawPage]
    congr 1
    simp [Bytes.erased, Bytes.filled]
  -- The parity that is answered is the one that went to flash.
  have hanswered : ∀ user parity : Bytes, user.size = drive.profile.layout.parityStart →
      (user ++ parity).extract drive.profile.layout.parityStart (user ++ parity).size =
        parity := by
    intro user parity hlen
    rw [← hlen, Array.extract_append, Array.size_append]
    simp
  have huser : (spare.extract 0 drive.profile.layout.parityStart).size =
      drive.profile.layout.parityStart := by
    rw [Array.size_extract]
    omega
  refine ⟨spare.extract 0 drive.profile.layout.parityStart ++
    (drive.spareFor data spare).extract drive.profile.layout.parityStart
      (drive.spareFor data spare).size, ?_⟩
  rw [h.perform_writePage hpage, htransfer]
  simp only [hbuffer, bind, Except.bind, pure, Except.pure, Request.effect, hanswered _ _ huser]
  rw [← hsplit, Geometry.eccEnabled_eq, geometry]

end Genuine

/-- On a genuine chip a request with valid arguments is carried out and has its effect. -/
theorem Genuine.exists_perform (h : drive.Genuine)
    (hraw : drive.geometry.pageBytes + drive.geometry.spareSize ≤ drive.chip.rawLen)
    (hhang : drive.hang = false) {request : Request}
    (hvalid : request.Valid drive.geometry drive.chip.pageCount drive.chip.blocks) :
    ∃ result next, drive.perform request = .ok (result, next) ∧ next.hang = false ∧
      (∀ outcome, request.outcome? drive.chip drive.profile drive.flash = some outcome →
        result.1 = outcome) ∧
      next.flash = request.effect drive.chip drive.profile drive.flash result.2.2 := by
  have hpos := h.counted.pagesPerBlock_pos
  have houtcome : ∀ block failure, outcomeOf (!drive.flash.isFailing block) failure =
      if drive.flash.isFailing block then .error failure else .ok .done := by
    intro block failure
    cases hfailing : drive.flash.isFailing block <;> rfl
  -- With the row that arrives being the one that was sent, each request comes to its outcome.
  cases request with
  | readPage page data spare =>
    obtain ⟨hpage, -, -⟩ := hvalid
    simp only [perform, h.rowAt_eq .read hpage, Device.readOutcome, hhang, bind, Except.bind,
      Bool.false_eq_true, if_false, pure, Except.pure]
    refine ⟨_, _, rfl, rfl, ?_, rfl⟩
    intro outcome houtcome
    cases houtcome
  | writePage page data spare =>
    obtain ⟨hpage, hdata, hspare⟩ := hvalid
    obtain ⟨answered, hperform⟩ := h.exists_perform_writePage hraw hhang hpage hdata hspare
    refine ⟨_, _, hperform, hhang, ?_, rfl⟩
    rintro _ ⟨⟩
    exact houtcome _ _
  | readSpare page spare =>
    simp only [perform, h.rowAt_eq .read hvalid.1, bind, Except.bind, pure, Except.pure]
    exact ⟨_, _, rfl, hhang, fun _ houtcome => Option.some.inj houtcome, rfl⟩
  | eraseBlock block =>
    refine ⟨_, _, h.perform_eraseBlock hvalid, hhang, ?_, rfl⟩
    rintro _ ⟨⟩
    exact houtcome _ _
  | isBad block =>
    simp only [perform, h.firstRow_eq hvalid, h.rowAt_eq .read (h.first_lt hvalid), bind,
      Except.bind, pure, Except.pure]
    exact ⟨_, _, rfl, hhang, fun _ houtcome => Option.some.inj houtcome, rfl⟩
  | markBad block =>
    refine ⟨_, _, h.perform_markBad hvalid, hhang, ?_, rfl⟩
    rintro _ ⟨⟩
    exact houtcome _ _
  | readId =>
    simp only [perform, h.counted.rowCycles_eq, discard, Functor.discard, Functor.mapConst,
      bind, Except.bind, pure, Except.pure]
    exact ⟨_, _, rfl, hhang, fun _ houtcome => Option.some.inj houtcome, rfl⟩
  | reset => exact ⟨_, _, rfl, hhang, fun _ houtcome => Option.some.inj houtcome, rfl⟩

/-- Serving a request with valid arguments is carrying it out. -/
theorem Genuine.serve_eq (h : drive.Genuine) {request : Request}
    (hvalid : request.Valid drive.geometry drive.chip.pageCount drive.chip.blocks) :
    drive.serve request = (drive.perform request).map fun result =>
      (⟨result.1.1, result.1.2.1, result.1.2.2, result.2.stats⟩, result.2) := by
  have hrefusal := (Request.refusal?_eq_none_iff h.counted.pages_eq h.counted.blocks_eq request).2
    hvalid
  simp only [serve, hrefusal, bind, Except.bind]
  cases drive.perform request <;> rfl

/-- On a chip that does not hang, with room for the spare area, it comes to an end. -/
theorem Genuine.exists_serve (h : drive.Genuine)
    (hraw : drive.geometry.pageBytes + drive.geometry.spareSize ≤ drive.chip.rawLen)
    (hhang : drive.hang = false) {request : Request}
    (hvalid : request.Valid drive.geometry drive.chip.pageCount drive.chip.blocks) :
    ∃ reply next, drive.serve request = .ok (reply, next) ∧ next.hang = false ∧
      (∀ outcome, request.outcome? drive.chip drive.profile drive.flash = some outcome →
        reply.outcome = outcome) ∧
      next.flash = request.effect drive.chip drive.profile drive.flash reply.spare := by
  obtain ⟨result, next, hperform, hnext, houtcome, heffect⟩ := h.exists_perform hraw hhang hvalid
  refine ⟨⟨result.1, result.2.1, result.2.2, next.stats⟩, next, ?_, hnext, houtcome, heffect⟩
  rw [h.serve_eq hvalid, hperform]
  rfl

end Drive

end Sim

namespace Controller

variable {controller : Controller Device}

theorem Steady.genuine (h : controller.Steady) (hchip : controller.drive.chip.Genuine) :
    controller.drive.Genuine :=
  ⟨hchip.counted h.decodes, h.rests.settled.fits, h.isWhole⟩

/-- A controller at rest serves a request as its drive does. -/
theorem Steady.run_serve (h : controller.Steady) {request : Request} {reply : Reply} {drive : Drive}
    (hserve : controller.drive.serve request = .ok (reply, drive)) :
    ∃ next, (serve request).run controller = .ok (reply, next) ∧ next.Steady ∧
      next.drive = drive := by
  have hfollows := follows_serve h.rests request
  rw [hserve] at hfollows
  obtain ⟨reply', next, hrun, rfl, hrests, rfl⟩ := hfollows.exists_of_ok
  exact ⟨next, hrun, h.of_keeps hrests (Drive.keeps_of_serve hserve), rfl⟩

/-- What a drive carries out, a controller at rest serves. -/
theorem Steady.run_serve_of_perform (h : controller.Steady) (hgenuine : controller.drive.Genuine)
    {request : Request} {result : Except Error Answer × Bytes × Bytes} {drive : Drive}
    (hvalid : request.Valid controller.drive.geometry controller.drive.chip.pageCount
      controller.drive.chip.blocks)
    (hperform : controller.drive.perform request = .ok (result, drive)) :
    ∃ reply next, (serve request).run controller = .ok (reply, next) ∧ next.drive = drive := by
  have hserve := hgenuine.serve_eq hvalid
  rw [hperform] at hserve
  obtain ⟨next, hrun, -, hnext⟩ := h.run_serve hserve
  exact ⟨_, next, hrun, hnext⟩

/-- What a controller at rest has served, its drive has. -/
theorem Steady.drive_serve (h : controller.Steady) {request : Request} {reply : Reply}
    {next : Controller Device} (hrun : (serve request).run controller = .ok (reply, next)) :
    next.Steady ∧ controller.drive.serve request = .ok (reply, next.drive) := by
  have hfollows := follows_serve h.rests request
  rw [hrun] at hfollows
  obtain ⟨⟨reply', drive⟩, hserve, rfl, hrests, rfl⟩ := hfollows.exists_of_run
  exact ⟨h.of_keeps hrests (Drive.keeps_of_serve hserve), hserve⟩

/-- A run of requests is one on the flash, by induction from one request. -/
theorem Steady.run_serveAll (h : controller.Steady) (hchip : controller.drive.chip.Genuine)
    (hraw : controller.profile.geometry.pageBytes + controller.profile.geometry.spareSize ≤
      controller.drive.chip.rawLen)
    (hhang : controller.drive.hang = false) {requests : List Request}
    (hvalid : ∀ request ∈ requests, request.Valid controller.profile.geometry
      controller.drive.chip.pageCount controller.drive.chip.blocks) :
    ∃ replies next, (requests.mapM serve).run controller = .ok (replies, next) ∧
      Flash.Run controller.drive.chip controller.profile controller.drive.flash
        (requests.zip replies) next.drive.flash := by
  induction requests generalizing controller with
  | nil => exact ⟨[], controller, rfl, .nil⟩
  | cons request requests ih =>
    have hgenuine := h.genuine hchip
    obtain ⟨reply, drive, hserve, hhang', houtcome, heffect⟩ :=
      hgenuine.exists_serve hraw hhang (hvalid request List.mem_cons_self)
    obtain ⟨next, hrun, hnext, rfl⟩ := h.run_serve hserve
    -- A request keeps profile and chip, so that those that follow are valid as well.
    have hkeeps := Drive.keeps_of_serve hserve
    have hprofile : next.profile = controller.profile := hkeeps.profile_eq
    obtain ⟨replies, last, hrunAll, hall⟩ := ih hnext (hkeeps.chip_eq ▸ hchip)
      (by rw [hprofile, hkeeps.chip_eq]; exact hraw) hhang' (by
        rw [hprofile, hkeeps.chip_eq]
        exact fun other hother => hvalid other (List.mem_cons_of_mem _ hother))
    refine ⟨reply :: replies, last, ?_, ?_⟩
    · rw [List.mapM_cons]
      exact run_step hrun (run_step hrunAll rfl)
    · rw [heffect, hkeeps.chip_eq, hprofile] at hall
      exact .cons houtcome hall

/-- A controller refines an abstract flash: on a genuine chip whose pages have room for the
geometry, and whose engine does not hang, every run of requests with valid arguments comes to an
end, and is a run on the flash: it changes contents and reference copies by the effects of its
requests and by nothing else. -/
theorem refines_flash (h : controller.InUse) (hchip : controller.channel.bus.chip.Genuine)
    (hraw : controller.profile.geometry.pageBytes + controller.profile.geometry.spareSize ≤
      controller.channel.bus.chip.rawLen)
    (hhang : controller.channel.bus.engine.hang = false) (requests : List Request)
    (hvalid : ∀ request ∈ requests, request.Valid controller.profile.geometry
      controller.channel.bus.chip.pageCount controller.channel.bus.chip.blocks) :
    ∃ replies next, (requests.mapM serve).run controller = .ok (replies, next) ∧
      Flash.Run controller.channel.bus.chip controller.profile controller.channel.bus.flash
        (requests.zip replies) next.channel.bus.flash :=
  h.steady.run_serveAll hchip hraw hhang hvalid

/-- A page is programmed twice, read, and its block marked bad. -/
theorem refines_flash_rewritten_page : ∃ controller : Controller Device,
    controller.InUse ∧ controller.channel.bus.chip.Genuine ∧
    controller.profile.geometry.pageBytes + controller.profile.geometry.spareSize ≤
      controller.channel.bus.chip.rawLen ∧
    controller.channel.bus.engine.hang = false ∧
    let requests : List Request := [.writePage 64 (Bytes.filled 2048 0x5A) (Bytes.erased 64),
      .writePage 64 (Bytes.filled 2048 0xA5) (Bytes.erased 64),
      .readPage 64 (Bytes.filled 2048 0) (Bytes.filled 64 0), .markBad 1]
    (∀ request ∈ requests, request.Valid controller.profile.geometry
      controller.channel.bus.chip.pageCount controller.channel.bus.chip.blocks) ∧
    ∃ replies next, (requests.mapM serve).run controller = .ok (replies, next) ∧
      Flash.Run controller.channel.bus.chip controller.profile controller.channel.bus.flash
        (requests.zip replies) next.channel.bus.flash := by
  obtain ⟨controller, hinUse, hdrive⟩ := exists_inUse ⟨some 20⟩
  have hchip : controller.channel.bus.chip = Chip.k9f1g08 := congrArg Drive.chip hdrive
  have hprofile : controller.profile = smallProfile ⟨some 20⟩ := congrArg Drive.profile hdrive
  have hgenuine : controller.channel.bus.chip.Genuine := hchip ▸ Chip.genuine_k9f1g08
  have hraw : controller.profile.geometry.pageBytes + controller.profile.geometry.spareSize ≤
      controller.channel.bus.chip.rawLen := by
    rw [hprofile, hchip]
    decide
  have hhang : controller.channel.bus.engine.hang = false := congrArg Drive.hang hdrive
  refine ⟨controller, hinUse, hgenuine, hraw, hhang, ?_⟩
  intro requests
  have hvalid : ∀ request ∈ requests, request.Valid controller.profile.geometry
      controller.channel.bus.chip.pageCount controller.channel.bus.chip.blocks := by
    rw [hprofile, hchip]
    simp only [requests, List.forall_mem_cons, Request.Valid, Bytes.size_filled, Bytes.size_erased,
      List.not_mem_nil, false_imp_iff, implies_true, and_true]
    decide
  exact ⟨hvalid, refines_flash hinUse hgenuine hraw hhang requests hvalid⟩

end Controller

end NandFlash
