import NandFlash.Proofs.Sim.Effect
import NandFlash.Proofs.Sim.Mending

/-!
# Reading back a damaged page

A page that has been written with ECC keeps its reference copy until it is programmed again, its
block is erased, or it is marked. Whatever bits flip in the meantime, a read puts back every field
that has no more damaged bytes than its codeword can correct, and the page is lost at the first
field that has more.
-/

namespace NandFlash

open Sim

/-! ## Events that leave a reference copy alone -/

/-- Does a request program a page or erase its block? Marking a block programs its first page. -/
def Request.Alters (chip : Chip) (page : Nat) : Request → Prop
  | .writePage other _ _ => other = page
  | .eraseBlock block => block = page / chip.pagesPerBlock
  | .markBad block => block * chip.pagesPerBlock = page
  | .readPage .. | .readSpare .. | .isBad _ | .readId | .reset => False

/-- An event that does not alter a page on purpose, nor hangs the engine. It may flip bits of the
page all the same. -/
def Event.Spares (chip : Chip) (page : Nat) : Event → Prop
  | .request asked => ¬asked.Alters chip page
  | .setHang hang => hang = false
  | .inject .. | .wearOut _ => True

theorem Request.reference_effect {chip : Chip} {page : Nat} {request : Request}
    (h : ¬request.Alters chip page) (profile : Profile) (flash : Flash) (answered : Bytes) :
    (request.effect chip profile flash answered).reference page = flash.reference page := by
  cases request with
  | writePage other data spare =>
    exact Function.update_of_ne (fun heq => h heq.symm) _ _
  | eraseBlock block =>
    simp only [Request.effect]
    split
    · rfl
    · refine if_neg fun hrange => h ?_
      exact (Nat.div_eq_of_lt_le hrange.1 (by rw [Nat.succ_mul]; exact hrange.2)).symm
  | markBad block => exact Function.update_of_ne (fun heq => h heq.symm) _ _
  | readPage | readSpare | isBad | readId | reset => rfl

/-! ## What a read answers -/

/-- The reply to a read of a damaged page, given the data that were written, the raw page as it
was then and as it is now, and the statistics before the read. -/
structure Reply.Restores (profile : Profile) (page : Nat) (data before now : Bytes)
    (stats : EccStats) (result : Reply) : Prop where
  /-- If every field can be corrected, the data are those written, and so is every spare byte of a
  codeword; each damaged field is reported, and every repair is counted. -/
  repaired : let g := profile.geometry
    let parityStart := profile.layout.parityStart
    let count := fun field => (g.damagedBytes parityStart before now field).length
    (∀ field < g.fieldCount, count field ≤ g.correctable) →
      result.outcome = .ok (.repaired
        (((List.range g.fieldCount).filter fun field => 0 < count field).map
          (reportOf g parityStart before now))) ∧
      result.data = data ∧
      (∀ i < g.spareSize, result.spare[i]? =
        if (g.owner? parityStart (g.pageBytes + i)).isSome then before[g.pageBytes + i]?
        else now[g.pageBytes + i]?) ∧
      result.stats =
        ⟨stats.corrected + ((List.range g.fieldCount).map count).sum, stats.failed⟩
  /-- Otherwise the page is lost at its first field that cannot be corrected. Repairs made before
  that are counted all the same. -/
  lost : let g := profile.geometry
    let parityStart := profile.layout.parityStart
    let count := fun field => (g.damagedBytes parityStart before now field).length
    ∀ lost < g.fieldCount, g.correctable < count lost →
      (∀ field < lost, count field ≤ g.correctable) →
      result.outcome = .error (.uncorrectable page (lost + 1)) ∧
      result.stats =
        ⟨stats.corrected + ((List.range lost).map count).sum, stats.failed + 1⟩

namespace Sim

theorem FlashArray.merge_erased (n : Nat) (buffer : Bytes) :
    FlashArray.merge (Bytes.erased n) buffer = buffer.extract 0 n := by
  have hkeep : ∀ byte : UInt8, erasedByte &&& byte = byte := fun _ => UInt8.neg_one_and
  apply Array.ext_getElem?
  intro i
  simp only [FlashArray.merge, Bytes.erased, Bytes.filled, Array.getElem?_zipWith,
    Array.getElem?_replicate, Array.getElem?_extract]
  by_cases hi : i < min n buffer.size
  · rw [if_pos (by omega), if_pos (by omega), Nat.zero_add,
      Array.getElem?_eq_getElem (show i < buffer.size by omega)]
    simp only [hkeep]
  · rw [if_neg (show ¬i < min n buffer.size - 0 by omega)]
    by_cases hn : i < n
    · rw [if_pos hn, Array.getElem?_eq_none (show buffer.size ≤ i by omega)]
    · rw [if_neg hn]

namespace Drive

variable {drive next : Drive} {page : Nat}

/-- A request with arguments that do not fit is refused. -/
theorem exists_refuse (h : drive.Genuine) (hsettled : drive.profile.Settled) {request : Request}
    (hvalid : ¬request.Valid drive.geometry drive.chip.pageCount drive.chip.blocks) :
    ∃ reply e, drive.serve request = .ok (reply, drive) ∧ reply.outcome = .error e := by
  obtain ⟨refusal?, hrefusal⟩ := Request.exists_refusal hsettled request
  cases refusal? with
  | none =>
    exact absurd ((Request.refusal?_eq_none_iff h.counted.pages_eq h.counted.blocks_eq
      request).1 hrefusal) hvalid
  | some e =>
    refine ⟨⟨.error e, request.data, request.spare, drive.stats⟩, e, ?_, rfl⟩
    rw [serve, hrefusal]
    rfl

/-- An event that spares a page keeps its reference copy. -/
theorem Genuine.exists_play (h : drive.Genuine) (hsettled : drive.profile.Settled)
    (hraw : drive.geometry.pageBytes + drive.geometry.spareSize ≤ drive.chip.rawLen)
    (hhang : drive.hang = false) {event : Event} (hspares : event.Spares drive.chip page) :
    ∃ reply next, drive.play event = .ok (reply, next) ∧ next.hang = false ∧
      next.flash.reference page = drive.flash.reference page := by
  cases event with
  | request request =>
    by_cases hvalid : request.Valid drive.geometry drive.chip.pageCount drive.chip.blocks
    · obtain ⟨reply, next, hserve, hnext, -, heffect⟩ := h.exists_serve hraw hhang hvalid
      refine ⟨some reply, next, ?_, hnext, ?_⟩
      · rw [play, hserve]
        rfl
      · rw [heffect]
        exact Request.reference_effect hspares _ _ _
    · obtain ⟨reply, e, hserve, -⟩ := exists_refuse h hsettled hvalid
      refine ⟨some reply, drive, ?_, hhang, rfl⟩
      rw [play, hserve]
      rfl
  | inject page offset mask => exact ⟨_, _, rfl, hhang, rfl⟩
  | wearOut block => exact ⟨_, _, rfl, hhang, rfl⟩
  | setHang hang => exact ⟨_, _, rfl, hspares, rfl⟩

/-- A page that is written to erased flash is stored as it is, and so is its reference copy. -/
theorem Genuine.stored_of_serve (h : drive.Genuine) (hsettled : drive.profile.Settled)
    (hraw : drive.geometry.pageBytes + drive.geometry.spareSize ≤ drive.chip.rawLen)
    (hhang : drive.hang = false) (hstrength : drive.geometry.strength ≠ .none)
    {data spare : Bytes} (herased : drive.flash.content page = Bytes.erased drive.chip.rawLen)
    {reply : Reply} (hserve : drive.serve (.writePage page data spare) = .ok (reply, next))
    (hdone : reply.outcome = .ok .done) :
    page < drive.chip.pageCount ∧ next.hang = false ∧
      next.flash.reference page = some (next.flash.content page) ∧
      (next.flash.content page).extract 0 drive.geometry.pageBytes = data := by
  -- A write that is refused does not end well, so the arguments were valid.
  by_cases hvalid : (Request.writePage page data spare).Valid drive.geometry drive.chip.pageCount
      drive.chip.blocks
  · obtain ⟨reply', next', hserve', hnext, houtcome, heffect⟩ := h.exists_serve hraw hhang hvalid
    cases hserve.symm.trans hserve'
    obtain ⟨hpage, hdata, -⟩ := hvalid
    have hsound : drive.flash.isFailing (page / drive.chip.pagesPerBlock) = false := by
      have hreply := houtcome _ rfl
      rw [hdone] at hreply
      split at hreply
      · cases hreply
      · next hsound => simpa using hsound
    have hecc : drive.profile.geometry.eccEnabled = true := by
      rw [Geometry.eccEnabled_eq]
      exact decide_eq_true hstrength
    refine ⟨hpage, hnext, ?_, ?_⟩
    · rw [heffect]
      simp only [Request.effect, Flash.program, Function.update_self, hecc, hsound, Bool.not_false,
        Bool.and_true, if_true]
    · rw [heffect]
      simp only [Request.effect, Flash.program, Function.update_self, herased,
        FlashArray.merge_erased, rawPage, Array.extract_extract]
      rw [← hdata, Nat.min_eq_left (by omega), Array.append_assoc, Array.extract_append]
      simp
  · obtain ⟨reply', e, hserve', hrefused⟩ := exists_refuse h hsettled hvalid
    cases hserve.symm.trans hserve'
    cases hdone.symm.trans hrefused

/-- What the loop over the reports comes to is the reply to a read. -/
theorem Genuine.serve_readPage (h : drive.Genuine) (hhang : drive.hang = false) {data spare : Bytes}
    (hvalid : (Request.readPage page data spare).Valid drive.geometry drive.chip.pageCount
      drive.chip.blocks) {outcome : Except Error Unit} {repairs : Repairs}
    (hall : Repairs.all drive.profile.poll drive.geometry page 0
      (Engine.damage drive.geometry (drive.flash.content page) (drive.flash.reference page))
      ⟨data.overlay 0 ((drive.flash.content page).extract 0 drive.geometry.pageBytes),
        drive.spareOf page, drive.stats, []⟩ = (outcome, repairs)) :
    drive.serve (.readPage page data spare) = .ok (⟨(outcome.map fun _ => repairs.reports).map
      .repaired, repairs.data, repairs.spare, repairs.stats⟩,
      { drive with stats := repairs.stats }) := by
  simp only [h.serve_eq hvalid, perform, h.rowAt_eq .read hvalid.1, Device.readOutcome, hhang, bind,
    Except.bind, Bool.false_eq_true, if_false]
  rw [hall]
  rfl

/-- A read of a page with a reference copy: the bytes of every field are put back, or the page is
lost at the first field that has more damaged bytes than can be corrected. -/
theorem Genuine.exists_restore (h : drive.Genuine)
    (hraw : drive.geometry.pageBytes + drive.geometry.spareSize ≤ drive.chip.rawLen)
    (hhang : drive.hang = false) (hstrength : drive.geometry.strength ≠ .none)
    (hpoll : drive.profile.poll.Allows drive.geometry.fieldCount) {data spare : Bytes}
    (hvalid : (Request.readPage page data spare).Valid drive.geometry drive.chip.pageCount
      drive.chip.blocks) {before : Bytes} (hbefore : before.size = drive.chip.rawLen)
    (hreference : drive.flash.reference page = some before) :
    let parityStart := drive.profile.layout.parityStart
    let now := drive.flash.content page
    let count := fun field => (drive.geometry.damagedBytes parityStart before now field).length
    ∃ reply next, drive.serve (.readPage page data spare) = .ok (reply, next) ∧
      ((∀ field < drive.geometry.fieldCount, count field ≤ drive.geometry.correctable) →
        ∃ repairs, Repairs.Restored drive.geometry parityStart before now
          (List.range drive.geometry.fieldCount) drive.stats repairs ∧
        reply = ⟨.ok (.repaired repairs.reports), repairs.data, repairs.spare, repairs.stats⟩) ∧
      ∀ lost < drive.geometry.fieldCount, drive.geometry.correctable < count lost →
        (∀ field < lost, count field ≤ drive.geometry.correctable) →
        ∃ repairs, Repairs.Restored drive.geometry parityStart before now (List.range lost)
          drive.stats repairs ∧
        reply = ⟨.error (.uncorrectable page (lost + 1)), repairs.data, repairs.spare,
          repairs.debit.stats⟩ := by
  intro parityStart now count
  have hdata : data.size = drive.geometry.pageBytes := hvalid.2.1
  have hnow : now.size = drive.chip.rawLen := h.isWhole page
  have hspare : drive.spareOf page = now.extract drive.geometry.pageBytes
      (drive.geometry.pageBytes + drive.geometry.spareSize) :=
    Device.pageBytes_eq_extract (by rw [hnow]; exact hraw)
  obtain ⟨start, hstart⟩ : ∃ start : Repairs, start =
      ⟨data.overlay 0 (now.extract 0 drive.geometry.pageBytes), drive.spareOf page, drive.stats,
        []⟩ := ⟨_, rfl⟩
  have hsize : start.data.size = drive.geometry.pageBytes := by
    rw [hstart, Bytes.size_overlay, hdata]
  -- Before any repair the two buffers are the page as it is in flash.
  have hbuffers : start.data ++ start.spare =
      now.extract 0 (drive.geometry.pageBytes + drive.geometry.spareSize) := by
    rw [hstart, Bytes.overlay_zero_of_size_eq (by rw [Array.size_extract, hdata]; omega), hspare,
      Array.extract_append_extract, Nat.zero_min, Nat.max_eq_right (by omega)]
  have hreports : start.reports = [] := by rw [hstart]
  have hstats : start.stats = drive.stats := by rw [hstart]
  -- The two outcomes are two runs of the loop over the reports.
  have hserve : ∀ {outcome repairs}, Repairs.all drive.profile.poll drive.geometry page 0
      (Engine.damage drive.geometry now (some before)) start = (outcome, repairs) →
      drive.serve (.readPage page data spare) = .ok (⟨(outcome.map fun _ => repairs.reports).map
        .repaired, repairs.data, repairs.spare, repairs.stats⟩,
        { drive with stats := repairs.stats }) := by
    intro outcome repairs hall
    rw [hstart, ← hreference] at hall
    exact h.serve_readPage hhang hvalid hall
  refine ⟨_, _, hserve rfl, ?_, ?_⟩
  · intro hall
    obtain ⟨repairs, hrun, hrestored⟩ := Repairs.all_damage_of_le page hstrength
      (hnow.trans hbefore.symm) h.fits (by omega) hpoll hall hsize hbuffers hreports
    rw [hstats] at hrestored
    refine ⟨repairs, hrestored, ?_⟩
    rw [hrun]
    rfl
  · intro lost hlost hmany hlower
    obtain ⟨repairs, hrun, hrestored⟩ := Repairs.all_damage_of_lt page hstrength
      (hnow.trans hbefore.symm) h.fits (by omega) hpoll hlost hmany hlower hsize hbuffers hreports
    rw [hstats] at hrestored
    refine ⟨repairs, hrestored, ?_⟩
    rw [hrun]
    rfl

end Drive

end Sim

namespace Controller

variable {controller : Controller Device} {page : Nat}

/-- A controller at rest plays an event as its drive does. -/
theorem Steady.run_play (h : controller.Steady) {event : Event} {reply : Option Reply}
    {drive : Drive} (hplay : controller.drive.play event = .ok (reply, drive)) :
    ∃ next, (Controller.play event).run controller = .ok (reply, next) ∧ next.Steady ∧
      next.drive = drive := by
  have hfollows := follows_play h.rests event
  rw [hplay] at hfollows
  obtain ⟨reply', next, hrun, rfl, hrests, rfl⟩ := hfollows.exists_of_ok
  exact ⟨next, hrun, h.of_keeps hrests (Drive.keeps_of_play hplay), rfl⟩

/-- A session that spares a page comes to an end, and keeps the page's reference copy; by
induction from one event. -/
theorem Steady.run_playAll (h : controller.Steady) (hchip : controller.drive.chip.Genuine)
    (hraw : controller.profile.geometry.pageBytes + controller.profile.geometry.spareSize ≤
      controller.drive.chip.rawLen)
    (hhang : controller.drive.hang = false) {events : List Event}
    (hspares : ∀ event ∈ events, event.Spares controller.drive.chip page) :
    ∃ replies next, (events.mapM Controller.play).run controller = .ok (replies, next) ∧ next.Steady ∧
      next.drive.chip = controller.drive.chip ∧ next.drive.profile = controller.drive.profile ∧
      next.drive.hang = false ∧
      next.drive.flash.reference page = controller.drive.flash.reference page := by
  induction events generalizing controller with
  | nil => exact ⟨[], controller, rfl, h, rfl, rfl, hhang, rfl⟩
  | cons event events ih =>
    rw [List.forall_mem_cons] at hspares
    obtain ⟨reply, drive, hplay, hhang', href⟩ :=
      (h.genuine hchip).exists_play h.rests.settled hraw hhang hspares.1
    obtain ⟨next, hrun, hnext, rfl⟩ := h.run_play hplay
    -- The chip stays the same, so that later events spare the page in the same terms.
    have hkeeps := Drive.keeps_of_play hplay
    have hprofile : next.profile = controller.profile := hkeeps.profile_eq
    obtain ⟨replies, last, hrunAll, hlast, hchip', hprofile', hhang'', href'⟩ :=
      ih hnext (hkeeps.chip_eq ▸ hchip) (by rw [hprofile, hkeeps.chip_eq]; exact hraw) hhang'
        (by rw [hkeeps.chip_eq]; exact hspares.2)
    refine ⟨reply :: replies, last, ?_, hlast, hchip'.trans hkeeps.chip_eq,
      hprofile'.trans hkeeps.profile_eq, hhang'', href'.trans href⟩
    rw [List.mapM_cons]
    exact run_step hrun (run_step hrunAll rfl)

/-- A fresh K9F1G08 is fit for everything. -/
theorem exists_fresh : ∃ controller : Controller Device,
    controller.InUse ∧ controller.channel.bus.chip.Genuine ∧
    controller.profile.geometry.pageBytes + controller.profile.geometry.spareSize ≤
      controller.channel.bus.chip.rawLen ∧
    controller.channel.bus.engine.hang = false ∧ controller.profile.poll.Allows 16 ∧
    controller.drive = ⟨smallProfile ⟨some 20⟩, Chip.k9f1g08,
      FlashArray.blank.flash Chip.k9f1g08.rawLen, false, ⟨0, 0⟩⟩ := by
  obtain ⟨controller, hinUse, hdrive⟩ := exists_inUse ⟨some 20⟩
  have hchip : controller.channel.bus.chip = Chip.k9f1g08 := congrArg Drive.chip hdrive
  have hprofile : controller.profile = smallProfile ⟨some 20⟩ := congrArg Drive.profile hdrive
  refine ⟨controller, hinUse, hchip ▸ Chip.genuine_k9f1g08, ?_, congrArg Drive.hang hdrive, ?_,
    hdrive⟩
  · rw [hprofile, hchip]
    decide
  · rw [hprofile]
    intro limit hlimit
    cases hlimit
    decide

/-- ECC from end to end. A page is written to erased flash, and after that anything may happen
that does not alter it on purpose; its bits may flip. If no field of the page has more damaged
bytes than its codeword can correct, a read answers the data that were written and the spare bytes
that any codeword covers, and reports each damaged field with its repairs. Otherwise the page is
lost at the first field that has more. -/
theorem restores_damaged_page (h : controller.InUse) (hchip : controller.channel.bus.chip.Genuine)
    (hraw : controller.profile.geometry.pageBytes + controller.profile.geometry.spareSize ≤
      controller.channel.bus.chip.rawLen)
    (hhang : controller.channel.bus.engine.hang = false)
    (hstrength : controller.profile.geometry.strength ≠ .none)
    (hpoll : controller.profile.poll.Allows controller.profile.geometry.fieldCount)
    {data spare : Bytes}
    (herased : controller.channel.bus.rawPage page =
      Bytes.erased controller.channel.bus.chip.rawLen)
    {reply : Reply} {written : Controller Device}
    (hwrite : (serve (.writePage page data spare)).run controller = .ok (reply, written))
    (hdone : reply.outcome = .ok .done) {events : List Event}
    (hspares : ∀ event ∈ events, event.Spares controller.channel.bus.chip page)
    {buffer spareBuffer : Bytes} (hbuffer : buffer.size = controller.profile.geometry.pageBytes)
    (hspareBuffer : spareBuffer.size = controller.profile.geometry.spareSize) :
    ∃ replies damaged, (events.mapM play).run written = .ok (replies, damaged) ∧
      ∃ result last,
        (serve (.readPage page buffer spareBuffer)).run damaged = .ok (result, last) ∧
        result.Restores controller.profile page data (written.channel.bus.rawPage page)
          (damaged.channel.bus.rawPage page) damaged.stats := by
  have hgenuine := h.steady.genuine hchip
  -- The page goes to flash, and to its reference copy.
  obtain ⟨hwritten, hserve⟩ := h.steady.drive_serve hwrite
  have hkeeps := Drive.keeps_of_serve hserve
  obtain ⟨hpage, hhang', hstored, hdata⟩ :=
    hgenuine.stored_of_serve h.steady.rests.settled hraw hhang hstrength herased hserve hdone
  have hprofile : written.profile = controller.profile := hkeeps.profile_eq
  -- The reference copy is there to the end of the session.
  obtain ⟨replies, damaged, hsession, hdamaged, hchip', hprofile', hhang'', href⟩ :=
    hwritten.run_playAll (hkeeps.chip_eq ▸ hchip)
      (by rw [hprofile, hkeeps.chip_eq]; exact hraw) hhang' (by rw [hkeeps.chip_eq]; exact hspares)
  have hchipEq : damaged.drive.chip = controller.drive.chip := hchip'.trans hkeeps.chip_eq
  have hprofileEq : damaged.drive.profile = controller.drive.profile :=
    hprofile'.trans hkeeps.profile_eq
  have hgeometry : damaged.drive.geometry = controller.profile.geometry :=
    congrArg Profile.geometry hprofileEq
  have hlayout : damaged.drive.profile.layout = controller.profile.layout :=
    congrArg Profile.layout hprofileEq
  refine ⟨replies, damaged, hsession, ?_⟩
  have hbefore : (written.drive.flash.content page).size = controller.drive.chip.rawLen := by
    rw [← hkeeps.chip_eq]
    exact hwritten.isWhole page
  have hvalid : (Request.readPage page buffer spareBuffer).Valid damaged.drive.geometry
      damaged.drive.chip.pageCount damaged.drive.chip.blocks := by
    rw [hgeometry, hchipEq]
    exact ⟨hpage, hbuffer, hspareBuffer⟩
  have hread := (hdamaged.genuine (hchipEq ▸ hchip)).exists_restore
    (by rw [hgeometry, hchipEq]; exact hraw) hhang'' (by rw [hgeometry]; exact hstrength)
    (by rw [hgeometry, hprofileEq]; exact hpoll) hvalid (hchipEq ▸ hbefore) (href.trans hstored)
  rw [hgeometry, hlayout] at hread
  obtain ⟨result, drive, hserveRead, hrestored, hlost⟩ := hread
  obtain ⟨last, hrun, -, -⟩ := hdamaged.run_serve hserveRead
  refine ⟨result, last, hrun, fun hall => ?_, fun lost hlt hmany hlower => ?_⟩
  · obtain ⟨repairs, hrepairs, rfl⟩ := hrestored hall
    refine ⟨?_, ?_, fun i hi => hrepairs.getElem?_spare hi, hrepairs.stats_eq⟩
    · exact congrArg (fun reports => Except.ok (Answer.repaired reports)) hrepairs.reports_eq
    · refine (hrepairs.data_eq ?_).trans hdata
      rw [hbefore]
      exact Nat.le_trans (Nat.le_add_right _ _) hraw
  · obtain ⟨repairs, hrepairs, rfl⟩ := hlost lost hlt hmany hlower
    refine ⟨rfl, ?_⟩
    show EccStats.mk repairs.stats.corrected (repairs.stats.failed + 1) = _
    rw [hrepairs.stats_eq]
    rfl

/-- Three bytes of a page flip, two of them in one field, while another block is erased and worn
out. -/
theorem restores_damaged_page_three_flips : ∃ controller : Controller Device,
    controller.InUse ∧ controller.channel.bus.chip.Genuine ∧
    controller.profile.geometry.pageBytes + controller.profile.geometry.spareSize ≤
      controller.channel.bus.chip.rawLen ∧
    controller.channel.bus.engine.hang = false ∧
    controller.profile.geometry.strength ≠ .none ∧
    controller.profile.poll.Allows controller.profile.geometry.fieldCount ∧
    controller.channel.bus.rawPage 64 = Bytes.erased controller.channel.bus.chip.rawLen ∧
    let data := Bytes.filled 2048 0x5A
    let events : List Event := [.inject 64 0 0x80, .inject 64 511 0xFF,
      .request (.eraseBlock 2), .wearOut 2, .inject 64 2050 0x01]
    (∀ event ∈ events, event.Spares controller.channel.bus.chip 64) ∧
    ∃ reply written, (serve (.writePage 64 data (Bytes.erased 64))).run controller =
        .ok (reply, written) ∧ reply.outcome = .ok .done ∧
      ∃ replies damaged, (events.mapM play).run written = .ok (replies, damaged) ∧
        ∃ result last,
          (serve (.readPage 64 (Bytes.filled 2048 0) (Bytes.filled 64 0))).run damaged =
            .ok (result, last) ∧
          result.Restores controller.profile 64 data (written.channel.bus.rawPage 64)
            (damaged.channel.bus.rawPage 64) damaged.stats := by
  obtain ⟨controller, hinUse, hgenuine, hraw, hhang, hallows, hdrive⟩ := exists_fresh
  have hchip : controller.channel.bus.chip = Chip.k9f1g08 := congrArg Drive.chip hdrive
  have hprofile : controller.profile = smallProfile ⟨some 20⟩ := congrArg Drive.profile hdrive
  have hflash : controller.channel.bus.flash = FlashArray.blank.flash Chip.k9f1g08.rawLen :=
    congrArg Drive.flash hdrive
  have hstrength : controller.profile.geometry.strength ≠ .none := by
    rw [hprofile]
    decide
  have hpoll : controller.profile.poll.Allows controller.profile.geometry.fieldCount :=
    hallows.mono (Geometry.fieldCount_le _)
  have herased : controller.channel.bus.rawPage 64 =
      Bytes.erased controller.channel.bus.chip.rawLen := by
    show controller.channel.bus.flash.content 64 = _
    rw [hflash, hchip]
    exact FlashArray.content_blank _ 64
  have hspares : ∀ event ∈ ([.inject 64 0 0x80, .inject 64 511 0xFF, .request (.eraseBlock 2),
      .wearOut 2, .inject 64 2050 0x01] : List Event),
      event.Spares controller.channel.bus.chip 64 := by
    rw [hchip]
    simp only [List.forall_mem_cons, Event.Spares, Request.Alters, List.not_mem_nil, false_imp_iff,
      implies_true, and_true, true_and]
    decide
  have hvalid : (Request.writePage 64 (Bytes.filled 2048 0x5A) (Bytes.erased 64)).Valid
      controller.drive.geometry controller.drive.chip.pageCount controller.drive.chip.blocks := by
    rw [hdrive]
    refine ⟨?_, Bytes.size_filled _ _, Bytes.size_erased _⟩
    decide
  obtain ⟨reply, drive, hserve, -, houtcome, -⟩ :=
    (hinUse.steady.genuine hgenuine).exists_serve hraw hhang hvalid
  obtain ⟨written, hwrite, -, -⟩ := hinUse.steady.run_serve hserve
  have hdone : reply.outcome = .ok .done := by
    refine houtcome _ ?_
    rw [hdrive]
    rfl
  exact ⟨controller, hinUse, hgenuine, hraw, hhang, hstrength, hpoll, herased, hspares, reply,
    written, hwrite, hdone, restores_damaged_page hinUse hgenuine hraw hhang hstrength hpoll
      herased hwrite hdone hspares (by rw [hprofile]; exact Bytes.size_filled _ _)
      (by rw [hprofile]; exact Bytes.size_filled _ _)⟩

end Controller

end NandFlash
