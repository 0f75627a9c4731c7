import NandFlash.Proofs.Sim.BlockWrites
import NandFlash.Proofs.Sim.Marks

/-!
# Placing a piece of an image

A ready device takes a piece of an image into a block in one of four ways: the block is passed over
because it is marked, it holds the piece already, it is rewritten, or it fails and is given up with
a marker. Whichever it is, no other block changes, and afterwards the block is marked or it holds
the piece.
-/

namespace NandFlash

open Sim

namespace Sim.Drive

/-- A block that has been erased and programmed. -/
structure Rewrites (drive : Drive) (index : Nat) (content : Bytes) (flash : Flash) : Prop where
  holds : (drive.on flash).Holds index content
  isMarked_eq : (drive.on flash).isMarked index = false
  isFailing_eq : flash.isFailing = drive.flash.isFailing
  agrees : ∀ other ≠ index, drive.AgreesOn other flash
  isWhole : flash.IsWhole drive.chip.rawLen

/-- How a block takes a piece of an image, and the flash afterwards. -/
inductive Takes (drive : Drive) (index : Nat) (content : Bytes) : Placement → Flash → Prop where
  | skipped (hmarked : drive.isMarked index = true) : Takes drive index content .bad drive.flash
  | kept (hgood : drive.isMarked index = false) (hholds : drive.Holds index content) :
    Takes drive index content .unchanged drive.flash
  | written {flash : Flash} (hgood : drive.isMarked index = false)
    (hnew : ¬drive.Holds index content) (hsound : drive.flash.isFailing index = false)
    (hrewrites : drive.Rewrites index content flash) :
    Takes drive index content .written flash
  | givenUp (hgood : drive.isMarked index = false) (hnew : ¬drive.Holds index content)
    (hfailing : drive.flash.isFailing index = true) : Takes drive index content .bad
      (drive.flash.mark (index * drive.chip.pagesPerBlock) drive.geometry.pageBytes)

variable {drive : Drive} {index : Nat} {content : Bytes} {flash : Flash} {placement : Placement}

theorem Reads.on {next : Drive} (h : drive.Reads next) (flash : Flash) :
    (drive.on flash).Reads (next.on flash) :=
  ⟨h.profile_eq, h.chip_eq, rfl, h.hang_eq⟩

theorem Reads.holds_iff {next : Drive} (h : drive.Reads next) :
    next.Holds index content ↔ drive.Holds index content := by
  rw [Holds, Holds, h.blockRead_eq]

theorem AgreesOn.holds_iff (h : drive.AgreesOn index flash) :
    (drive.on flash).Holds index content ↔ drive.Holds index content := by
  rw [Holds, Holds, h.blockRead_eq]

/-- How a block takes a piece does not depend on the statistics. -/
theorem Reads.takes {next : Drive} (h : drive.Reads next)
    (htakes : next.Takes index content placement flash) :
    drive.Takes index content placement flash := by
  cases htakes with
  | skipped hmarked => exact h.flash_eq ▸ .skipped (h.isMarked_eq ▸ hmarked)
  | kept hgood hholds => exact h.flash_eq ▸ .kept (h.isMarked_eq ▸ hgood) (h.holds_iff.1 hholds)
  | written hgood hnew hsound hrewrites =>
    -- The pages of the block are the same for both drives, and so is what is written to them.
    refine .written (h.isMarked_eq ▸ hgood) (fun hholds => hnew (h.holds_iff.2 hholds))
      (h.flash_eq ▸ hsound) ⟨(h.on flash).holds_iff.1 hrewrites.holds, ?_, ?_, ?_, ?_⟩
    · rw [← (h.on flash).isMarked_eq]
      exact hrewrites.isMarked_eq
    · rw [← h.flash_eq]
      exact hrewrites.isFailing_eq
    · intro other hother page hpage
      rw [← h.flash_eq]
      exact hrewrites.agrees other hother page (h.chip_eq.symm ▸ hpage)
    · rw [← h.chip_eq]
      exact hrewrites.isWhole
  | givenUp hgood hnew hfailing =>
    rw [h.flash_eq, h.chip_eq, geometry, h.profile_eq]
    exact .givenUp (h.isMarked_eq ▸ hgood) (fun hholds => hnew (h.holds_iff.2 hholds))
      (h.flash_eq ▸ hfailing)

theorem AgreesOn.refl (drive : Drive) (index : Nat) : drive.AgreesOn index drive.flash :=
  fun _ _ => ⟨rfl, rfl⟩

theorem AgreesOn.trans {last : Flash} (h : drive.AgreesOn index flash)
    (h' : (drive.on flash).AgreesOn index last) : drive.AgreesOn index last :=
  fun page hpage =>
    ⟨(h' page hpage).1.trans (h page hpage).1, (h' page hpage).2.trans (h page hpage).2⟩

theorem agreesOn_mark (hpos : 0 < drive.chip.pagesPerBlock) {other : Nat} (hother : other ≠ index)
    (column : Nat) :
    drive.AgreesOn other (drive.flash.mark (index * drive.chip.pagesPerBlock) column) := by
  intro page hpage
  have hne : page ≠ index * drive.chip.pagesPerBlock := by
    rintro rfl
    exact hother (hpage.symm.trans (Nat.mul_div_cancel _ hpos))
  exact ⟨Function.update_of_ne hne _ _, Function.update_of_ne hne _ _⟩

/-- No other block changes. -/
theorem Takes.agrees (h : drive.Takes index content placement flash)
    (hpos : 0 < drive.chip.pagesPerBlock) {other : Nat} (hother : other ≠ index) :
    drive.AgreesOn other flash := by
  cases h with
  | skipped | kept => exact AgreesOn.refl _ _
  | written _ _ _ hrewrites => exact hrewrites.agrees other hother
  | givenUp => exact agreesOn_mark hpos hother _

theorem Takes.isFailing_eq (h : drive.Takes index content placement flash) :
    flash.isFailing = drive.flash.isFailing := by
  cases h with
  | skipped | kept | givenUp => rfl
  | written _ _ _ hrewrites => exact hrewrites.isFailing_eq

/-- A marked block is passed over. -/
theorem Takes.eq_of_isMarked (h : drive.Takes index content placement flash)
    (hmarked : drive.isMarked index = true) : placement = .bad ∧ flash = drive.flash := by
  cases h with
  | skipped => exact ⟨rfl, rfl⟩
  | kept hgood | written hgood | givenUp hgood =>
    exact absurd (hmarked.symm.trans hgood) (by decide)

/-- A good block that holds the piece already is left as it is. -/
theorem Takes.eq_of_holds (h : drive.Takes index content placement flash)
    (hgood : drive.isMarked index = false) (hholds : drive.Holds index content) :
    placement = .unchanged ∧ flash = drive.flash := by
  cases h with
  | skipped hmarked => exact absurd (hmarked.symm.trans hgood) (by decide)
  | kept => exact ⟨rfl, rfl⟩
  | written _ hnew | givenUp _ hnew => exact absurd hholds hnew

/-- A good block that fails is given up, if the piece is new to it. -/
theorem Takes.eq_of_isFailing (h : drive.Takes index content placement flash)
    (hgood : drive.isMarked index = false) (hnew : ¬drive.Holds index content)
    (hfailing : drive.flash.isFailing index = true) : placement = .bad ∧
      flash = drive.flash.mark (index * drive.chip.pagesPerBlock) drive.geometry.pageBytes := by
  cases h with
  | skipped hmarked => exact absurd (hmarked.symm.trans hgood) (by decide)
  | kept _ hholds => exact absurd hholds hnew
  | written _ _ hsound => exact absurd (hfailing.symm.trans hsound) (by decide)
  | givenUp => exact ⟨rfl, rfl⟩

/-- A good block that is sound is rewritten, if the piece is new to it. -/
theorem Takes.eq_written (h : drive.Takes index content placement flash)
    (hgood : drive.isMarked index = false) (hnew : ¬drive.Holds index content)
    (hsound : drive.flash.isFailing index = false) : placement = .written := by
  cases h with
  | skipped hmarked => exact absurd (hmarked.symm.trans hgood) (by decide)
  | kept _ hholds => exact absurd hholds hnew
  | written => rfl
  | givenUp _ _ hfailing => exact absurd (hfailing.symm.trans hsound) (by decide)

/-- An erased block holds nothing but erased bytes. -/
theorem Able.eq_erased_of_holds (h : drive.Able) (hsize : content.size =
    drive.chip.pagesPerBlock * drive.geometry.pageBytes)
    (hfresh : drive.Fresh (index * drive.chip.pagesPerBlock) drive.chip.pagesPerBlock)
    (hholds : drive.Holds index content) : content = Bytes.erased content.size := by
  have herased : drive.Holds index (Bytes.erased content.size) := by
    refine (h.holds_of_stores ((Bytes.size_erased _).trans hsize) fun i hi => ?_).1
    obtain ⟨hcontent, hreference⟩ := hfresh i hi
    refine h.stores_erased (Controller.size_piece ((Bytes.size_erased _).trans hsize) hi) ?_
      hcontent hreference
    rw [Bytes.isErased_iff]
    intro k hk
    simp [Bytes.piece, Bytes.erased, Bytes.filled]
  rw [Drive.Holds, Bytes.size_erased, hholds] at herased
  exact (Prod.mk.inj (Except.ok.inj herased)).2

/-- A good block fails and is given up, which clears the marker bytes of its first page. -/
structure GivesUp (drive : Drive) (index page : Nat) (flash : Flash) : Prop where
  isMarked_eq : drive.isMarked index = false
  isFailing : drive.flash.isFailing index = true
  page_eq : page = index * drive.chip.pagesPerBlock
  content_eq : flash.content page = ((drive.flash.content page).setIfInBounds
    drive.geometry.pageBytes 0).setIfInBounds (drive.geometry.pageBytes + 1) 0

/-- Unless the block is rewritten, no content changes but the marker of a block that is given up. -/
theorem Takes.content_eq (h : drive.Takes index content placement flash)
    (hkept : placement ≠ .written) (page : Nat) :
    flash.content page = drive.flash.content page ∨
      placement = .bad ∧ drive.GivesUp index page flash := by
  cases h with
  | skipped | kept => exact .inl rfl
  | written => exact absurd rfl hkept
  | givenUp hgood _ hfailing =>
    by_cases hpage : page = index * drive.chip.pagesPerBlock
    · refine .inr ⟨rfl, hgood, hfailing, hpage, ?_⟩
      simp only [Flash.mark, hpage, Function.update_self]
    · exact .inl (Function.update_of_ne hpage _ _)

/-- The device stays ready. -/
theorem Takes.ready (h : drive.Takes index content placement flash) (hready : drive.Ready) :
    (drive.on flash).Ready := by
  refine hready.of_reads (Reads.refl _) ?_
  cases h with
  | skipped | kept => exact hready.genuine.isWhole
  | written _ _ _ hrewrites => exact hrewrites.isWhole
  | givenUp =>
    intro page
    simp only [on_flash, Flash.mark, Function.update_apply]
    split
    · next heq =>
      rw [Array.size_setIfInBounds, Array.size_setIfInBounds]
      exact hready.genuine.isWhole _
    · exact hready.genuine.isWhole page

/-- Afterwards the block is marked, or it is good and holds the piece. -/
theorem Takes.settles (h : drive.Takes index content placement flash) (hready : drive.Ready) :
    if placement = .bad then (drive.on flash).isMarked index = true
    else (drive.on flash).isMarked index = false ∧ (drive.on flash).Holds index content := by
  cases h with
  | skipped hmarked => exact hmarked
  | kept hgood hholds => exact ⟨hgood, hholds⟩
  | written _ _ _ hrewrites => exact ⟨hrewrites.isMarked_eq, hrewrites.holds⟩
  | givenUp =>
    have hfour := Geometry.Fits.four_le_parityStart drive.profile.layout
    have hadd := hready.genuine.fits.parityStart_add
    have hroom := hready.fitsRaw
    exact hready.genuine.isMarked_mark (by omega)

end Sim.Drive

namespace Controller

variable {controller : Controller Device} {index : Nat} {content : Bytes}

/-- A block is asked whether it holds a piece. -/
theorem run_holds (h : controller.Steady) (hready : controller.drive.Ready)
    (hindex : index < controller.drive.chip.blocks) (hsize : content.size =
      controller.drive.chip.pagesPerBlock * controller.drive.geometry.pageBytes) :
    ∃ answer next, (Image.holds ⟨index⟩ content).run controller = .ok (answer, next) ∧
      controller.Moves controller.drive.flash next ∧
      (answer = true ↔ controller.drive.Holds index content) := by
  obtain ⟨outcome, bytes, hread⟩ :=
    Drive.exists_blockRead hready.hang_eq index (Bytes.filled content.size 0)
  have hbuffer := (Bytes.size_filled content.size 0).trans hsize
  have hfollows := follows_read h hready.genuine hindex hbuffer
  rw [hread] at hfollows
  obtain ⟨r, next, hrun, rfl, hnext, hreads⟩ := hfollows.exists_of_ok
  rw [Drive.Holds, hread]
  unfold Image.holds
  cases outcome with
  | error e => exact ⟨false, next, run_step hrun rfl, .of_reads hnext hreads, by simp⟩
  | ok =>
    refine ⟨bytes == content, next, run_step hrun rfl, .of_reads hnext hreads, ?_⟩
    simp

/-! ## Bringing a block up to date -/

/-- The pages of a block are the ones from its first page on. -/
theorem div_eq_iff {page count : Nat} (hpos : 0 < count) :
    page / count = index ↔ index * count ≤ page ∧ page < index * count + count := by
  rw [Nat.div_eq_iff hpos]
  omega

/-- What erasing a sound block leaves. -/
theorem content_erased {drive : Drive} (hready : drive.Ready)
    (hsound : drive.flash.isFailing index = false) :
    let erased := (Request.eraseBlock index).effect drive.chip drive.profile drive.flash #[]
    erased.isFailing = drive.flash.isFailing ∧ ∀ page,
      if page / drive.chip.pagesPerBlock = index then
        erased.content page = Bytes.erased drive.chip.rawLen ∧ erased.reference page = none
      else erased.content page = drive.flash.content page ∧
        erased.reference page = drive.flash.reference page := by
  intro erased
  have herased : erased = drive.flash.erase drive.chip.rawLen (index * drive.chip.pagesPerBlock)
      drive.chip.pagesPerBlock := by
    simp only [erased, Request.effect, hsound, Bool.false_eq_true, if_false]
  rw [herased]
  refine ⟨rfl, fun page => ?_⟩
  simp only [Flash.erase, ← div_eq_iff hready.genuine.counted.pagesPerBlock_pos]
  split <;> exact ⟨rfl, rfl⟩

section

variable (h : controller.Steady) (hready : controller.drive.Ready)
  (hindex : index < controller.drive.chip.blocks) (hsize : content.size =
    controller.drive.chip.pagesPerBlock * controller.drive.geometry.pageBytes)

include h hready hindex hsize

/-- A sound block is rewritten at the first attempt. -/
theorem run_update_of_sound (hsound : controller.drive.flash.isFailing index = false) :
    ∃ next flash, (do (⟨index⟩ : Block).erase; (⟨index⟩ : Block).program 0 content :
        Attempt Failure (Controller Device) Unit).run.run controller = .ok (.ok (), next) ∧
      controller.Moves flash next ∧ controller.drive.Rewrites index content flash := by
  obtain ⟨mid, herase, hmoves⟩ := run_eraseBlock h hready.able hindex
  rw [hsound, if_neg Bool.false_ne_true] at herase
  have hchip : mid.drive.chip = controller.drive.chip := hmoves.reads.chip_eq
  have hgeometry : mid.drive.geometry = controller.drive.geometry :=
    congrArg Profile.geometry hmoves.reads.profile_eq
  have hflash := hmoves.reads.flash_eq
  rw [Drive.on_flash] at hflash
  have hpos := hready.genuine.counted.pagesPerBlock_pos
  obtain ⟨hfailing, herased⟩ := content_erased hready hsound
  -- The erase has left every page of the block fresh, as programming asks for.
  have hfresh : mid.drive.Fresh (index * controller.drive.chip.pagesPerBlock)
      controller.drive.chip.pagesPerBlock := by
    intro i hi
    have hpage := herased (index * controller.drive.chip.pagesPerBlock + i)
    rw [if_pos ((div_eq_iff hpos).2 (by omega))] at hpage
    rw [hflash, hchip]
    exact hpage
  have hstop : 0 + controller.drive.chip.pagesPerBlock ≤ mid.drive.chip.pagesPerBlock := by
    rw [hchip, Nat.zero_add]
  have hfirst : index * controller.drive.chip.pagesPerBlock =
      index * mid.drive.chip.pagesPerBlock + 0 := by
    rw [hchip, Nat.add_zero]
  obtain ⟨next, flash, hprogram, hnext, hfills⟩ := run_program_of_sound hmoves.steady
    (hmoves.able hready.able) (hchip ▸ hindex) hstop (hgeometry ▸ hsize) hfirst hfresh (by
      rw [hflash, hfailing, hsound]
      intro hworn
      cases hworn)
  have hlast := hmoves.trans hnext
  -- The pages that hold their pieces make up a block that holds its content.
  have hheld : (controller.drive.on flash).Holds index content ∧
      (controller.drive.on flash).isMarked index = false := by
    refine (hlast.able_on hready.able).holds_of_stores hsize fun i hi => ?_
    have hstores := hfills.stores i hi
    rw [hgeometry] at hstores
    exact hstores.of_eq hgeometry.symm rfl rfl
  refine ⟨next, flash, run_attempt_step (run_adapt herase Failure.device) hprogram, hlast, hheld.1,
    hheld.2, ?_, ?_, (hlast.able_on hready.able).genuine.isWhole⟩
  · rw [hfills.isFailing_eq, hflash]
    exact hfailing
  · intro other hother page hpage
    have hnot : ¬page / controller.drive.chip.pagesPerBlock = index := by
      rw [hpage]
      exact hother
    have hkept := herased page
    rw [if_neg hnot] at hkept
    obtain ⟨hcontent, hreference⟩ := hfills.keeps page (by
      rintro i hi - rfl
      exact hnot ((div_eq_iff hpos).2 (by omega)))
    rw [hflash] at hcontent hreference
    exact ⟨hcontent.trans hkept.1, hreference.trans hkept.2⟩

/-- A failing block is erased in vain, as often as it is tried. -/
theorem run_updateWithin_of_failing (hfailing : controller.drive.flash.isFailing index = true)
    (attempts : Nat) : ∃ next,
      (Image.updateWithin ⟨index⟩ content attempts).run controller = .ok (false, next) ∧
      controller.Moves controller.drive.flash next := by
  induction attempts generalizing controller with
  | zero => exact ⟨controller, rfl, h, Drive.Reads.refl _⟩
  | succ attempts ih =>
    -- A failing block refuses to be erased, and stays as it is for the next attempt.
    obtain ⟨mid, herase, hmoves⟩ := run_eraseBlock h hready.able hindex
    rw [hfailing, if_pos rfl] at herase
    have hkept : (Request.eraseBlock index).effect controller.drive.chip controller.drive.profile
        controller.drive.flash #[] = controller.drive.flash := by
      simp only [Request.effect, hfailing, if_true]
    rw [hkept] at hmoves
    have hreads : controller.drive.Reads mid.drive := hmoves.reads
    obtain ⟨next, hrun, hnext⟩ := ih hmoves.steady (hmoves.ready hready)
      (hreads.chip_eq.symm ▸ hindex)
      (by rw [hreads.chip_eq, Drive.geometry, hreads.profile_eq]; exact hsize)
      (by rw [hreads.flash_eq]; exact hfailing)
    rw [hreads.flash_eq] at hnext
    refine ⟨next, ?_, hmoves.trans hnext⟩
    rw [Image.updateWithin]
    exact run_step (run_attempt_bind_error (run_adapt herase Failure.device)) hrun

omit hsize in
/-- A block that has not taken its piece is erased once more, in vain, and marked. -/
theorem run_markBad_of_failing (hfailing : controller.drive.flash.isFailing index = true) :
    ∃ outcome next, (⟨index⟩ : Block).markBad.run.run controller = .ok (outcome, next) ∧
      controller.Moves (controller.drive.flash.mark (index * controller.drive.chip.pagesPerBlock)
        controller.drive.geometry.pageBytes) next := by
  obtain ⟨mid, herase, hmoves⟩ := run_eraseBlock h hready.able hindex
  have hkept : (Request.eraseBlock index).effect controller.drive.chip controller.drive.profile
      controller.drive.flash #[] = controller.drive.flash := by
    simp only [Request.effect, hfailing, if_true]
  rw [hkept] at hmoves
  have hreads : controller.drive.Reads mid.drive := hmoves.reads
  have hprofile : mid.profile = controller.profile := hreads.profile_eq
  obtain ⟨outcome, next, hmark, hnext⟩ :=
    run_markBad hmoves.steady (hmoves.able hready.able) (hreads.chip_eq.symm ▸ hindex)
  rw [hreads.flash_eq, hreads.chip_eq, hprofile] at hnext
  refine ⟨outcome.mapError .device, next, ?_, hmoves.trans hnext⟩
  exact run_attempt_step (run_perform herase) (run_adapt hmark Failure.device)

/-- A good block that does not hold its piece yet is rewritten if it is sound, and given up if it
fails. -/
theorem run_place_of_not_holds (hgood : controller.drive.isMarked index = false)
    (hnew : ¬controller.drive.Holds index content) : ∃ placement next flash, (do
        if ← Image.updateWithin ⟨index⟩ content Image.writeAttempts then
          return .written
        let _ ← (⟨index⟩ : Block).markBad.run
        return .bad : Action (Controller Device) Placement).run controller =
          .ok (placement, next) ∧
      controller.Moves flash next ∧ controller.drive.Takes index content placement flash := by
  -- A sound block takes the content at once, and a failing one does not take it at any attempt.
  cases hfailing : controller.drive.flash.isFailing index with
  | false =>
    obtain ⟨next, flash, hrun, hmoves, hrewrites⟩ :=
      run_update_of_sound h hready hindex hsize hfailing
    have hupdate : (Image.updateWithin ⟨index⟩ content Image.writeAttempts).run controller =
        .ok (true, next) := run_step hrun rfl
    exact ⟨.written, next, flash, run_step hupdate rfl, hmoves,
      .written hgood hnew hfailing hrewrites⟩
  | true =>
    obtain ⟨mid, hupdate, hmoves⟩ :=
      run_updateWithin_of_failing h hready hindex hsize hfailing Image.writeAttempts
    have hreads : controller.drive.Reads mid.drive := hmoves.reads
    obtain ⟨outcome, next, hmark, hnext⟩ := run_markBad_of_failing hmoves.steady
      (hmoves.ready hready) (hreads.chip_eq.symm ▸ hindex) (hreads.flash_eq.symm ▸ hfailing)
    rw [hreads.flash_eq, hreads.chip_eq, Drive.geometry, hreads.profile_eq] at hnext
    exact ⟨.bad, next, _, run_step hupdate (run_step hmark rfl), hmoves.trans hnext,
      .givenUp hgood hnew hfailing⟩

/-- A good block takes a piece. -/
theorem run_place (hgood : controller.drive.isMarked index = false) : ∃ placement next flash,
    (Image.place ⟨index⟩ content).run controller = .ok (placement, next) ∧
      controller.Moves flash next ∧ controller.drive.Takes index content placement flash := by
  obtain ⟨answer, held, hholds, hheld, hanswer⟩ := run_holds h hready hindex hsize
  have hreads : controller.drive.Reads held.drive := hheld.reads
  cases answer with
  | true =>
    exact ⟨.unchanged, held, _, run_step hholds rfl, hheld, .kept hgood (hanswer.1 rfl)⟩
  | false =>
    obtain ⟨placement, next, flash, hrun, hmoves, htakes⟩ := run_place_of_not_holds hheld.steady
      (hheld.ready hready) (hreads.chip_eq.symm ▸ hindex)
      (by rw [hreads.chip_eq, Drive.geometry, hreads.profile_eq]; exact hsize)
      (by rw [hreads.isMarked_eq]; exact hgood)
      (fun h => nomatch hanswer.2 (hreads.holds_iff.1 h))
    exact ⟨placement, next, flash, run_step hholds hrun, hheld.trans hmoves, hreads.takes htakes⟩

/-- A block by its index takes a piece in one of the four ways. -/
theorem run_placeAt : ∃ placement next flash,
    (Image.placeAt index content).run.run controller = .ok (.ok placement, next) ∧
      controller.Moves flash next ∧ controller.drive.Takes index content placement flash := by
  obtain ⟨asked, hask, hsteady, hreads⟩ := run_block? h hready.genuine hindex
  cases hmarked : controller.drive.isMarked index with
  | true =>
    rw [hmarked] at hask
    exact ⟨.bad, asked, _, run_attempt_step hask rfl, .of_reads hsteady hreads, .skipped hmarked⟩
  | false =>
    rw [hmarked] at hask
    have hasked := Moves.of_reads hsteady hreads
    obtain ⟨placement, next, flash, hrun, hmoves, htakes⟩ := run_place hsteady
      (hasked.ready hready) (hreads.chip_eq.symm ▸ hindex)
      (by rw [hreads.chip_eq, Drive.geometry, hreads.profile_eq]; exact hsize)
      (by rw [hreads.isMarked_eq]; exact hmarked)
    exact ⟨placement, next, flash, run_attempt_step hask (run_perform hrun), hasked.trans hmoves,
      hreads.takes htakes⟩

end

end Controller

end NandFlash
