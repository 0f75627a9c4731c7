import NandFlash.Proofs.Sim.Restoring

/-!
# Row addresses

A driver names a page by the row cycles that it sends. They spell the page as far as they go, so
that pages are told apart if and only if the chip has no more of them than the cycles can spell.
Only a crowded chip has more: there an operation on a page of the upper half lands in the lower
one.
-/

namespace NandFlash

namespace Framing

open Sim

variable {cycles : Nat}

/-- The bytes of the row cycles, put together again, are the row as far as the cycles go. -/
theorem addressValue_rowWords (h : 0 < cycles) (row : Nat) :
    addressValue ((rowWords cycles row).map (·.toUInt8)) = row % 256 ^ cycles := by
  rw [map_toUInt8_rowWords h, addressValue_rowBytes]

/-- The row cycles depend on the row as far as they go. -/
theorem rowWords_mod (cycles row : Nat) : rowWords cycles (row % 256 ^ cycles) =
    rowWords cycles row := by
  apply List.map_congr_left
  intro cycle hcycle
  have hlt := List.mem_range.1 hcycle
  have hdvd : 256 ^ cycle * 256 ∣ 256 ^ cycles := by
    rw [← Nat.pow_succ]
    exact Nat.pow_dvd_pow 256 hlt
  rw [shiftRight_bytes, shiftRight_bytes, ← Nat.mod_mul_right_div_self,
    Nat.mod_mod_of_dvd _ hdvd, Nat.mod_mul_right_div_self]

theorem rowWords_inj (h : 0 < cycles) {row other : Nat} :
    rowWords cycles row = rowWords cycles other ↔ row % 256 ^ cycles = other % 256 ^ cycles := by
  constructor
  · intro hwords
    rw [← addressValue_rowWords h row, ← addressValue_rowWords h other, hwords]
  · intro hrows
    rw [← rowWords_mod cycles row, ← rowWords_mod cycles other, hrows]

/-- The row cycles tell pages apart as long as they can spell that many rows. -/
theorem rowWords_ne_iff (h : 0 < cycles) {pages : Nat} :
    (∀ p < pages, ∀ q < pages, p ≠ q → rowWords cycles p ≠ rowWords cycles q) ↔
      pages ≤ 256 ^ cycles := by
  constructor
  · -- The first row past the last one that can be spelled looks like row 0.
    intro hapart
    by_contra hmany
    have hlt := Nat.lt_of_not_le hmany
    have hpos : 0 < 256 ^ cycles := Nat.pow_pos (by decide)
    refine hapart _ hlt 0 (Nat.lt_trans hpos hlt) (Nat.pos_iff_ne_zero.1 hpos) ?_
    rw [rowWords_inj h, Nat.mod_self, Nat.zero_mod]
  · intro hle p hp q hq hne hwords
    have hmod := (rowWords_inj h).1 hwords
    rw [Nat.mod_eq_of_lt (Nat.lt_of_lt_of_le hp hle),
      Nat.mod_eq_of_lt (Nat.lt_of_lt_of_le hq hle)] at hmod
    exact hne hmod

end Framing

open Sim

namespace Sim.Drive.Genuine

variable {drive next : Drive} {reply : Reply}

/-- Writing a page programs that page or nothing, and it programs it if the write succeeds. -/
theorem flash_of_serve_writePage (h : drive.Genuine) {page : Nat} {data spare : Bytes}
    (hserve : drive.serve (.writePage page data spare) = .ok (reply, next)) :
    (next.flash = drive.flash ∧ reply.outcome ≠ .ok .done) ∨
      page < drive.chip.pageCount ∧
        ∃ buffer ecc, next.flash = drive.flash.program page buffer ecc := by
  rcases h.cases_of_serve hserve with ⟨rfl, error, herror⟩ | ⟨hvalid, result, hperform, houtcome⟩
  · exact .inl ⟨rfl, by simp [herror]⟩
  · rw [houtcome]
    rw [h.perform_writePage hvalid.1] at hperform
    obtain ⟨failure?, -, hperform⟩ := exists_of_bind_eq_ok hperform
    cases failure? with
    | some error =>
      cases hperform
      exact .inl ⟨rfl, by simp⟩
    | none =>
      cases hperform
      exact .inr ⟨hvalid.1, _, _, rfl⟩

end Sim.Drive.Genuine

namespace Controller

variable {controller : Controller Device}

/-- The pages of a chip that is not crowded are spelled by their row cycles. -/
theorem Steady.exists_pages (h : controller.Steady) :
    ∃ pages, controller.profile.chip.pages = .ok pages ∧
      (pages ≤ 256 ^ controller.profile.chip.rowCycles ↔ ¬controller.profile.chip.Crowded) := by
  obtain ⟨page, block, size, hscaled⟩ := h.rests.settled.scaled
  exact ⟨_, hscaled.pages_eq, hscaled.pages_le_iff⟩

/-- Every page has its own row address, unless the chip is crowded: the row cycles of two pages
differ, and put together again they are the page. On a chip that has the dimensions it tells, an
operation on a block or page acts on that block or page and on no other. -/
theorem rows_tell_pages_apart (h : controller.InUse) :
    (∃ pages, controller.profile.chip.pages = .ok pages ∧
      let words := Framing.rowWords controller.profile.chip.rowCycles
      (¬controller.profile.chip.Crowded ↔
        ∀ p < pages, ∀ q < pages, p ≠ q → words p ≠ words q) ∧
      (¬controller.profile.chip.Crowded →
        ∀ p < pages, addressValue ((words p).map (·.toUInt8)) = p)) ∧
    (¬controller.profile.chip.Crowded → controller.channel.bus.chip.Truthful →
      let chip := controller.channel.bus.chip
      let flash := controller.channel.bus.flash
      (∀ block < chip.blocks, ∃ reply next,
        (serve (.eraseBlock block)).run controller = .ok (reply, next) ∧
          next.channel.bus.flash = if flash.isFailing block then flash
            else flash.erase chip.rawLen (block * chip.pagesPerBlock) chip.pagesPerBlock) ∧
      (∀ block < chip.blocks, ∃ reply next,
        (serve (.markBad block)).run controller = .ok (reply, next) ∧
          next.channel.bus.flash =
            flash.mark (block * chip.pagesPerBlock) controller.profile.geometry.pageBytes) ∧
      ∀ page data spare reply next,
        (serve (.writePage page data spare)).run controller = .ok (reply, next) →
          (next.channel.bus.flash = flash ∧ reply.outcome ≠ .ok .done) ∨
            page < chip.pageCount ∧
              ∃ buffer ecc, next.channel.bus.flash = flash.program page buffer ecc) := by
  have hsteady := h.steady
  constructor
  · obtain ⟨pages, hpages, hle⟩ := hsteady.exists_pages
    have hcycles := rowCycles_pos controller.profile.chip
    refine ⟨pages, hpages, hle.symm.trans (Framing.rowWords_ne_iff hcycles).symm,
      fun hroom p hp => ?_⟩
    rw [Framing.addressValue_rowWords hcycles,
      Nat.mod_eq_of_lt (Nat.lt_of_lt_of_le hp (hle.2 hroom))]
  · intro hroom htruthful
    have hgenuine : controller.drive.Genuine :=
      ⟨htruthful.counted hsteady.decodes hroom, hsteady.rests.settled.fits, hsteady.isWhole⟩
    -- The rows tell the blocks and pages apart, so that the drive acts on those it is given.
    refine ⟨fun block hblock => ?_, fun block hblock => ?_,
      fun page data spare reply next hrun => ?_⟩
    · obtain ⟨reply, next, hrun, hnext⟩ := hsteady.run_serve_of_perform hgenuine
        (show (Request.eraseBlock block).Valid _ _ _ from hblock) (hgenuine.perform_eraseBlock hblock)
      exact ⟨reply, next, hrun, congrArg Drive.flash hnext⟩
    · obtain ⟨reply, next, hrun, hnext⟩ := hsteady.run_serve_of_perform hgenuine
        (show (Request.markBad block).Valid _ _ _ from hblock) (hgenuine.perform_markBad hblock)
      exact ⟨reply, next, hrun, congrArg Drive.flash hnext⟩
    · exact hgenuine.flash_of_serve_writePage (hsteady.drive_serve hrun).2

/-- Block 5 of a K9F1G08 is marked. -/
theorem rows_tell_pages_apart_k9f1g08 : ∃ controller : Controller Device,
    controller.InUse ∧ ¬controller.profile.chip.Crowded ∧ controller.channel.bus.chip.Truthful ∧
    (∃ pages, controller.profile.chip.pages = .ok pages ∧
      let words := Framing.rowWords controller.profile.chip.rowCycles
      ∀ p < pages, ∀ q < pages, p ≠ q → words p ≠ words q) ∧
    ∃ reply next, (serve (.markBad 5)).run controller = .ok (reply, next) ∧
      next.channel.bus.flash = controller.channel.bus.flash.mark 320 2048 := by
  obtain ⟨controller, hinUse, hgenuine, -, -, -, hdrive⟩ := exists_fresh
  have hchip : controller.channel.bus.chip = Chip.k9f1g08 := congrArg Drive.chip hdrive
  have hprofile : controller.profile = smallProfile ⟨some 20⟩ := congrArg Drive.profile hdrive
  have hroom : ¬controller.profile.chip.Crowded := by
    rw [hprofile]
    rintro ⟨hpage, -⟩
    cases hpage
  obtain ⟨⟨pages, hpages, hapart, -⟩, hacts⟩ := rows_tell_pages_apart hinUse
  obtain ⟨-, hmark, -⟩ := hacts hroom hgenuine.truthful
  refine ⟨controller, hinUse, hroom, hgenuine.truthful, ⟨pages, hpages, hapart.1 hroom⟩, ?_⟩
  rw [hchip, hprofile] at hmark
  exact hmark 5 (by decide)

/-- A crowded chip: 128 MiB in pages of 1024 bytes. -/
def crowdedChip : Chip :=
  ⟨"crowded", idBytes 0xEC 0xF1 0x00 0x94 0x40 0x00, 1024, 32, 128, 1024⟩

/-- What a controller makes of it when pages of 2048 bytes without protection are asked for. -/
def crowdedProfile : Profile where
  chip := ⟨0xEC, 0xF1, 1024, 32, 131072, 134217728⟩
  geometry := ⟨.p2048, 8, .none, rfl⟩
  layout := ⟨4, 0⟩
  warnings := []
  poll := ⟨some 20⟩

/-- A controller on a crowded chip of which a byte is not erased. -/
theorem exists_crowded : ∃ controller : Controller Device, controller.InUse ∧
    controller.drive = ⟨crowdedProfile, crowdedChip,
      (FlashArray.blank.flash crowdedChip.rawLen).inject 0 0 0xFF, false, ⟨0, 0⟩⟩ := by
  obtain ⟨device, hnew⟩ : ∃ device, Device.new crowdedChip = .ok device := ⟨_, rfl⟩
  have hdevice : device.Reachable := .new hnew
  cases hnew
  -- The setting asks for pages of 2048 bytes, which is why the chip can be driven at all.
  obtain ⟨fresh, hprobe, hfresh⟩ :
      ∃ fresh, probe ⟨0⟩ ⟨Bits.defaultTiming, ⟨some 20⟩⟩ _ = .ok (.ok fresh) ∧
        fresh.drive = ⟨crowdedProfile, _, _, _, ⟨0, 0⟩⟩ := exists_probe hdevice rfl rfl
  have hinUse : fresh.InUse := .probed hdevice hprobe
  have hinject : fresh.drive.play (.inject 0 0 0xFF) =
      .ok (none, { fresh.drive with flash := fresh.drive.flash.inject 0 0 0xFF }) := rfl
  obtain ⟨controller, hplay, -, hdrive⟩ := hinUse.steady.run_play hinject
  rw [hfresh] at hdrive
  exact ⟨controller, hinUse.played hplay, hdrive⟩

/-- On a crowded chip pages 0 and 65536 have the same row address, and erasing block 512 erases
block 0. -/
theorem crowded_chip_shares_rows : ∃ controller : Controller Device,
    controller.InUse ∧ controller.channel.bus.chip.Truthful ∧
    controller.profile.chip.pages = .ok 131072 ∧ controller.profile.chip.blocks = .ok 1024 ∧
    Framing.rowWords controller.profile.chip.rowCycles 65536 =
      Framing.rowWords controller.profile.chip.rowCycles 0 ∧
    ∃ reply next, (serve (.eraseBlock 512)).run controller = .ok (reply, next) ∧
      (controller.channel.bus.flash.content 0)[0]? = some 0 ∧
      (next.channel.bus.flash.content 0)[0]? = some erasedByte := by
  obtain ⟨controller, hinUse, hdrive⟩ := exists_crowded
  have hchip : controller.channel.bus.chip = crowdedChip := congrArg Drive.chip hdrive
  have hprofile : controller.profile = crowdedProfile := congrArg Drive.profile hdrive
  have hflash : controller.channel.bus.flash =
      (FlashArray.blank.flash crowdedChip.rawLen).inject 0 0 0xFF := congrArg Drive.flash hdrive
  -- Two row cycles hold 65536 rows, so that block 512 is erased as block 0.
  obtain ⟨reply, drive, hserve, herased⟩ : ∃ reply drive,
      controller.drive.serve (.eraseBlock 512) = .ok (reply, drive) ∧
        drive.flash = controller.drive.flash.erase crowdedChip.rawLen 0 128 := by
    rw [hdrive]
    exact ⟨_, _, rfl, rfl⟩
  obtain ⟨next, hrun, -, rfl⟩ := hinUse.steady.run_serve hserve
  have hfirst : (Bytes.erased crowdedChip.rawLen)[0]? = some erasedByte := by
    simp [Bytes.erased, Bytes.filled, crowdedChip, Chip.rawLen]
  refine ⟨controller, hinUse, ?_, ?_, ?_, ?_, reply, next, hrun, ?_, ?_⟩
  · rw [hchip]
    exact ⟨_, rfl, rfl, rfl, rfl⟩
  · rw [hprofile]
    rfl
  · rw [hprofile]
    rfl
  · rw [hprofile]
    decide
  · have hblank : (FlashArray.blank.flash crowdedChip.rawLen).content 0 =
        Bytes.erased crowdedChip.rawLen := FlashArray.content_blank _ 0
    rw [hflash]
    simp only [Flash.inject, Function.update_self, hblank, Array.getElem?_modify, hfirst, if_true,
      Option.map_some]
    rfl
  · show (next.drive.flash.content 0)[0]? = _
    simp [herased, Flash.erase, hfirst]

end Controller

end NandFlash
