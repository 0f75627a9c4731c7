import NandFlash.Proofs.Sim.Restoring

/-!
# Flipping bytes

A written page in which some bytes flip is reported field by field, with as many errors as bytes
of the field have flipped. With that a page can be made to have any damage that is asked for.
-/

namespace NandFlash

namespace Sim

/-! ## What flips are reported as -/

variable {g : Geometry} {layout : SpareLayout} {before : Bytes} {offsets : List Nat}

/-- How many of some bytes belong to the codeword of a field, counted from 0. -/
def countIn (g : Geometry) (parityStart : Nat) (offsets : List Nat) (index : Nat) : Nat :=
  offsets.countP fun raw => g.owner? parityStart raw = some index

/-- The damaged bytes of a field are those that have flipped. -/
theorem length_damagedBytes_flipped {parityStart : Nat} (hnodup : offsets.Nodup)
    (hlt : ∀ raw ∈ offsets, raw < before.size) (index : Nat) :
    (g.damagedBytes parityStart before (flipped (fun _ => 0x01) offsets before) index).length =
      countIn g parityStart offsets index := by
  have hflip : ∀ byte : UInt8, byte ^^^ 0x01 ≠ byte := fun byte heq =>
    absurd (UInt8.xor_right_inj byte |>.1 (heq.trans (UInt8.xor_zero (a := byte)).symm)) (by decide)
  rw [countIn, List.countP_eq_length_filter]
  -- Both lists are free of duplicates, so that having the same members is enough.
  refine ((List.perm_ext_iff_of_nodup (Geometry.nodup_damagedBytes index)
    (hnodup.filter _)).2 fun raw => ?_).length_eq
  rw [Geometry.mem_damagedBytes, List.mem_filter, decide_eq_true_eq, getElem?_flipped hnodup,
    size_flipped, ← and_assoc, and_congr_left_iff]
  rintro -
  constructor
  · rintro ⟨-, hchanged⟩
    by_contra hnot
    exact hchanged (if_neg hnot)
  · intro hmem
    rw [if_pos hmem, Array.getElem?_eq_getElem (hlt raw hmem)]
    exact ⟨hlt raw hmem, fun heq => hflip _ (Option.some.inj heq)⟩

/-- The reports of a page with flipped bytes, as fields with their numbers of errors. -/
theorem map_damage_flipped (hstrength : g.strength ≠ .none) (hfits : g.Fits layout)
    (hraw : g.pageBytes + g.spareSize ≤ before.size) (hnodup : offsets.Nodup)
    (hlt : ∀ raw ∈ offsets, raw < before.size) :
    (Engine.damage g (flipped (fun _ => 0x01) offsets before) (some before)).map
        (fun report => (report.field, report.errors.length)) =
      (List.range g.fieldCount).filterMap fun index =>
        let count := countIn g layout.parityStart offsets index
        if count = 0 then none else some (index + 1, count) := by
  have hsize : (flipped (fun _ => 0x01) offsets before).size = before.size := size_flipped _ _ _
  rw [damage_eq_filterMap hstrength, List.map_filterMap]
  refine List.filterMap_congr fun index hindex => ?_
  have hspec := fieldDamage?_spec hsize hfits (hsize ▸ hraw) (List.mem_range.1 hindex)
  rw [length_damagedBytes_flipped hnodup hlt] at hspec
  simp only
  by_cases hclean : countIn g layout.parityStart offsets index = 0
  · rw [if_pos hclean] at hspec
    rw [if_pos hclean, hspec, Option.map_none]
  · rw [if_neg hclean] at hspec
    obtain ⟨report, hreport, hfield, hcount, -⟩ := hspec
    rw [if_neg hclean, hreport, Option.map_some, hfield, hcount]

/-! ## Flips in flash -/

/-- The first page of a flash, with bytes of it flipped. -/
def Flash.flip (offsets : List Nat) (flash : Flash) : Flash :=
  offsets.foldl (fun flash offset => flash.inject 0 offset 0x01) flash

theorem Flash.flip_spec (offsets : List Nat) (flash : Flash) :
    (flash.flip offsets).content 0 = flipped (fun _ => 0x01) offsets (flash.content 0) ∧
      (flash.flip offsets).reference = flash.reference := by
  induction offsets generalizing flash with
  | nil => exact ⟨rfl, rfl⟩
  | cons offset offsets ih =>
    obtain ⟨hcontent, hreference⟩ := ih (flash.inject 0 offset 0x01)
    have hfirst : (flash.inject 0 offset 0x01).content 0 =
        (flash.content 0).modify offset (· ^^^ 0x01) := by
      simp only [Flash.inject, Function.update_self]
    rw [hfirst] at hcontent
    exact ⟨hcontent, hreference⟩

end Sim

open Sim

namespace Controller

/-- Bytes flip one after the other. -/
theorem InUse.run_flips {controller : Controller Device} (h : controller.InUse)
    (offsets : List Nat) : ∃ replies next,
      ((offsets.map (Event.inject 0 · 0x01)).mapM play).run controller = .ok (replies, next) ∧
      next.InUse ∧
      next.drive = { controller.drive with flash := controller.drive.flash.flip offsets } := by
  induction offsets generalizing controller with
  | nil => exact ⟨[], controller, rfl, h, rfl⟩
  | cons offset offsets ih =>
    obtain ⟨once, hrun, -, honce⟩ := h.steady.run_play
      (show controller.drive.play (.inject 0 offset 0x01) = .ok (none, _) from rfl)
    obtain ⟨replies, next, hruns, hnext, hdrive⟩ := ih (h.played hrun)
    refine ⟨none :: replies, next, ?_, hnext, ?_⟩
    · rw [List.map_cons, List.mapM_cons]
      exact run_step hrun (run_step hruns rfl)
    · rw [hdrive, honce]
      rfl

/-- A page of a fresh chip is written, which leaves a reference copy of it. -/
theorem exists_written_page (poll : Poll) : ∃ controller : Controller Device,
    controller.InUse ∧ controller.drive = ⟨smallProfile poll, Chip.k9f1g08,
      FlashArray.blank.flash Chip.k9f1g08.rawLen, false, ⟨0, 0⟩⟩ ∧
    ∃ reply written,
      (play (.request (.writePage 0 (Bytes.filled 2048 0x5A) (Bytes.erased 64)))).run controller =
        .ok (some reply, written) ∧
      written.InUse ∧ written.drive.hang = false ∧ written.drive.chip = Chip.k9f1g08 ∧
      written.drive.profile = smallProfile poll ∧ (written.drive.flash.content 0).size = 2112 ∧
      written.drive.flash.reference 0 = some (written.drive.flash.content 0) := by
  obtain ⟨controller, hinUse, hdrive⟩ := exists_inUse poll
  have hgenuine := hinUse.steady.genuine (by rw [hdrive]; exact Chip.genuine_k9f1g08)
  have hraw : controller.drive.geometry.pageBytes + controller.drive.geometry.spareSize ≤
      controller.drive.chip.rawLen := by
    rw [hdrive]
    exact Nat.le_refl _
  have hhang : controller.drive.hang = false := by rw [hdrive]
  have hstrength : controller.drive.geometry.strength ≠ .none := by
    rw [hdrive]
    exact (by decide : Strength.t8 ≠ .none)
  have hvalid : (Request.writePage 0 (Bytes.filled 2048 0x5A) (Bytes.erased 64)).Valid
      controller.drive.geometry controller.drive.chip.pageCount controller.drive.chip.blocks := by
    rw [hdrive]
    exact ⟨(by decide : 0 < Chip.k9f1g08.pageCount), Bytes.size_filled _ _, Bytes.size_erased _⟩
  have herased : controller.drive.flash.content 0 = Bytes.erased controller.drive.chip.rawLen := by
    rw [hdrive]
    exact FlashArray.content_blank _ 0
  obtain ⟨reply, drive, hserve, -, houtcome, -⟩ := hgenuine.exists_serve hraw hhang hvalid
  have hdone : reply.outcome = .ok .done := by
    refine houtcome _ ?_
    rw [hdrive]
    rfl
  obtain ⟨-, hhang', hstored, -⟩ := hgenuine.stored_of_serve hinUse.steady.rests.settled hraw hhang
    hstrength herased hserve hdone
  have hkeeps := Drive.keeps_of_serve hserve
  obtain ⟨written, hserved, hwritten, rfl⟩ := hinUse.steady.run_serve hserve
  have hchip : written.drive.chip = Chip.k9f1g08 := by rw [hkeeps.chip_eq, hdrive]
  have hwrite : (play (.request _)).run controller = .ok (some reply, written) :=
    run_step hserved rfl
  refine ⟨controller, hinUse, hdrive, reply, written, hwrite, hinUse.played hwrite, hhang', hchip,
    ?_, ?_, hstored⟩
  · rw [hkeeps.profile_eq, hdrive]
  · rw [hwritten.isWhole 0, hchip]
    rfl

/-- A page is written to a fresh K9F1G08, and bytes of it flip. -/
theorem exists_flipped (poll : Poll) (offsets : List Nat) : ∃ controller : Controller Device,
    controller.InUse ∧ controller.drive = ⟨smallProfile poll, Chip.k9f1g08,
      FlashArray.blank.flash Chip.k9f1g08.rawLen, false, ⟨0, 0⟩⟩ ∧
    ∃ replies damaged,
      ((.request (.writePage 0 (Bytes.filled 2048 0x5A) (Bytes.erased 64)) ::
        offsets.map (Event.inject 0 · 0x01)).mapM play).run controller = .ok (replies, damaged) ∧
      damaged.InUse ∧ damaged.drive.hang = false ∧ damaged.drive.chip = Chip.k9f1g08 ∧
      damaged.drive.profile = smallProfile poll ∧ ∃ before : Bytes, before.size = 2112 ∧
        damaged.drive.flash.content 0 = flipped (fun _ => 0x01) offsets before ∧
        damaged.drive.flash.reference 0 = some before := by
  obtain ⟨controller, hinUse, hdrive, reply, written, hwrite, hwritten, hhang, hchip, hprofile, hsize,
    hstored⟩ := exists_written_page poll
  obtain ⟨replies, damaged, hruns, hdamaged, hdamagedDrive⟩ := hwritten.run_flips offsets
  obtain ⟨hcontent, hreference⟩ := written.drive.flash.flip_spec offsets
  -- Flips reach the flash alone, and of it only what the page holds now.
  refine ⟨controller, hinUse, hdrive, some reply :: replies, damaged, ?_, hdamaged, ?_, ?_, ?_,
    written.drive.flash.content 0, hsize, ?_, ?_⟩
  · rw [List.mapM_cons]
    exact run_step hwrite (run_step hruns rfl)
  · rw [hdamagedDrive]
    exact hhang
  · rw [hdamagedDrive]
    exact hchip
  · rw [hdamagedDrive]
    exact hprofile
  · rw [hdamagedDrive]
    exact hcontent
  · rw [hdamagedDrive]
    exact (congrFun hreference 0).trans hstored

end Controller

end NandFlash
