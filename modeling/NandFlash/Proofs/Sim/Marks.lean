import NandFlash.Proofs.Sim.Blocks

/-!
# Bad block markers

What a request may do to the markers of blocks. Reading changes nothing. Erasing a block, or
writing a page of it with erased spare bytes, changes that block alone and leaves it unmarked if it
was. Marking changes that block alone, and marks it even when the chip reports a failure. These
facts need neither sound blocks nor an engine that answers.
-/

namespace NandFlash

namespace Sim.Drive

variable {drive next last : Drive} {index : Nat}

/-! ## Work on one block -/

/-- Only pages of one block have changed. -/
structure Alters (index : Nat) (drive next : Drive) : Prop where
  keeps : drive.Keeps next
  content_eq : ∀ row, row / drive.chip.pagesPerBlock ≠ index →
    next.flash.content row = drive.flash.content row

/-- Only pages of one block have changed, and it is not marked unless it was. -/
structure Works (index : Nat) (drive next : Drive) : Prop extends Alters index drive next where
  unmarked : drive.isMarked index = false → next.isMarked index = false

theorem Keeps.trans (h : drive.Keeps next) (h' : next.Keeps last) : drive.Keeps last :=
  ⟨h'.chip_eq.trans h.chip_eq, h'.profile_eq.trans h.profile_eq, h'.isWhole ∘ h.isWhole⟩

namespace Works

/-- Reading is work on any block. -/
theorem of_reads (h : drive.Reads next) : drive.Works index next where
  keeps := h.keeps
  content_eq row _ := congrArg (·.content row) h.flash_eq
  unmarked := by
    intro hunmarked
    rw [h.isMarked_eq]
    exact hunmarked

theorem refl (drive : Drive) : drive.Works index drive := of_reads (Reads.refl drive)

theorem trans (h : drive.Works index next) (h' : next.Works index last) :
    drive.Works index last where
  keeps := h.keeps.trans h'.keeps
  content_eq := by
    intro row hrow
    rw [h'.content_eq row (by rwa [h.keeps.chip_eq]), h.content_eq row hrow]
  unmarked := h'.unmarked ∘ h.unmarked

end Works

/-! ## Keeping clear of marked blocks -/

/-- Blocks that were marked have been left alone, and blocks that were not may have been marked only
where `marks` says so. -/
structure Spares (marks : Nat → Prop) (drive next : Drive) : Prop where
  keeps : drive.Keeps next
  kept : ∀ block, drive.isMarked block = true → next.isMarked block = true ∧
    ∀ row, row / drive.chip.pagesPerBlock = block →
      next.flash.content row = drive.flash.content row
  added : ∀ block, next.isMarked block = true → drive.isMarked block = true ∨ marks block

namespace Spares

variable {marks marks' : Nat → Prop}

/-- Reading spares every block. -/
theorem of_reads (h : drive.Reads next) : drive.Spares marks next where
  keeps := h.keeps
  kept _ hmarked := ⟨h.isMarked_eq ▸ hmarked, fun row _ => congrArg (·.content row) h.flash_eq⟩
  added _ hmarked := .inl (h.isMarked_eq ▸ hmarked)

theorem refl (drive : Drive) : drive.Spares marks drive := of_reads (Reads.refl drive)

theorem trans (h : drive.Spares marks next) (h' : next.Spares marks last) :
    drive.Spares marks last where
  keeps := h.keeps.trans h'.keeps
  kept := by
    intro block hmarked
    obtain ⟨hmarked', hrows⟩ := h.kept block hmarked
    obtain ⟨hmarked'', hrows'⟩ := h'.kept block hmarked'
    refine ⟨hmarked'', ?_⟩
    intro row hrow
    rw [hrows' row (by rwa [h.keeps.chip_eq]), hrows row hrow]
  added := by
    intro block hmarked
    rcases h'.added block hmarked with hmarked' | hmarks
    · exact h.added block hmarked'
    · exact .inr hmarks

/-- More blocks may be marked. -/
theorem mono (h : drive.Spares marks next) (hmarks : ∀ block, marks block → marks' block) :
    drive.Spares marks' next :=
  ⟨h.keeps, h.kept, fun block hmarked => (h.added block hmarked).imp_right (hmarks block)⟩

end Spares

/-- The marker of a block is in its first page. -/
theorem isMarked_congr (hkeeps : drive.Keeps next)
    (hcontent : next.flash.content (index * drive.chip.pagesPerBlock) =
      drive.flash.content (index * drive.chip.pagesPerBlock)) :
    next.isMarked index = drive.isMarked index := by
  simp only [isMarked, geometry, hkeeps.chip_eq, hkeeps.profile_eq, hcontent]

/-- Work on a block that is not marked spares all marked ones. -/
theorem Alters.spares (h : drive.Alters index next) (hgenuine : drive.Genuine)
    (hunmarked : drive.isMarked index = false) : drive.Spares (· = index) next := by
  have hfirst : ∀ block, block * drive.chip.pagesPerBlock / drive.chip.pagesPerBlock = block :=
    fun block => Nat.mul_div_cancel block hgenuine.counted.pagesPerBlock_pos
  -- The mark of a block is in its first row, which work on another block leaves as it is.
  have hother : ∀ block, block ≠ index → next.isMarked block = drive.isMarked block := by
    intro block hne
    apply isMarked_congr h.keeps
    apply h.content_eq
    rwa [hfirst]
  refine ⟨h.keeps, ?_, ?_⟩
  · intro block hmarked
    have hne : block ≠ index := by
      rintro rfl
      rw [hunmarked] at hmarked
      cases hmarked
    refine ⟨(hother block hne).trans hmarked, ?_⟩
    intro row hrow
    apply h.content_eq
    rwa [hrow]
  · intro block hmarked
    by_cases hne : block = index
    · exact .inr hne
    · rw [hother block hne] at hmarked
      exact .inl hmarked

/-- Work on a block that leaves it unmarked marks nothing. -/
theorem Works.spares (h : drive.Works index next) (hgenuine : drive.Genuine)
    (hunmarked : drive.isMarked index = false) {marks : Nat → Prop} : drive.Spares marks next := by
  obtain ⟨hkeeps, hkept, hadded⟩ := h.toAlters.spares hgenuine hunmarked
  refine ⟨hkeeps, hkept, ?_⟩
  intro block hmarked
  rcases hadded block hmarked with hbefore | rfl
  · exact .inl hbefore
  · rw [h.unmarked hunmarked] at hmarked
    cases hmarked

/-! ## Requests -/

section

variable {reply : Reply}

/-- A page is read without a change of the flash. -/
theorem reads_of_serve_readPage {page : Nat} {data spare : Bytes}
    (hserve : drive.serve (.readPage page data spare) = .ok (reply, next)) : drive.Reads next := by
  obtain ⟨refusal?, -, hserve⟩ := exists_of_bind_eq_ok hserve
  cases refusal? with
  | some error =>
    cases hserve
    exact Reads.refl drive
  | none =>
    obtain ⟨⟨result, after⟩, hperform, hserve⟩ := exists_of_bind_eq_ok hserve
    cases hserve
    obtain ⟨row, -, hperform⟩ := exists_of_bind_eq_ok hperform
    obtain ⟨row', -, hperform⟩ := exists_of_bind_eq_ok hperform
    obtain ⟨found, -, hperform⟩ := exists_of_bind_eq_ok hperform
    cases hperform
    exact ⟨rfl, rfl, rfl, rfl⟩

/-- Erased spare bytes go to flash without a marker. -/
theorem getElem?_zero_spareFor (hfits : drive.geometry.Fits drive.profile.layout) (data : Bytes) :
    (drive.spareFor data (Bytes.erased drive.geometry.spareSize))[0]? = some erasedByte := by
  have hfirst := Device.getElem?_zero_sealed hfits
  rw [(spareFor_eq hfits data (Bytes.size_erased _)).1, Array.getElem?_append_left, hfirst]
  exact (Array.getElem?_eq_some_iff.1 hfirst).1

namespace Genuine

variable (h : drive.Genuine)
include h

/-- A page that is programmed with an erased marker keeps the marker it has. -/
theorem isMarked_program (hroom : drive.geometry.pageBytes < drive.chip.rawLen) {row : Nat}
    {buffer : Bytes} (hbuffer : buffer[drive.geometry.pageBytes]? = some erasedByte) (ecc : Bool) :
    (drive.on (drive.flash.program row buffer ecc)).isMarked index = drive.isMarked index := by
  have hlt : drive.geometry.pageBytes < (drive.flash.content row).size := by
    rw [h.isWhole row]
    exact hroom
  by_cases hrow : index * drive.chip.pagesPerBlock = row
  · have hmerge : (FlashArray.merge (drive.flash.content row) buffer)[drive.geometry.pageBytes]? =
        (drive.flash.content row)[drive.geometry.pageBytes]? := by
      have hkeep : ∀ cell : UInt8, cell &&& erasedByte = cell := fun _ => UInt8.and_neg_one
      have hcell := Array.getElem?_eq_getElem hlt
      rw [FlashArray.getElem?_merge hcell hbuffer, hkeep, hcell]
    simp only [isMarked, geometry, on, Flash.program, hrow, Function.update_self,
      Array.getD_eq_getD_getElem?] at hmerge ⊢
    rw [hmerge]
  · simp only [isMarked, geometry, on, Flash.program, Function.update_of_ne hrow]

/-- A program with erased spare bytes works on the block of its page. -/
theorem works_of_serve_writePage
    (hraw : drive.geometry.pageBytes + drive.geometry.spareSize ≤ drive.chip.rawLen) {page : Nat}
    {data : Bytes}
    (hserve : drive.serve (.writePage page data (Bytes.erased drive.geometry.spareSize)) =
      .ok (reply, next)) : drive.Works (page / drive.chip.pagesPerBlock) next := by
  -- A write that is refused does nothing, and neither does one that ends before its page goes out.
  rcases h.cases_of_serve hserve with ⟨rfl, -⟩ | ⟨hvalid, result, hperform, -⟩
  · exact Works.refl _
  have hkeeps := keeps_of_perform hperform
  obtain ⟨hpage, hdata, -⟩ := hvalid
  rw [h.perform_writePage hpage] at hperform
  obtain ⟨failure?, -, hperform⟩ := exists_of_bind_eq_ok hperform
  cases failure? with
  | some error =>
    cases hperform
    exact Works.refl _
  | none =>
    cases hperform
    have hfour := Geometry.Fits.four_le_parityStart drive.profile.layout
    have hadd := h.fits.parityStart_add
    have hspare := getElem?_zero_spareFor h.fits data
    have hsize := (spareFor_eq h.fits data (Bytes.size_erased _)).2
    -- The marker of the buffer is the first byte of the spare area.
    have hbuffer : ((drive.pageWith 0 data).overlay drive.geometry.pageBytes (drive.spareFor data
        (Bytes.erased drive.geometry.spareSize)))[drive.geometry.pageBytes]? = some erasedByte := by
      rw [Bytes.getElem?_overlay, size_pageWith, if_pos (by omega), Nat.sub_self, hspare]
    refine ⟨⟨hkeeps, ?_⟩, ?_⟩
    · intro row hrow
      apply Function.update_of_ne
      rintro rfl
      exact hrow rfl
    · intro hunmarked
      exact (h.isMarked_program (by omega) hbuffer _).trans hunmarked

/-- An erase works on its block, done or refused. -/
theorem works_of_serve_eraseBlock (hserve : drive.serve (.eraseBlock index) = .ok (reply, next)) :
    drive.Works index next := by
  rcases h.cases_of_serve hserve with ⟨rfl, -⟩ | ⟨hvalid, result, hperform, -⟩
  · exact Works.refl _
  have hkeeps := keeps_of_perform hperform
  have hpos := h.counted.pagesPerBlock_pos
  rw [h.perform_eraseBlock hvalid] at hperform
  cases hperform
  -- A failing block keeps its content, a marker if there is one included.
  cases hfailing : drive.flash.isFailing index with
  | true =>
    simp only [if_true]
    exact Works.refl _
  | false =>
    simp only [hfailing, Bool.false_eq_true, if_false] at hkeeps ⊢
    refine ⟨⟨hkeeps, ?_⟩, ?_⟩
    · intro row hrow
      apply if_neg
      rintro ⟨hle, hlt⟩
      apply hrow
      rw [Nat.div_eq_iff hpos]
      omega
    · -- The first page of an erased block has no marker.
      intro _
      have hfirst : (drive.flash.erase drive.chip.rawLen (index * drive.chip.pagesPerBlock)
          drive.chip.pagesPerBlock).content (index * drive.chip.pagesPerBlock) =
            Bytes.erased drive.chip.rawLen := if_pos ⟨Nat.le_refl _, by omega⟩
      simp only [isMarked, hfirst, Bytes.erased, Bytes.filled, Array.getD_eq_getD_getElem?,
        Array.getElem?_replicate]
      split <;> simp

/-- A mark changes pages of its block alone. -/
theorem alters_of_serve_markBad (hserve : drive.serve (.markBad index) = .ok (reply, next)) :
    drive.Alters index next := by
  rcases h.cases_of_serve hserve with ⟨rfl, -⟩ | ⟨hvalid, result, hperform, -⟩
  · exact (Works.refl _).toAlters
  have hkeeps := keeps_of_perform hperform
  rw [h.perform_markBad hvalid] at hperform
  cases hperform
  refine ⟨hkeeps, ?_⟩
  intro row hrow
  apply Function.update_of_ne
  rintro rfl
  apply hrow
  exact Nat.mul_div_cancel _ h.counted.pagesPerBlock_pos

/-- A block is marked once its marker has been written, whatever the chip reports. -/
theorem isMarked_mark (hroom : drive.geometry.pageBytes < drive.chip.rawLen) :
    (drive.on (drive.flash.mark (index * drive.chip.pagesPerBlock)
      drive.geometry.pageBytes)).isMarked index = true := by
  have hlt : drive.profile.geometry.pageBytes <
      (drive.flash.content (index * drive.chip.pagesPerBlock)).size := by
    rw [h.isWhole]
    exact hroom
  simp only [isMarked, geometry, on, Flash.mark, Function.update_self, Array.getD_eq_getD_getElem?]
  rw [Array.getElem?_setIfInBounds_ne (by omega), Array.getElem?_setIfInBounds_self_of_lt hlt]
  decide

end Genuine

end

end Sim.Drive

end NandFlash
