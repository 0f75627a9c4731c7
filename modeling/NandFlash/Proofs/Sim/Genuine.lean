import NandFlash.Proofs.Sim.Drive
import NandFlash.Proofs.Sim.Whole

/-!
# Genuine chips

A chip is genuine if its identification tells its own dimensions. On a genuine chip every row that
a driver sends arrives, no count leaves its word, and an operation on a page or block that exists
is carried out on just that page or block.
-/

namespace NandFlash

/-! ## Rows -/

namespace ChipInfo

/-- The smallest pages on a chip that takes two row cycles: there are twice as many of them as two
cycles can tell apart. -/
def Crowded (info : ChipInfo) : Prop := info.pageSize = 1024 ∧ info.chipSize = smallChipLimit

theorem Scaled.crowded_iff {info : ChipInfo} {page block size : Nat}
    (h : info.Scaled page block size) : info.Crowded ↔ page = 0 ∧ size = 7 := by
  have hpage : (1024 : Nat) = 2 ^ (10 + 0) := rfl
  have hsize : smallChipLimit = 2 ^ (20 + 7) := rfl
  rw [Crowded, h.pageSize_eq, h.chipSize_eq, hpage, hsize,
    Nat.pow_right_inj (by decide : 1 < 2), Nat.pow_right_inj (by decide : 1 < 2)]
  omega

/-- There are rows enough for the pages of every chip that is not crowded. -/
theorem Scaled.pages_le_iff {info : ChipInfo} {page block size : Nat}
    (h : info.Scaled page block size) :
    2 ^ (10 + size - page) ≤ 256 ^ info.rowCycles ↔ ¬info.Crowded := by
  have hle := h.page_le
  have hsize := h.size_le
  have hseven := h.le_size
  have hlimit : smallChipLimit = 2 ^ 27 := rfl
  have hbyte : (256 : Nat) = 2 ^ 8 := rfl
  rw [h.crowded_iff, rowCycles, h.chipSize_eq, hlimit, hbyte, ← Nat.pow_mul,
    Nat.pow_le_pow_iff_right (by decide)]
  simp only [gt_iff_lt, Nat.pow_lt_pow_iff_right (by decide : 1 < 2)]
  split <;> omega

end ChipInfo

/-! ## Chips -/

namespace Sim

/-- The identification of a chip decodes to the dimensions it really has. -/
def Chip.Truthful (chip : Chip) : Prop :=
  ∃ info, ChipInfo.decode chip.id = .ok info ∧ info.pageSize = chip.pageSize ∧
    info.pagesPerBlock = .ok chip.pagesPerBlock ∧ info.blocks = .ok chip.blocks

/-- The identification of a chip decodes to the dimensions it really has, and its pages are not
smaller than the smallest ones that can be driven. -/
structure Chip.Genuine (chip : Chip) : Prop where
  decodes : ∃ info, ChipInfo.decode chip.id = .ok info ∧ info.pageSize = chip.pageSize ∧
    info.pagesPerBlock = .ok chip.pagesPerBlock ∧ info.blocks = .ok chip.blocks
  le_pageSize : 2048 ≤ chip.pageSize

namespace Chip

variable {chip : Chip}

/-- Number of pages of a chip, as a number without a bound. -/
def pageCount (chip : Chip) : Nat := chip.blocks * chip.pagesPerBlock

/-- The pages of a block are pages of the chip. -/
theorem page_lt {block k : Nat} (hblock : block < chip.blocks) (hk : k < chip.pagesPerBlock) :
    block * chip.pagesPerBlock + k < chip.pageCount := by
  calc block * chip.pagesPerBlock + k
      < block * chip.pagesPerBlock + chip.pagesPerBlock := Nat.add_lt_add_left hk _
    _ = (block + 1) * chip.pagesPerBlock := (Nat.succ_mul _ _).symm
    _ ≤ chip.pageCount := Nat.mul_le_mul_right _ hblock

/-- What the dimensions of a truthful chip come to, in powers of two. -/
theorem Truthful.exists_scaled (h : chip.Truthful) {info : ChipInfo}
    (hdecode : ChipInfo.decode chip.id = .ok info) :
    ∃ page block size, info.Scaled page block size ∧
      chip.pageSize = 2 ^ (10 + page) ∧ chip.pagesPerBlock = 2 ^ (6 + block - page) ∧
      chip.blocks = 2 ^ (4 + size - block) := by
  obtain ⟨info', hdecode', hpage, hperBlock, hblocks⟩ := h
  cases hdecode.symm.trans hdecode'
  obtain ⟨page, block, size, hscaled⟩ := ChipInfo.scaled_of_decode hdecode
  refine ⟨page, block, size, hscaled, hpage.symm.trans hscaled.pageSize_eq, ?_, ?_⟩
  · exact (Except.ok.inj (hscaled.pagesPerBlock_eq.symm.trans hperBlock)).symm
  · exact (Except.ok.inj (hscaled.blocks_eq.symm.trans hblocks)).symm

theorem genuine_k9f1g08 : k9f1g08.Genuine := ⟨⟨_, rfl, rfl, rfl, rfl⟩, by decide⟩

/-- Counts and row cycles of a genuine chip, as the driver computes them and as they are. -/
structure Counted (chip : Chip) (info : ChipInfo) : Prop where
  pagesPerBlock_eq : info.pagesPerBlock = .ok chip.pagesPerBlock
  blocks_eq : info.blocks = .ok chip.blocks
  pages_eq : info.pages = .ok chip.pageCount
  chip_pages_eq : chip.pages = .ok chip.pageCount
  rowCycles_eq : chip.rowCycles = .ok info.rowCycles
  pagesPerBlock_pos : 0 < chip.pagesPerBlock
  blocks_pos : 0 < chip.blocks
  pagesPerBlock_le : chip.pagesPerBlock ≤ 2 ^ 9
  /-- Every page has a row that its cycles can spell. -/
  pageCount_le : chip.pageCount ≤ 256 ^ info.rowCycles
  pageCount_lt : chip.pageCount < UInt32.size

/-- On a truthful chip the driver counts right, as long as the chip is not crowded. -/
theorem Truthful.counted (h : chip.Truthful) {info : ChipInfo}
    (hdecode : ChipInfo.decode chip.id = .ok info) (hroom : ¬info.Crowded) :
    chip.Counted info := by
  obtain ⟨page, block, size, hscaled, hpageSize, hperBlock, hblocks⟩ := h.exists_scaled hdecode
  have hle := hscaled.page_le
  have hblock := hscaled.block_le
  have hsize := hscaled.size_le
  have hseven := hscaled.le_size
  have hcount : chip.pageCount = 2 ^ (10 + size - page) := by
    rw [pageCount, hblocks, hperBlock, ← Nat.pow_add]
    congr 1
    omega
  have hlt : chip.pageCount < UInt32.size := by
    rw [hcount]
    exact Nat.lt_of_le_of_lt (Nat.pow_le_pow_right (by decide) (by omega : 10 + size - page ≤ 31))
      (by decide)
  have hpages : chip.pages = .ok chip.pageCount := word32_eq_ok.2 ⟨hlt, rfl⟩
  -- Pages and bytes are powers of two, and so the driver and the chip count the same.
  have htotal : chip.pageCount * chip.pageSize = 2 ^ (20 + size) := by
    rw [hcount, hpageSize, ← Nat.pow_add]
    congr 1
    omega
  have hcycles : chip.rowCycles = .ok info.rowCycles := by
    have htotalLt : 2 ^ (20 + size) < UInt64.size :=
      Nat.lt_of_le_of_lt (Nat.pow_le_pow_right (by decide) (by omega : 20 + size ≤ 33)) (by decide)
    have hfull : chip.size = .ok (2 ^ (20 + size)) := by
      simp only [Chip.size, hpages, bind, Except.bind]
      exact word64_eq_ok.2 ⟨htotal ▸ htotalLt, htotal.symm⟩
    simp only [Chip.rowCycles, ChipInfo.rowCycles, hfull, hscaled.chipSize_eq, bind, Except.bind,
      pure, Except.pure]
  refine ⟨hperBlock ▸ hscaled.pagesPerBlock_eq, hblocks ▸ hscaled.blocks_eq,
    hcount ▸ hscaled.pages_eq, hpages, hcycles, ?_, ?_, ?_, ?_, hlt⟩
  · rw [hperBlock]
    exact Nat.two_pow_pos _
  · rw [hblocks]
    exact Nat.two_pow_pos _
  · rw [hperBlock]
    exact Nat.pow_le_pow_right (by decide) (by omega)
  · rw [hcount]
    exact hscaled.pages_le_iff.2 hroom

theorem Genuine.truthful (h : chip.Genuine) : chip.Truthful := h.decodes

theorem Genuine.counted (h : chip.Genuine) {info : ChipInfo}
    (hdecode : ChipInfo.decode chip.id = .ok info) : chip.Counted info := by
  refine h.truthful.counted hdecode ?_
  rintro ⟨hpage, -⟩
  obtain ⟨info', hdecode', hpage', -⟩ := h.decodes
  cases hdecode.symm.trans hdecode'
  have hle := h.le_pageSize
  omega

end Chip

/-! ## Genuine drives -/

namespace Drive

variable {drive : Drive}

/-- The chip of a drive has the dimensions that its profile speaks of, and whole pages. -/
structure Genuine (drive : Drive) : Prop where
  counted : drive.chip.Counted drive.profile.chip
  fits : drive.geometry.Fits drive.profile.layout
  isWhole : drive.flash.IsWhole drive.chip.rawLen

namespace Genuine

variable (h : drive.Genuine)
include h

theorem rowAt_eq (command : Command) {row : Nat} (hrow : row < drive.chip.pageCount) :
    drive.rowAt command row = .ok row := by
  have hlt : row < 256 ^ drive.profile.chip.rowCycles :=
    Nat.lt_of_lt_of_le hrow h.counted.pageCount_le
  simp only [rowAt, Chip.rowAt, h.counted.rowCycles_eq, bind, Except.bind, ne_eq, not_true_eq_false,
    if_false, pure, Except.pure, Nat.mod_eq_of_lt hlt]

theorem first_lt {block : Nat} (hblock : block < drive.chip.blocks) :
    block * drive.chip.pagesPerBlock < drive.chip.pageCount :=
  Chip.page_lt hblock h.counted.pagesPerBlock_pos

theorem firstRow_eq {block : Nat} (hblock : block < drive.chip.blocks) :
    drive.firstRow block = .ok (block * drive.chip.pagesPerBlock) := by
  simp only [firstRow, h.counted.pagesPerBlock_eq, bind, Except.bind]
  exact word32_eq_ok.2 ⟨Nat.lt_trans (h.first_lt hblock) h.counted.pageCount_lt, rfl⟩

theorem quotient_eq (row : Nat) :
    quotient row drive.chip.pagesPerBlock = .ok (row / drive.chip.pagesPerBlock) := by
  rw [quotient, if_neg (Nat.pos_iff_ne_zero.1 h.counted.pagesPerBlock_pos)]

theorem programRow_eq (flash : Flash) {row : Nat} (hrow : row < drive.chip.pageCount)
    (buffer : Bytes) (ecc : Bool) :
    drive.chip.programRow flash row buffer ecc =
      .ok (!flash.isFailing (row / drive.chip.pagesPerBlock),
        flash.program row buffer (ecc && !flash.isFailing (row / drive.chip.pagesPerBlock))) := by
  simp only [Chip.programRow, h.quotient_eq, h.counted.chip_pages_eq, bind, Except.bind,
    if_neg (Nat.not_le_of_lt hrow), pure, Except.pure]

theorem eraseRow_eq (flash : Flash) {block : Nat} (hblock : block < drive.chip.blocks) :
    drive.chip.eraseRow flash (block * drive.chip.pagesPerBlock) =
      .ok (!flash.isFailing block, if flash.isFailing block then flash
        else flash.erase drive.chip.rawLen (block * drive.chip.pagesPerBlock)
          drive.chip.pagesPerBlock) := by
  have hlast : (block + 1) * drive.chip.pagesPerBlock < UInt32.size :=
    Nat.lt_of_le_of_lt (Nat.mul_le_mul_right _ hblock) h.counted.pageCount_lt
  have hfirst := Nat.lt_trans (h.first_lt hblock) h.counted.pageCount_lt
  simp only [Chip.eraseRow, h.quotient_eq, Nat.mul_div_cancel _ h.counted.pagesPerBlock_pos,
    bind, Except.bind]
  cases hfailing : flash.isFailing block with
  | true => simp [pure, Except.pure]
  | false =>
    rw [if_neg (by simpa using hblock), word32_eq_ok.2 ⟨hfirst, rfl⟩, word32_eq_ok.2 ⟨hlast, rfl⟩]
    rfl

/-- A request is refused, or else its arguments are valid and it is carried out. -/
theorem cases_of_serve {next : Drive} {request : Request} {reply : Reply}
    (hserve : drive.serve request = .ok (reply, next)) :
    (next = drive ∧ ∃ error, reply.outcome = .error error) ∨
      request.Valid drive.geometry drive.chip.pageCount drive.chip.blocks ∧
        ∃ result, drive.perform request = .ok (result, next) ∧ reply.outcome = result.1 := by
  obtain ⟨refusal?, hrefusal, hserve⟩ := exists_of_bind_eq_ok hserve
  cases refusal? with
  | some error =>
    cases hserve
    exact .inl ⟨rfl, error, rfl⟩
  | none =>
    obtain ⟨⟨result, after⟩, hperform, hserve⟩ := exists_of_bind_eq_ok hserve
    cases hserve
    exact .inr ⟨(Request.refusal?_eq_none_iff h.counted.pages_eq h.counted.blocks_eq request).1
      hrefusal, result, hperform, rfl⟩

end Genuine

end Drive

end Sim

end NandFlash
