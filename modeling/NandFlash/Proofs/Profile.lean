import Mathlib.Algebra.Group.Nat.Defs
import Mathlib.Tactic.Common
import NandFlash.Controller.Probe

/-!
# What probing settles

Every dimension of an identified chip is a power of two, so that its counts of pages and blocks
are exact and fit their words. A chosen geometry has its parity at the end of a spare area that
fits the window. `Profile.Settled` keeps both facts together.
-/

namespace NandFlash

/-! ## Identified chips -/

/-- The dimensions of an identified chip, as exponents of two. -/
structure ChipInfo.Scaled (chip : ChipInfo) (page block size : Nat) : Prop where
  pageSize_eq : chip.pageSize = 2 ^ (10 + page)
  blockSize_eq : chip.blockSize = 2 ^ (16 + block)
  chipSize_eq : chip.chipSize = 2 ^ (20 + size)
  page_le : page ≤ 3
  block_le : block ≤ 3
  le_size : 7 ≤ size
  size_le : size ≤ 13

namespace ChipInfo

/-- Capacities are powers of two between 128 MiB and 8 GiB. -/
theorem capacity?_eq_some {device : UInt8} {mib : Nat} (h : capacity? device = some mib) :
    ∃ size, mib = 2 ^ size ∧ 7 ≤ size ∧ size ≤ 13 := by
  unfold capacity? at h
  split at h <;> cases h
  exacts [⟨7, rfl, by omega, by omega⟩, ⟨7, rfl, by omega, by omega⟩,
    ⟨8, rfl, by omega, by omega⟩, ⟨9, rfl, by omega, by omega⟩, ⟨10, rfl, by omega, by omega⟩,
    ⟨11, rfl, by omega, by omega⟩, ⟨12, rfl, by omega, by omega⟩, ⟨13, rfl, by omega, by omega⟩]

/-- The only part known by all its bytes has pages of 4 KiB and blocks of 256 KiB. -/
theorem fullIds_eq_some {bytes : IdBytes} {page spare block : Nat}
    (h : fullIds.lookup bytes = some (page, spare, block)) :
    page = 2 ^ 12 ∧ block = 2 ^ 18 := by
  rw [fullIds, List.lookup_cons] at h
  split at h
  · cases h
    exact ⟨rfl, rfl⟩
  · cases h

/-- Two bits are at most three. -/
theorem toNat_and_three_le (byte : UInt8) : (byte &&& 3).toNat ≤ 3 := by
  rw [UInt8.toNat_and]
  exact Nat.and_le_right

/-- The shifts of a parsed identification take two bits each. -/
theorem parse_shifts {bytes : Bytes} {id : NandId} (h : NandId.parse bytes = .ok id) :
    id.pageShift.toNat ≤ 3 ∧ id.blockShift.toNat ≤ 3 := by
  unfold NandId.parse at h
  split at h
  · cases h
    exact ⟨toNat_and_three_le _, toNat_and_three_le _⟩
  · cases h

theorem quotient_two_pow {a b : Nat} (h : b ≤ a) :
    quotient (2 ^ a) (2 ^ b) = .ok (2 ^ (a - b)) := by
  rw [quotient, if_neg (Nat.ne_of_gt (Nat.two_pow_pos b)), Nat.pow_div h (by omega)]

theorem two_pow_mod_word {k : Nat} (h : k < 32) : 2 ^ k % UInt32.size = 2 ^ k :=
  Nat.mod_eq_of_lt (Nat.pow_lt_pow_right (by omega) h)

/-- Every dimension of an identified chip is a power of two. -/
theorem scaled_of_decode {bytes : IdBytes} {chip : ChipInfo} (h : decode bytes = .ok chip) :
    ∃ page block size, chip.Scaled page block size := by
  unfold decode at h
  cases hparse : NandId.parse bytes.toArray with
  | error e => simp only [hparse, bind, Except.bind] at h; cases h
  | ok id =>
    obtain ⟨hpage, hblock⟩ := parse_shifts hparse
    cases hcapacity : capacity? id.device with
    | none => simp only [hparse, hcapacity, bind, Except.bind] at h; cases h
    | some mib =>
      obtain ⟨size, rfl, hle, hge⟩ := capacity?_eq_some hcapacity
      have hsize : 2 ^ size <<< 20 = 2 ^ (20 + size) := by
        rw [Nat.shiftLeft_eq, Nat.pow_add, Nat.mul_comm]
      simp only [hparse, hcapacity, bind, Except.bind, pure, Except.pure] at h
      -- A chip known in full has its dimensions listed; its size goes by the capacity all the same.
      cases hfull : fullIds.lookup bytes with
      | some dimensions =>
        obtain ⟨pageSize, spareSize, blockSize⟩ := dimensions
        obtain ⟨rfl, rfl⟩ := fullIds_eq_some hfull
        simp only [hfull, Except.ok.injEq] at h
        subst h
        exact ⟨2, 2, size, rfl, rfl, hsize, by omega, by omega, hle, hge⟩
      | none =>
        simp only [hfull] at h
        split at h
        · cases h
        · cases h
          refine ⟨id.pageShift.toNat, id.blockShift.toNat, size, ?_, ?_, hsize, hpage, hblock,
            hle, hge⟩
          · exact (Nat.shiftLeft_eq _ _).trans (Nat.pow_add 2 10 _).symm
          · exact (Nat.shiftLeft_eq _ _).trans (Nat.pow_add 2 16 _).symm

namespace Scaled

variable {chip : ChipInfo} {page block size : Nat} (h : chip.Scaled page block size)

include h

/-- Pages and blocks are counted by powers of two, and none of the counts is cut off. -/
theorem pagesPerBlock_eq : chip.pagesPerBlock = .ok (2 ^ (6 + block - page)) := by
  obtain ⟨hpage, hblock, -, hle, hle', -, -⟩ := h
  have hexp : 16 + block - (10 + page) = 6 + block - page := by omega
  rw [pagesPerBlock, hpage, hblock, quotient_two_pow (by omega), hexp]
  show Except.ok _ = _
  rw [two_pow_mod_word (by omega)]

theorem blocks_eq : chip.blocks = .ok (2 ^ (4 + size - block)) := by
  obtain ⟨-, hblock, hsize, -, hle, hle', hge⟩ := h
  have hexp : 20 + size - (16 + block) = 4 + size - block := by omega
  rw [blocks, hsize, hblock, quotient_two_pow (by omega), hexp]
  show Except.ok _ = _
  rw [two_pow_mod_word (by omega)]

theorem pages_eq : chip.pages = .ok (2 ^ (10 + size - page)) := by
  have hle := h.page_le
  have hle' := h.block_le
  have hge := h.size_le
  have hexp : 4 + size - block + (6 + block - page) = 10 + size - page := by
    have := h.le_size
    omega
  have hlt : 2 ^ (10 + size - page) < UInt32.size :=
    Nat.pow_lt_pow_right (by omega) (by omega : 10 + size - page < 32)
  simp only [pages, h.blocks_eq, h.pagesPerBlock_eq, bind, Except.bind]
  rw [← Nat.pow_add, hexp, word32, if_pos hlt]

/-- The row of a block on the chip is a 32-bit number. -/
theorem firstRow_lt {index : Nat} (hindex : index < 2 ^ (4 + size - block)) :
    index * 2 ^ (6 + block - page) < UInt32.size := by
  have hexp : 4 + size - block + (6 + block - page) < 32 := by
    have := h.size_le
    have := h.block_le
    omega
  calc index * 2 ^ (6 + block - page)
    _ < 2 ^ (4 + size - block) * 2 ^ (6 + block - page) :=
      Nat.mul_lt_mul_of_pos_right hindex (Nat.two_pow_pos _)
    _ = 2 ^ (4 + size - block + (6 + block - page)) := (Nat.pow_add _ _ _).symm
    _ < 2 ^ 32 := Nat.pow_lt_pow_right (by omega) hexp

end Scaled

end ChipInfo

/-! ## Chosen geometries -/

/-- A geometry has the parameters it was made from. -/
theorem Geometry.make_eq_ok {page : PageSize} {spareSize : Nat} {strength : Strength}
    {g : Geometry} (h : make page spareSize strength = .ok g) :
    g.page = page ∧ g.spareSize = spareSize ∧ g.strength = strength := by
  unfold make at h
  split at h
  · cases h
    exact ⟨rfl, rfl, rfl⟩
  · cases h

/-- A geometry and layout that were chosen together. -/
structure Geometry.Fits (g : Geometry) (layout : SpareLayout) : Prop where
  isSelectable : g.page.isSelectable
  /-- The parity is what the fields cost. -/
  parityLen_eq : layout.parityLen = g.parityBytes
  /-- Markers, free bytes and parity are the whole spare area. -/
  size_eq : layout.size = g.spareSize
  spareSize_le : g.spareSize ≤ windowLen

namespace Geometry.Fits

variable {g : Geometry} {layout : SpareLayout} (h : g.Fits layout)

include h

/-- The parity ends the spare area. -/
theorem parityStart_add : layout.parityStart + g.parityBytes = g.spareSize := by
  rw [← h.parityLen_eq, ← h.size_eq, SpareLayout.size]

/-- The parity starts within the spare area. -/
theorem parityStart_le : layout.parityStart ≤ g.spareSize :=
  Nat.le.intro h.parityStart_add

theorem parityBytes_le : g.parityBytes ≤ g.spareSize := by
  have := h.parityStart_add
  omega

/-- The parity ends with the spare area. -/
theorem parityStart_eq : layout.parityStart = g.spareSize - g.parityBytes := by
  have := h.parityStart_add
  omega

omit h in
/-- At least four bytes stand in front of the parity. -/
theorem four_le_parityStart (layout : SpareLayout) : 4 ≤ layout.parityStart := by
  simp only [SpareLayout.parityStart, SpareLayout.freeStart, markerLen]
  omega

theorem pageBytes_mem : g.pageBytes = 2048 ∨ g.pageBytes = 4096 ∨ g.pageBytes = 8192 := by
  have hpage := h.isSelectable
  rw [pageBytes]
  revert hpage
  cases g.page <;> decide

end Geometry.Fits

namespace Selection

/-- Probing never gives a page size that cannot be selected. -/
theorem probedPage?_isSelectable {pageSize : Nat} {page : PageSize}
    (h : probedPage? pageSize = some page) : page.isSelectable := by
  simp only [probedPage?, Option.filter_eq_some_iff] at h
  exact h.2

/-- Nor does the setting. -/
theorem page?_isSelectable {setting : PowerOn} {page : PageSize} (h : setting.page? = some page) :
    page.isSelectable := by
  unfold PowerOn.page? at h
  split at h <;> cases h <;> rfl

/-- Only page sizes the selector handles are drafted. -/
theorem draft_isSelectable {pageSize spareSize : Nat} {setting : PowerOn} {d : Draft}
    (h : draft pageSize spareSize setting = .ok d) : d.page.isSelectable := by
  unfold draft at h
  split at h
  · next page hpage =>
    cases h
    exact page?_isSelectable hpage
  · next page hpage =>
    cases h
    rw [draftForProbed]
    split <;> exact probedPage?_isSelectable hpage
  · cases h

/-- What is chosen fits. -/
theorem fits_of_ofDraft {d : Draft} {selection : Selection} (hpage : d.page.isSelectable)
    (h : ofDraft d = .ok selection) : selection.geometry.Fits selection.layout := by
  unfold ofDraft at h
  cases hfit : SpareLayout.fit? d.spareSize ((parityBudget d.page d.strength).getD 0) with
  | none => simp only [hfit] at h; cases h
  | some layout =>
    obtain ⟨hsize, hparity⟩ := SpareLayout.fit?_eq_some_iff.1 hfit
    simp only [hfit, bind, Except.bind, pure, Except.pure] at h
    by_cases hlen : d.spareSize > windowLen
    · rw [if_pos hlen] at h
      cases h
    · rw [if_neg hlen] at h
      cases hmake : Geometry.make d.page d.spareSize d.strength with
      | error e => simp only [hmake] at h; cases h
      | ok g =>
        obtain ⟨hgpage, hgspare, hgstrength⟩ := Geometry.make_eq_ok hmake
        simp only [hmake, Except.ok.injEq] at h
        subst h
        refine ⟨by rwa [hgpage], ?_, by rw [hsize, hgspare], hgspare ▸ Nat.le_of_not_lt hlen⟩
        -- The layout has been fitted to the very parity that the geometry calls for.
        have hbudget := g.parityBudget_eq (by rwa [hgpage])
        rw [hgpage, hgstrength] at hbudget
        rw [hparity, hbudget, Option.getD_some]

/-- A chosen geometry has its parity at the end of a spare area that fits the window. -/
theorem fits_of_choose {pageSize spareSize : Nat} {setting : PowerOn} {selection : Selection}
    (h : choose pageSize spareSize setting = .ok selection) :
    selection.geometry.Fits selection.layout := by
  unfold choose at h
  cases hdraft : draft pageSize spareSize setting with
  | error e => rw [hdraft] at h; cases h
  | ok d =>
    rw [hdraft] at h
    exact fits_of_ofDraft (draft_isSelectable hdraft) h

end Selection

/-! ## Profiles -/

/-- A profile that probing can arrive at. -/
structure Profile.Settled (profile : Profile) : Prop where
  scaled : ∃ page block size, profile.chip.Scaled page block size
  fits : profile.geometry.Fits profile.layout

namespace Profile.Settled

variable {profile : Profile} (h : profile.Settled)

include h

theorem exists_pages : ∃ pages, profile.chip.pages = .ok pages := by
  obtain ⟨_, _, _, hscaled⟩ := h.scaled
  exact ⟨_, hscaled.pages_eq⟩

theorem exists_blocks : ∃ blocks, profile.chip.blocks = .ok blocks := by
  obtain ⟨_, _, _, hscaled⟩ := h.scaled
  exact ⟨_, hscaled.blocks_eq⟩

end Profile.Settled

end NandFlash
