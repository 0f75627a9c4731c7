import Mathlib.Tactic.Common
import NandFlash.Proofs.Profile

/-!
# What is chosen, and when nothing is

A geometry is chosen from a probed page size, a probed spare size and the power-on word. Page
sizes and strengths come from the two fields of the word, or from defaults where a field is unset;
what the parity costs follows from the shape of the codewords. Each way to fail is characterised
by the sizes alone, and a choice that is made has parts that agree with each other.
-/

namespace NandFlash

/-! ## The power-on word -/

/-- A field of two bits, moved to the bottom. -/
theorem and_three_shiftLeft (word k : UInt32) (h : k < 32) :
    word &&& (3 <<< k) = ((word >>> k) &&& 3) <<< k := by
  have hk : k.toNat < 32 := h
  apply UInt32.toBitVec_inj.1
  apply BitVec.eq_of_getLsbD_eq
  intro i hi
  simp only [UInt32.toBitVec_and, UInt32.toBitVec_shiftLeft, UInt32.toBitVec_shiftRight,
    UInt32.toBitVec_ofNat, BitVec.ofNat_eq_ofNat, BitVec.shiftLeft_eq', BitVec.ushiftRight_eq',
    BitVec.toNat_umod, UInt32.toNat_toBitVec, BitVec.toNat_ofNat, Nat.reducePow, Nat.reduceMod,
    Nat.mod_eq_of_lt hk, hi, BitVec.getLsbD_eq_getElem, BitVec.getElem_and,
    BitVec.getElem_shiftLeft, BitVec.getElem_ushiftRight]
  -- Below the field both sides have no bits, and from there on they are the same.
  by_cases hlt : i < k.toNat
  · rw [decide_eq_true hlt, Bool.not_true, Bool.false_and, Bool.false_and, Bool.and_false]
  · rw [Nat.add_sub_of_le (Nat.le_of_not_lt hlt), BitVec.getLsbD_eq_getElem hi, Bool.and_left_comm]

theorem and_three_cases (word : UInt32) :
    word &&& 3 = 0 ∨ word &&& 3 = 1 ∨ word &&& 3 = 2 ∨ word &&& 3 = 3 := by
  have hle : (word &&& 3).toNat ≤ 3 := by
    rw [UInt32.toNat_and]
    exact Nat.and_le_right
  simp only [← UInt32.toNat_inj]
  show _ = 0 ∨ _ = 1 ∨ _ = 2 ∨ _ = 3
  omega

namespace PowerOn

/-- The page field is at bit 12, and each of its values has its meaning. -/
structure DecodesPage (setting : PowerOn) : Prop where
  p2048_iff : setting.page? = some .p2048 ↔ setting.field 12 = 0
  p4096_iff : setting.page? = some .p4096 ↔ setting.field 12 = 1
  p8192_iff : setting.page? = some .p8192 ↔ setting.field 12 = 2
  unset_iff : setting.page? = none ↔ setting.field 12 = 3

/-- The strength field is at bit 14, and each of its values has its meaning. -/
structure DecodesStrength (setting : PowerOn) : Prop where
  none_iff : setting.strength? = some .none ↔ setting.field 14 = 0
  t12_iff : setting.strength? = some .t12 ↔ setting.field 14 = 1
  t24_iff : setting.strength? = some .t24 ↔ setting.field 14 = 2
  unset_iff : setting.strength? = none ↔ setting.field 14 = 3

theorem and_pageMask (setting : PowerOn) :
    setting.word &&& (0x3000 : UInt32) = setting.field 12 <<< 12 :=
  and_three_shiftLeft setting.word 12 (by decide)

theorem and_strengthMask (setting : PowerOn) :
    setting.word &&& (0xC000 : UInt32) = setting.field 14 <<< 14 :=
  and_three_shiftLeft setting.word 14 (by decide)

/-- What each value of the two fields asks for. -/
theorem decodes (setting : PowerOn) : setting.DecodesPage ∧ setting.DecodesStrength := by
  constructor
  · obtain h | h | h | h := and_three_cases (setting.word >>> 12)
    all_goals
      constructor <;>
      · rw [page?, and_pageMask, field, h]
        decide
  · obtain h | h | h | h := and_three_cases (setting.word >>> 14)
    all_goals
      constructor <;>
      · rw [strength?, and_strengthMask, field, h]
        decide

/-- The page field is unset when both its bits are set. -/
theorem page?_eq_none_iff (setting : PowerOn) :
    setting.page? = none ↔ setting.word &&& 0x3000 = 0x3000 := by
  rw [setting.decodes.1.unset_iff, and_pageMask]
  obtain h | h | h | h := and_three_cases (setting.word >>> 12) <;> rw [field, h] <;> decide

/-- The strength field is unset when both its bits are set. -/
theorem strength?_eq_none_iff (setting : PowerOn) :
    setting.strength? = none ↔ setting.word &&& 0xC000 = 0xC000 := by
  rw [setting.decodes.2.unset_iff, and_strengthMask]
  obtain h | h | h | h := and_three_cases (setting.word >>> 14) <;> rw [field, h] <;> decide

end PowerOn

/-! ## The spare area -/

theorem SpareLayout.fit?_eq_none_iff {size parity : Nat} :
    fit? size parity = none ↔ size < parity + 4 := by
  rw [fit?, markerLen]
  split <;> simp <;> omega

theorem SpareLayout.le_of_fit? {size parity : Nat} {layout : SpareLayout}
    (h : fit? size parity = some layout) : parity + 4 ≤ size := by
  refine Nat.le_of_not_lt fun hlt => ?_
  rw [fit?_eq_none_iff.2 hlt] at h
  cases h

namespace Selection

/-! ## The terms of a choice -/

/-- Parity bytes of a whole page, by the shape of its codewords. -/
def parityCost (page : PageSize) (strength : Strength) : Nat :=
  strength.codeword.parityLen * (page.bytes / strength.codeword.fieldLen)

/-- Is a geometry ever chosen for devices with this page size? -/
def Supported (pageSize : Nat) : Prop := pageSize = 2048 ∨ pageSize = 4096 ∨ pageSize = 8192

/-- The strength of a page that the setting dictates: the one it asks for, else the default of the
probed page, else the default of the dictated one. -/
inductive Dictates (pageSize : Nat) (page : PageSize) : Option Strength → Strength → Prop where
  | asked (strength : Strength) : Dictates pageSize page (some strength) strength
  | probed (probed : PageSize) (hpage : probed.isSelectable) (hbytes : probed.bytes = pageSize) :
      Dictates pageSize page none probed.defaultStrength
  | unsupported (h : ¬Supported pageSize) : Dictates pageSize page none page.defaultStrength

/-- The strength of a page that was probed, and the warnings it costs: an asked strength is granted
if it is the default anyway or if its parity fits beside the markers. -/
inductive Grants (page : PageSize) (spareSize : Nat) :
    Option Strength → Strength → List EccDoesNotFit → Prop where
  | unasked : Grants page spareSize none page.defaultStrength []
  | asked (strength : Strength)
      (h : strength = page.defaultStrength ∨ parityCost page strength + 4 ≤ spareSize) :
      Grants page spareSize (some strength) strength []
  | refused (strength : Strength) (hne : strength ≠ page.defaultStrength)
      (hlt : spareSize < parityCost page strength + 4) :
      Grants page spareSize (some strength) page.defaultStrength
        [⟨strength, page.defaultStrength, spareSize⟩]

/-- The choice was made with these dimensions. -/
structure MadeOf (selection : Selection) (page : PageSize) (spareSize : Nat) (strength : Strength)
    (warnings : List EccDoesNotFit) : Prop where
  page_eq : selection.geometry.page = page
  spareSize_eq : selection.geometry.spareSize = spareSize
  strength_eq : selection.geometry.strength = strength
  warnings_eq : selection.warnings = warnings

/-- The parts of a choice agree: fields tile the page, and markers, free bytes and parity the spare
area, which fits the window. -/
structure Consistent (selection : Selection) : Prop where
  supported : Supported selection.geometry.pageBytes
  tiled : selection.geometry.fieldLen * selection.geometry.fieldCount =
    selection.geometry.pageBytes
  parityLen_eq : selection.layout.parityLen =
    selection.geometry.parityLen * selection.geometry.fieldCount
  sum_eq : 4 + selection.layout.freeLen + selection.layout.parityLen =
    selection.geometry.spareSize
  spareSize_le : selection.geometry.spareSize ≤ 472
  parityStart_eq : selection.layout.parityStart =
    selection.geometry.spareSize - selection.layout.parityLen

/-- How a choice with these dimensions ends: too little room for the parity comes before too much
for the window, and nothing else stands in the way. -/
structure Ends (outcome : Except GeometryError Selection) (page : PageSize) (spareSize : Nat)
    (strength : Strength) (warnings : List EccDoesNotFit) : Prop where
  spareTooSmall_iff : ∀ size parity, outcome = .error (.spareTooSmall size parity) ↔
    size = spareSize ∧ parity = parityCost page strength ∧
      spareSize < parityCost page strength + 4
  spareTooLarge_iff : ∀ size, outcome = .error (.spareTooLarge size) ↔
    size = spareSize ∧ parityCost page strength + 4 ≤ spareSize ∧ 472 < spareSize
  ok_iff : (∃ selection, outcome = .ok selection) ↔
    parityCost page strength + 4 ≤ spareSize ∧ spareSize ≤ 472
  madeOf : ∀ selection, outcome = .ok selection →
    selection.MadeOf page spareSize strength warnings
  ne_fieldMismatch : ∀ size fieldLen, outcome ≠ .error (.fieldMismatch size fieldLen)
  ne_unsupportedPage : ∀ size spare, outcome ≠ .error (.unsupportedPage size spare)

theorem Consistent.of_fits {selection : Selection}
    (h : selection.geometry.Fits selection.layout) : selection.Consistent where
  supported := h.pageBytes_mem
  tiled := selection.geometry.fieldLen_mul_fieldCount
  parityLen_eq := h.parityLen_eq
  sum_eq := h.size_eq
  spareSize_le := h.spareSize_le
  parityStart_eq := by rw [h.parityLen_eq, h.parityStart_eq]

/-! ## Page sizes -/

theorem probedPage?_eq_some_iff {pageSize : Nat} {page : PageSize} :
    probedPage? pageSize = some page ↔ page.isSelectable ∧ page.bytes = pageSize := by
  rw [probedPage?, Option.filter_eq_some_iff]
  constructor
  · rintro ⟨hbytes, hpage⟩
    exact ⟨hpage, PageSize.bytes_of_ofBytes? hbytes⟩
  · rintro ⟨hpage, rfl⟩
    exact ⟨PageSize.ofBytes?_bytes page, hpage⟩

theorem supported_bytes {page : PageSize} (h : page.isSelectable) : Supported page.bytes := by
  revert h
  cases page <;> simp [Supported, PageSize.isSelectable, PageSize.bytes]

theorem probedPage?_eq_none_iff {pageSize : Nat} :
    probedPage? pageSize = none ↔ ¬Supported pageSize := by
  constructor
  · rintro hnone (rfl | rfl | rfl) <;> cases hnone
  · intro h
    cases hpage : probedPage? pageSize with
    | none => rfl
    | some page =>
      obtain ⟨hselectable, rfl⟩ := probedPage?_eq_some_iff.1 hpage
      exact absurd (supported_bytes hselectable) h

/-! ## Strengths -/

/-- The table of parity costs agrees with the codewords wherever it is looked at. -/
theorem parityBudget_eq_parityCost {page : PageSize} (h : page.isSelectable)
    (strength : Strength) : parityBudget page strength = some (parityCost page strength) :=
  parityBudget_of_isSelectable page strength h

theorem dictates_getD {pageSize : Nat} {page : PageSize} (asked : Option Strength) :
    Dictates pageSize page asked
      (asked.getD ((probedPage? pageSize).getD page).defaultStrength) := by
  cases asked with
  | some strength => exact .asked strength
  | none =>
    cases hprobed : probedPage? pageSize with
    | none => exact .unsupported (probedPage?_eq_none_iff.1 hprobed)
    | some probed =>
      obtain ⟨hpage, hbytes⟩ := probedPage?_eq_some_iff.1 hprobed
      exact .probed probed hpage hbytes

/-- A probed page keeps its size and its spare area, and its strength is granted. -/
theorem draftForProbed_grants {page : PageSize} (hpage : page.isSelectable) (spareSize : Nat)
    (asked : Option Strength) :
    ∃ strength warnings, draftForProbed page spareSize asked =
        ⟨page, spareSize, strength, warnings⟩ ∧
      Grants page spareSize asked strength warnings := by
  have hfits (strength : Strength) :
      ((parityBudget page strength).bind (SpareLayout.fit? spareSize)).isSome =
        decide (parityCost page strength + 4 ≤ spareSize) := by
    rw [parityBudget_eq_parityCost hpage, Option.bind_some, SpareLayout.fit?_isSome, markerLen,
      Nat.add_comm]
  simp only [draftForProbed, hfits]
  cases asked with
  | none =>
    rw [Option.getD_none, if_neg (by simp)]
    exact ⟨_, _, rfl, .unasked⟩
  | some strength =>
    rw [Option.getD_some]
    -- The default itself is never refused, even where it does not fit.
    by_cases hrefused : strength ≠ page.defaultStrength ∧
        spareSize < parityCost page strength + 4
    · rw [if_pos (by simpa using hrefused)]
      exact ⟨_, _, rfl, .refused strength hrefused.1 hrefused.2⟩
    · rw [if_neg (by simpa using hrefused)]
      refine ⟨_, _, rfl, .asked strength ?_⟩
      by_cases hdefault : strength = page.defaultStrength
      · exact .inl hdefault
      · exact .inr (Nat.le_of_not_lt fun hlt => hrefused ⟨hdefault, hlt⟩)

/-! ## Checking a draft -/

/-- Every page that can be chosen is a whole number of fields. -/
theorem exists_make {page : PageSize} (h : page.isSelectable) (spareSize : Nat)
    (strength : Strength) : ∃ g, Geometry.make page spareSize strength = .ok g := by
  have hwhole : page.bytes % strength.codeword.fieldLen = 0 := by
    revert h
    cases page <;> cases strength <;> decide
  rw [Geometry.make, dif_pos hwhole]
  exact ⟨_, rfl⟩

/-- A draft is refused for its spare area only. -/
theorem ofDraft_cases {d : Draft} (h : d.page.isSelectable) :
    (d.spareSize < parityCost d.page d.strength + 4 ∧
      ofDraft d = .error (.spareTooSmall d.spareSize (parityCost d.page d.strength))) ∨
    (parityCost d.page d.strength + 4 ≤ d.spareSize ∧ 472 < d.spareSize ∧
      ofDraft d = .error (.spareTooLarge d.spareSize)) ∨
    (parityCost d.page d.strength + 4 ≤ d.spareSize ∧ d.spareSize ≤ 472 ∧
      ∃ selection, ofDraft d = .ok selection ∧
        selection.MadeOf d.page d.spareSize d.strength d.warnings) := by
  obtain ⟨g, hmake⟩ := exists_make h d.spareSize d.strength
  obtain ⟨hgpage, hgspare, hgstrength⟩ := Geometry.make_eq_ok hmake
  simp only [ofDraft, parityBudget_eq_parityCost h, Option.getD_some]
  cases hfit : SpareLayout.fit? d.spareSize (parityCost d.page d.strength) with
  | none => exact .inl ⟨SpareLayout.fit?_eq_none_iff.1 hfit, rfl⟩
  | some layout =>
    have hle := SpareLayout.le_of_fit? hfit
    by_cases hlen : d.spareSize > windowLen
    · simp only [hlen, if_true]
      exact .inr (.inl ⟨hle, hlen, rfl⟩)
    · simp only [hlen, if_false, hmake]
      exact .inr (.inr ⟨hle, Nat.le_of_not_lt hlen, _, rfl, hgpage, hgspare, hgstrength, rfl⟩)

theorem ends_ofDraft {d : Draft} (h : d.page.isSelectable) :
    Ends (ofDraft d) d.page d.spareSize d.strength d.warnings := by
  obtain ⟨hlt, heq⟩ | ⟨hfit, hlen, heq⟩ | ⟨hfit, hlen, selection, heq, hmade⟩ := ofDraft_cases h
  all_goals
    rw [heq]
    constructor <;> grind

/-! ## The choice -/

theorem choose_of_page? {setting : PowerOn} {page : PageSize} (h : setting.page? = some page)
    (pageSize spareSize : Nat) : choose pageSize spareSize setting =
      ofDraft (draftForPage (probedPage? pageSize) page setting.strength?) := by
  rw [choose, draft, h]
  rfl

theorem choose_of_probedPage? {setting : PowerOn} {pageSize : Nat} {page : PageSize}
    (h : setting.page? = none) (hpage : probedPage? pageSize = some page) (spareSize : Nat) :
    choose pageSize spareSize setting =
      ofDraft (draftForProbed page spareSize setting.strength?) := by
  rw [choose, draft, h, hpage]
  rfl

theorem choose_of_unsupported {setting : PowerOn} {pageSize : Nat} (h : setting.page? = none)
    (hpage : probedPage? pageSize = none) (spareSize : Nat) :
    choose pageSize spareSize setting = .error (.unsupportedPage pageSize spareSize) := by
  rw [choose, draft, h, hpage]
  rfl

/-- A dictated page is always chosen, with room for eight bytes beside its parity. -/
theorem exists_choose_of_page? {setting : PowerOn} {page : PageSize}
    (h : setting.page? = some page) (pageSize spareSize : Nat) :
    ∃ strength selection, Dictates pageSize page setting.strength? strength ∧
      choose pageSize spareSize setting = .ok selection ∧
      selection.MadeOf page (parityCost page strength + 8) strength [] := by
  have hpage := page?_isSelectable h
  generalize hstrength :
    setting.strength?.getD ((probedPage? pageSize).getD page).defaultStrength = strength
  have hdictates : Dictates pageSize page setting.strength? strength :=
    hstrength ▸ dictates_getD setting.strength?
  have hdraft : draftForPage (probedPage? pageSize) page setting.strength? =
      ⟨page, parityCost page strength + 8, strength, []⟩ := by
    rw [draftForPage, hstrength, parityBudget_eq_parityCost hpage]
    rfl
  have hends : Ends (choose pageSize spareSize setting) page (parityCost page strength + 8)
      strength [] := by
    rw [choose_of_page? h, hdraft]
    exact ends_ofDraft hpage
  have hle : parityCost page strength + 8 ≤ 472 := by
    revert hpage
    cases page <;> cases strength <;> decide
  obtain ⟨selection, hok⟩ := hends.ok_iff.2 ⟨by omega, hle⟩
  exact ⟨strength, selection, hdictates, hok, hends.madeOf selection hok⟩

/-- A probed page that can be driven is refused for its spare area only. -/
theorem ends_choose_of_supported {setting : PowerOn} {page : PageSize}
    (h : setting.page? = none) (hpage : page.isSelectable) (spareSize : Nat) :
    ∃ strength warnings, Grants page spareSize setting.strength? strength warnings ∧
      Ends (choose page.bytes spareSize setting) page spareSize strength warnings := by
  obtain ⟨strength, warnings, hdraft, hgrants⟩ :=
    draftForProbed_grants hpage spareSize setting.strength?
  refine ⟨strength, warnings, hgrants, ?_⟩
  rw [choose_of_probedPage? h (probedPage?_eq_some_iff.2 ⟨hpage, rfl⟩), hdraft]
  exact ends_ofDraft hpage

/-- Without a dictated page, a page size is refused for itself if it is not one of three. -/
theorem choose_eq_unsupportedPage_iff {setting : PowerOn} (h : setting.page? = none)
    (pageSize spareSize size spare : Nat) :
    choose pageSize spareSize setting = .error (.unsupportedPage size spare) ↔
      size = pageSize ∧ spare = spareSize ∧ ¬Supported pageSize := by
  cases hpage : probedPage? pageSize with
  | none =>
    have hsupported := probedPage?_eq_none_iff.1 hpage
    rw [choose_of_unsupported h hpage]
    grind
  | some page =>
    obtain ⟨hselectable, rfl⟩ := probedPage?_eq_some_iff.1 hpage
    obtain ⟨_, _, -, hends⟩ := ends_choose_of_supported h hselectable spareSize
    simp only [hends.ne_unsupportedPage, supported_bytes hselectable, not_true_eq_false,
      and_false]

/-- What is chosen agrees with itself, and failures are exactly characterised. A dictated page never
fails; a probed one fails for its size if that is not one of three, and else for its spare area,
whose parity is that of the strength it is granted. Page and strength are dictated by two fields of
two bits each. -/
theorem choose_characterised (pageSize spareSize : Nat) (setting : PowerOn) :
    (∀ selection, choose pageSize spareSize setting = .ok selection → selection.Consistent) ∧
    (setting.word &&& 0x3000 ≠ 0x3000 →
      ∃ page strength selection, setting.page? = some page ∧
        Dictates pageSize page setting.strength? strength ∧
        choose pageSize spareSize setting = .ok selection ∧
        selection.MadeOf page (parityCost page strength + 8) strength []) ∧
    (setting.word &&& 0x3000 = 0x3000 →
      (∀ size spare, choose pageSize spareSize setting = .error (.unsupportedPage size spare) ↔
        size = pageSize ∧ spare = spareSize ∧ ¬Supported pageSize) ∧
      ∀ page : PageSize, page.isSelectable → page.bytes = pageSize →
        ∃ strength warnings, Grants page spareSize setting.strength? strength warnings ∧
          Ends (choose pageSize spareSize setting) page spareSize strength warnings) ∧
    (setting.strength? = none ↔ setting.word &&& 0xC000 = 0xC000) ∧
    setting.DecodesPage ∧ setting.DecodesStrength := by
  refine ⟨fun selection h => .of_fits (fits_of_choose h), fun hset => ?_, fun hunset => ?_,
    setting.strength?_eq_none_iff, setting.decodes⟩
  · cases hpage : setting.page? with
    | none => exact absurd (setting.page?_eq_none_iff.1 hpage) hset
    | some page =>
      obtain ⟨strength, selection, hdictates, hok, hmade⟩ :=
        exists_choose_of_page? hpage pageSize spareSize
      exact ⟨page, strength, selection, rfl, hdictates, hok, hmade⟩
  · have hpage := setting.page?_eq_none_iff.2 hunset
    refine ⟨choose_eq_unsupportedPage_iff hpage pageSize spareSize, ?_⟩
    rintro page hselectable rfl
    exact ends_choose_of_supported hpage hselectable spareSize

/-- On a probed page the strongest code does not fit a small spare area, and the default is kept
with one warning; on a dictated page the same word brings its own spare area. -/
theorem choose_t24_for_64_spare_bytes :
    (∃ whole, choose 2048 64 ⟨0xB000⟩ =
        .ok ⟨⟨.p2048, 64, .t8, whole⟩, ⟨0, 60⟩, [⟨.t24, .t8, 64⟩]⟩ ∧
      Consistent ⟨⟨.p2048, 64, .t8, whole⟩, ⟨0, 60⟩, [⟨.t24, .t8, 64⟩]⟩) ∧
    (∃ strength warnings, Grants .p2048 64 (some .t24) strength warnings ∧
      Ends (choose 2048 64 ⟨0xB000⟩) .p2048 64 strength warnings) ∧
    ∃ page strength selection, PowerOn.page? ⟨0x9000⟩ = some page ∧
      Dictates 2048 page (some .t24) strength ∧ choose 2048 64 ⟨0x9000⟩ = .ok selection ∧
      selection.MadeOf page (parityCost page strength + 8) strength [] :=
  ⟨⟨by decide, rfl, (choose_characterised 2048 64 ⟨0xB000⟩).1 _ rfl⟩,
    ((choose_characterised 2048 64 ⟨0xB000⟩).2.2.1 (by decide)).2 .p2048 rfl rfl,
    (choose_characterised 2048 64 ⟨0x9000⟩).2.1 (by decide)⟩

end Selection

end NandFlash
