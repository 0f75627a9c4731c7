import NandFlash.Proofs.Codeword
import NandFlash.Proofs.Profile
import NandFlash.Proofs.Sim.Syndrome

/-!
# Finding damage

The ECC stage walks over the codewords and claims each damaged byte for the first one that covers
it. The reports it comes up with are those of `Geometry.owner?`: every damaged byte is reported
once, by the field it belongs to, at the address where the driver looks for it.
-/

namespace NandFlash.Sim

namespace Engine

variable {g : Geometry} {layout : SpareLayout} {flip : Nat → UInt8}

/-! ## The bytes of a codeword -/

theorem mem_codewordBytes {parityStart index raw : Nat} :
    raw ∈ (codewordBytes g parityStart index).map Prod.fst ↔ g.Covers parityStart index raw := by
  simp only [codewordBytes, List.map_append, List.map_map, List.mem_append, List.mem_map,
    List.mem_range, Function.comp_apply, Geometry.Covers, Nat.succ_mul, Nat.mul_succ]
  constructor
  · rintro ((⟨k, hk, rfl⟩ | ⟨k, hk, rfl⟩) | ⟨k, hk, rfl⟩)
    · exact .inl (by omega)
    · exact .inr (.inl (by omega))
    · exact .inr (.inr (by omega))
  · rintro (h | h | h)
    · exact .inl (.inl ⟨raw - index * g.fieldLen, by omega, by omega⟩)
    · exact .inl (.inr ⟨raw - (g.pageBytes + g.parityLen * index), by omega, by omega⟩)
    · exact .inr ⟨raw - (g.pageBytes + parityStart + g.parityLen * index), by omega, by omega⟩

/-- A codeword runs through the raw page in ascending order: data, metadata, parity. -/
theorem pairwise_codewordBytes {parityStart index : Nat} (hindex : index < g.fieldCount)
    (hparity : metadataLen ≤ parityStart) :
    ((codewordBytes g parityStart index).map Prod.fst).Pairwise (· < ·) := by
  have hend := g.succ_mul_fieldLen_le hindex
  rw [Nat.succ_mul] at hend
  have hrow : ∀ start count, ((List.range count).map fun k => start + k).Pairwise (· < ·) :=
    fun start count => List.pairwise_map.2 (List.pairwise_lt_range.imp fun h => by omega)
  simp only [codewordBytes, List.map_append, List.map_map, Function.comp_def]
  -- Data, metadata and parity each run upwards, and they lie in this order in the raw page.
  refine List.pairwise_append.2 ⟨List.pairwise_append.2 ⟨hrow _ _, hrow _ _, ?_⟩, hrow _ _, ?_⟩
  · intro raw hdata other hmetadata
    obtain ⟨k, hk, rfl⟩ := List.mem_map.1 hdata
    obtain ⟨k', -, rfl⟩ := List.mem_map.1 hmetadata
    rw [List.mem_range] at hk
    omega
  · intro raw hfront other hparitySlot
    obtain ⟨k', -, rfl⟩ := List.mem_map.1 hparitySlot
    rcases List.mem_append.1 hfront with hdata | hmetadata
    · obtain ⟨k, hk, rfl⟩ := List.mem_map.1 hdata
      rw [List.mem_range] at hk
      omega
    · obtain ⟨k, hk, rfl⟩ := List.mem_map.1 hmetadata
      rw [List.mem_range] at hk
      omega

theorem nodup_codewordBytes {parityStart index : Nat} (hindex : index < g.fieldCount)
    (hparity : metadataLen ≤ parityStart) :
    ((codewordBytes g parityStart index).map Prod.fst).Nodup :=
  (pairwise_codewordBytes hindex hparity).imp Nat.ne_of_lt

/-- A byte of a codeword is found where its address points, wherever the parity begins. -/
theorem locate?_codewordBytes {parityBase index raw address : Nat} (hindex : index < g.fieldCount)
    (hmem : (raw, address) ∈ codewordBytes g parityBase index) :
    address < 2048 ∧ g.locate? (index + 1) address parityBase = some (g.locationOfRaw raw) := by
  have hdata := g.succ_mul_fieldLen_le hindex
  have hfieldLen := g.fieldLen_le
  rw [Nat.succ_mul] at hdata
  have hmetadata : metadataLen = 3 := rfl
  simp only [codewordBytes, List.mem_append, List.mem_map, List.mem_range, Prod.mk.injEq] at hmem
  rw [Geometry.locate?, Geometry.locationOfRaw]
  rcases hmem with (⟨k, hk, rfl, rfl⟩ | ⟨k, hk, rfl, rfl⟩) | ⟨k, hk, rfl, rfl⟩
  · refine ⟨by omega, ?_⟩
    rw [if_pos hk, if_pos (by omega)]
  · refine ⟨by omega, ?_⟩
    rw [if_neg (by omega), if_pos (by omega), if_neg (by omega)]
    congr 2
    omega
  · obtain ⟨hfirst, hlast⟩ := g.metadata_le_firstParity (by omega)
    refine ⟨by omega, ?_⟩
    rw [if_neg (by omega), if_neg (by omega), if_pos ⟨by omega, by omega⟩, if_neg (by omega)]
    congr 2
    omega

/-- A codeword does not reach beyond the spare area that its parity fits. -/
theorem raw_lt_of_mem_codewordBytes (hfits : g.Fits layout) {index raw address : Nat}
    (hindex : index < g.fieldCount)
    (hmem : (raw, address) ∈ codewordBytes g (g.spareSize - g.parityBytes) index) :
    raw < g.pageBytes + g.spareSize := by
  have hstart := hfits.parityStart_eq
  have hfour := Geometry.Fits.four_le_parityStart layout
  have hdata := g.succ_mul_fieldLen_le hindex
  have hparity := g.mul_succ_parityLen_le hindex
  rw [Nat.succ_mul] at hdata
  rw [Nat.mul_succ] at hparity
  have hmetadata : metadataLen = 3 := rfl
  simp only [codewordBytes, List.mem_append, List.mem_map, List.mem_range, Prod.mk.injEq] at hmem
  rcases hmem with (⟨k, hk, rfl, rfl⟩ | ⟨k, hk, rfl, rfl⟩) | ⟨k, hk, rfl, rfl⟩ <;> omega

/-! ## The errors of a field -/

/-- An error as the ECC stage notes it. -/
def errorOf (flip : Nat → UInt8) (byte : Nat × Nat) : UInt16 × UInt8 :=
  (UInt16.ofNat byte.2, flip byte.1)

/-- The damaged bytes that belong to a field, with their error addresses. -/
def owned (g : Geometry) (parityStart : Nat) (flip : Nat → UInt8) (index : Nat) :
    List (Nat × Nat) :=
  (codewordBytes g parityStart index).filter fun byte =>
    flip byte.1 ≠ 0 ∧ g.owner? parityStart byte.1 = some index

/-- Walking over a codeword picks the damaged bytes that are not claimed yet, and claims them. -/
theorem codewordErrors_eq (flip : Nat → UInt8) {bytes : List (Nat × Nat)}
    (hnodup : (bytes.map Prod.fst).Nodup) (claimed : Std.ExtTreeSet Nat) :
    (codewordErrors flip bytes claimed).1 =
        (bytes.filter fun byte => flip byte.1 ≠ 0 ∧ byte.1 ∉ claimed).map (errorOf flip) ∧
      ∀ raw, raw ∈ (codewordErrors flip bytes claimed).2 ↔
        raw ∈ claimed ∨ (flip raw ≠ 0 ∧ raw ∈ bytes.map Prod.fst) := by
  induction bytes generalizing claimed with
  | nil => exact ⟨rfl, fun raw => by simp [codewordErrors]⟩
  | cons byte bytes ih =>
    obtain ⟨first, address⟩ := byte
    rw [List.map_cons, List.nodup_cons] at hnodup
    obtain ⟨hfirst, hrest⟩ := hnodup
    rw [codewordErrors]
    by_cases hskip : flip first = 0 ∨ first ∈ claimed
    · rw [if_pos hskip]
      obtain ⟨herrors, hclaimed⟩ := ih hrest claimed
      refine ⟨?_, fun raw => ?_⟩
      · rw [herrors, List.filter_cons_of_neg]
        simp only [decide_eq_true_eq]
        tauto
      · rw [hclaimed, List.map_cons, List.mem_cons]
        constructor
        · tauto
        · rintro (h | ⟨hflip, rfl | h⟩) <;> tauto
    · rw [if_neg hskip]
      rw [not_or] at hskip
      obtain ⟨herrors, hclaimed⟩ := ih hrest (claimed.insert first)
      refine ⟨?_, fun raw => ?_⟩
      · show (UInt16.ofNat address, flip first) :: (codewordErrors flip bytes _).1 = _
        rw [herrors, List.filter_cons_of_pos (by simpa using hskip), List.map_cons]
        congr 2
        -- The bytes of a codeword differ, so claiming the first one takes none of the others away.
        apply List.filter_congr
        intro byte hbyte
        have hne : first ≠ byte.1 := by
          rintro rfl
          exact hfirst (List.mem_map.2 ⟨byte, hbyte, rfl⟩)
        simp only [Std.ExtTreeSet.mem_insert, Std.compare_eq_iff_eq, decide_eq_decide]
        tauto
      · show raw ∈ (codewordErrors flip bytes _).2 ↔ _
        rw [hclaimed, List.map_cons, List.mem_cons]
        simp only [Std.ExtTreeSet.mem_insert, Std.compare_eq_iff_eq]
        constructor
        · rintro ((rfl | h) | h) <;> tauto
        · rintro (h | ⟨hflip, rfl | h⟩) <;> tauto

/-- Whatever is claimed already, errors are noted for bytes of the codeword alone. -/
theorem exists_of_mem_codewordErrors {bytes : List (Nat × Nat)} {claimed : Std.ExtTreeSet Nat}
    {error : UInt16 × UInt8} (h : error ∈ (codewordErrors flip bytes claimed).1) :
    ∃ byte ∈ bytes, flip byte.1 ≠ 0 ∧ error = errorOf flip byte := by
  induction bytes generalizing claimed with
  | nil => exact absurd h List.not_mem_nil
  | cons first bytes ih =>
    have hrest : ∀ {claimed}, error ∈ (codewordErrors flip bytes claimed).1 →
        ∃ byte ∈ first :: bytes, flip byte.1 ≠ 0 ∧ error = errorOf flip byte := fun hmem => by
      obtain ⟨byte, hbyte, herror⟩ := ih hmem
      exact ⟨byte, List.mem_cons_of_mem _ hbyte, herror⟩
    rw [codewordErrors] at h
    split at h
    · exact hrest h
    · next hclaim =>
      rcases List.mem_cons.1 h with rfl | hmem
      · exact ⟨first, List.mem_cons_self, fun hflip => hclaim (.inl hflip), rfl⟩
      · exact hrest hmem

/-! ## The reports of a page -/

theorem eq_of_damageReport? {index : Nat} {errors : List (UInt16 × UInt8)} {report : DamageReport}
    (h : damageReport? g index errors = some report) :
    report.field = index + 1 ∧ report.errors = errors := by
  unfold damageReport? at h
  split at h
  · cases h
  · split at h <;> cases h <;> exact ⟨rfl, rfl⟩

/-- Whatever is claimed already, a report is about one of the fields and bytes of its codeword. -/
theorem exists_of_mem_damageReports {parityBase : Nat} {indices : List Nat}
    {claimed : Std.ExtTreeSet Nat} {report : DamageReport}
    (h : report ∈ damageReports g parityBase flip indices claimed) :
    ∃ index ∈ indices, report.field = index + 1 ∧ ∀ error ∈ report.errors,
      ∃ byte ∈ codewordBytes g parityBase index, flip byte.1 ≠ 0 ∧ error = errorOf flip byte := by
  induction indices generalizing claimed with
  | nil => exact absurd h List.not_mem_nil
  | cons index indices ih =>
    rw [damageReports] at h
    rcases List.mem_append.1 h with hmem | hmem
    · obtain ⟨hfield, herrors⟩ := eq_of_damageReport? (Option.mem_toList.1 hmem)
      refine ⟨index, List.mem_cons_self, hfield, fun error herror => ?_⟩
      rw [herrors] at herror
      exact exists_of_mem_codewordErrors herror
    · obtain ⟨other, hother, hreport⟩ := ih hmem
      exact ⟨other, List.mem_cons_of_mem _ hother, hreport⟩

/-- There are no more reports than fields that are looked at. -/
theorem length_damageReports_le (g : Geometry) (parityBase : Nat) (flip : Nat → UInt8)
    (indices : List Nat) (claimed : Std.ExtTreeSet Nat) :
    (damageReports g parityBase flip indices claimed).length ≤ indices.length := by
  induction indices generalizing claimed with
  | nil => exact Nat.le_refl _
  | cons index indices ih =>
    rw [damageReports]
    have hrest := ih (codewordErrors flip (codewordBytes g parityBase index) claimed).2
    have hhead : (damageReport? g index (codewordErrors flip (codewordBytes g parityBase index)
      claimed).1).toList.length ≤ 1 := Option.length_toList_le
    rw [List.length_append, List.length_cons]
    omega

/-- The reports of the fields from `start` on. What they find claimed is every damaged byte of
the fields before. -/
theorem damageReports_eq {parityStart : Nat} (hparity : metadataLen ≤ parityStart)
    {start count : Nat} (hcount : start + count = g.fieldCount) {claimed : Std.ExtTreeSet Nat}
    (hclaimed : ∀ raw, raw ∈ claimed ↔
      flip raw ≠ 0 ∧ ∃ other < start, g.Covers parityStart other raw) :
    damageReports g parityStart flip (List.range' start count) claimed =
      (List.range' start count).filterMap fun index =>
        damageReport? g index ((owned g parityStart flip index).map (errorOf flip)) := by
  induction count generalizing start claimed with
  | zero => rfl
  | succ count ih =>
    rw [List.range'_succ, damageReports]
    obtain ⟨herrors, hafter⟩ := codewordErrors_eq flip
      (nodup_codewordBytes (g := g) (show start < g.fieldCount by omega) hparity) claimed
    have howned : (codewordBytes g parityStart start).filter
        (fun byte => flip byte.1 ≠ 0 ∧ byte.1 ∉ claimed) = owned g parityStart flip start := by
      apply List.filter_congr
      intro byte hbyte
      have hcovers := mem_codewordBytes.1 (List.mem_map_of_mem (f := Prod.fst) hbyte)
      rw [decide_eq_decide, hclaimed, Geometry.owner?_eq_some_iff]
      constructor
      · rintro ⟨hflip, hfree⟩
        exact ⟨hflip, by omega, hcovers, fun other hother h => hfree ⟨hflip, other, hother, h⟩⟩
      · rintro ⟨hflip, -, -, hlower⟩
        exact ⟨hflip, fun ⟨_, other, hother, h⟩ => hlower other hother h⟩
    -- What is claimed behind this field is what the fields up to it cover.
    have hclaimed' : ∀ raw, raw ∈ (codewordErrors flip (codewordBytes g parityStart start)
        claimed).2 ↔ flip raw ≠ 0 ∧ ∃ other < start + 1, g.Covers parityStart other raw := by
      intro raw
      rw [hafter, hclaimed, mem_codewordBytes]
      constructor
      · rintro (⟨hflip, other, hother, h⟩ | ⟨hflip, h⟩)
        · exact ⟨hflip, other, by omega, h⟩
        · exact ⟨hflip, start, by omega, h⟩
      · rintro ⟨hflip, other, hother, h⟩
        by_cases hself : other = start
        · subst hself
          exact .inr ⟨hflip, h⟩
        · exact .inl ⟨hflip, other, by omega, h⟩
    have hrest := ih (by omega) hclaimed'
    show (damageReport? g start (codewordErrors flip _ claimed).1).toList ++
      damageReports g parityStart flip _ (codewordErrors flip _ claimed).2 = _
    rw [hrest, herrors, howned, List.filterMap_cons]
    cases damageReport? g start ((owned g parityStart flip start).map (errorOf flip)) <;> rfl

/-- The damage that the ECC stage finds in a page. -/
def damage (g : Geometry) (content : Bytes) (reference? : Option Bytes) : List DamageReport :=
  if g.strength = .none then []
  else match reference? with
    | none => []
    | some reference =>
      (List.range g.fieldCount).filterMap fun index =>
        damageReport? g index ((owned g (g.spareSize - g.parityBytes) (flipAt content reference)
          index).map (errorOf (flipAt content reference)))

/-- An armed engine finds just that. -/
theorem findDamage_eq {engine : Engine} (h : Armed g engine) (hfits : g.Fits layout)
    (content : Bytes) (reference? : Option Bytes) :
    engine.findDamage content reference? = damage g content reference? := by
  have hstart := hfits.parityStart_eq
  have hfour := Geometry.Fits.four_le_parityStart layout
  have hmetadata : metadataLen = 3 := rfl
  unfold findDamage damage
  rw [h.dialled.check_eq, h.dialled.geometry?_eq hfits.spareSize_le,
    h.dialled.spareSize_eq_spareSize hfits.spareSize_le]
  by_cases hnone : g.strength = .none
  · simp only [hnone, if_true]
    rfl
  · simp only [hnone, if_false]
    rw [if_neg (by decide)]
    cases reference? with
    | none => rfl
    | some reference =>
      have hspare := hfits.parityBytes_le
      simp only [show ¬g.spareSize < g.parityBytes by omega, if_false, List.range_eq_range']
      exact damageReports_eq (by omega) (Nat.zero_add _) fun raw => by simp

/-- The errors of a field lie where the parity check looks for them, inside the page. -/
theorem exists_locate?_of_mem_owned (hfits : g.Fits layout) {flip : Nat → UInt8} {index : Nat}
    (hindex : index < g.fieldCount) {error : UInt16 × UInt8}
    (herror : error ∈ (owned g (g.spareSize - g.parityBytes) flip index).map (errorOf flip)) :
    error.1.toNat < 2048 ∧ ∃ location, g.locate? (index + 1) error.1.toNat
      (g.spareSize - g.parityBytes) = some location ∧
      location.offset < (match location.place with
        | .data => g.pageBytes
        | .window => g.spareSize) := by
  obtain ⟨⟨raw, address⟩, hbyte, rfl⟩ := List.mem_map.1 herror
  obtain ⟨haddress, hlocate⟩ := locate?_codewordBytes hindex (List.mem_filter.1 hbyte).1
  have hraw := raw_lt_of_mem_codewordBytes hfits hindex (List.mem_filter.1 hbyte).1
  have hword : (errorOf flip (raw, address)).1.toNat = address :=
    UInt16.toNat_ofNat_of_lt' (Nat.lt_trans haddress (by decide))
  rw [hword]
  refine ⟨haddress, _, hlocate, ?_⟩
  rw [Geometry.locationOfRaw]
  split
  · assumption
  · show raw - g.pageBytes < g.spareSize
    omega

/-- Whatever it finds can be read back. -/
theorem legible_of_mem_damage (hfits : g.Fits layout) {content : Bytes}
    {reference? : Option Bytes} {report : DamageReport}
    (hmem : report ∈ damage g content reference?) : report.Legible g := by
  unfold damage at hmem
  split at hmem
  · exact absurd hmem List.not_mem_nil
  · cases reference? with
    | none => exact absurd hmem List.not_mem_nil
    | some reference =>
      obtain ⟨index, hindex, hreport⟩ := List.mem_filterMap.1 hmem
      have hindex := List.mem_range.1 hindex
      rw [damageReport?] at hreport
      -- Every owned byte can be told by an address, however many errors its field has.
      have hlocated := fun error (herror : error ∈ (owned g (g.spareSize - g.parityBytes)
          (flipAt content reference) index).map (errorOf (flipAt content reference))) =>
        exists_locate?_of_mem_owned hfits hindex herror
      split at hreport
      · cases hreport
      · split at hreport
        · next hlost =>
          cases hreport
          exact ⟨⟨index, hindex, rfl⟩, by rw [if_pos hlost], hlocated⟩
        · next hlost =>
          cases hreport
          exact ⟨⟨index, hindex, rfl⟩, by rw [if_neg hlost], hlocated⟩

/-- Whatever the registers say, there are no more reports than fields. -/
theorem length_findDamage_le (engine : Engine) (cache : Bytes) (reference? : Option Bytes) :
    (engine.findDamage cache reference?).length ≤ 16 := by
  unfold findDamage
  split
  · exact Nat.zero_le _
  · split
    · split
      · exact Nat.zero_le _
      · refine Nat.le_trans (length_damageReports_le ..) ?_
        rw [List.length_range]
        exact Geometry.fieldCount_le _
    · exact Nat.zero_le _

/-- There are no more reports than fields. -/
theorem length_damage_le (content : Bytes) (reference? : Option Bytes) :
    (damage g content reference?).length ≤ 16 := by
  unfold damage
  split
  · exact Nat.zero_le _
  · cases reference? with
    | none => exact Nat.zero_le _
    | some reference =>
      refine Nat.le_trans (List.length_filterMap_le _ _) ?_
      rw [List.length_range]
      exact g.fieldCount_le

end Engine

end NandFlash.Sim
