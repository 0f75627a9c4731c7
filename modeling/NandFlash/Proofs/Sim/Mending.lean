import Mathlib.Algebra.GroupWithZero.Nat
import Mathlib.Data.List.Nodup
import NandFlash.Proofs.Sim.Damage
import NandFlash.Proofs.Sim.ReadTransfer

/-!
# Mending a page

Every damaged byte of a page is reported once, by the field it belongs to and with the bits that
have flipped. Going through the reports of some fields therefore puts the bytes of these fields
back and leaves all others alone, although the codewords share bytes.
-/

namespace NandFlash

namespace Poll

variable {poll : Poll} {n turns : Nat}

/-- A wait is not given up within the first `turns` turns. -/
def Allows (poll : Poll) (turns : Nat) : Prop := ∀ limit, poll.limit = some limit → turns ≤ limit

theorem Allows.isOver_eq (h : poll.Allows n) (hle : turns ≤ n) : poll.isOver turns = false := by
  unfold isOver
  split
  · next limit hlimit =>
    have hn := h limit hlimit
    simp only [decide_eq_false_iff_not]
    omega
  · rfl

theorem Allows.mono (h : poll.Allows n) (hle : turns ≤ n) : poll.Allows turns :=
  fun limit hlimit => Nat.le_trans hle (h limit hlimit)

end Poll

namespace Geometry

variable {g : Geometry} {parityStart : Nat} {before now : Bytes}

/-- Every data byte belongs to a field. -/
theorem exists_owner (parityStart : Nat) {i : Nat} (hi : i < g.pageBytes) :
    ∃ index ∈ List.range g.fieldCount, g.owner? parityStart i = some index := by
  have hpos := g.fieldLen_pos
  have hindex : i / g.fieldLen < g.fieldCount := by
    rw [Nat.div_lt_iff_lt_mul hpos, Nat.mul_comm, g.fieldLen_mul_fieldCount]
    exact hi
  have hcovers : g.Covers parityStart (i / g.fieldLen) i :=
    .inl ⟨Nat.div_mul_le_self .., Nat.lt_mul_of_div_lt (Nat.lt_succ_self _) hpos⟩
  have hsome : (g.owner? parityStart i).isSome :=
    List.find?_isSome.2 ⟨_, List.mem_range.2 hindex, by simpa using hcovers⟩
  obtain ⟨index, howner⟩ := Option.isSome_iff_exists.1 hsome
  exact ⟨index, List.mem_range.2 (owner?_eq_some_iff.1 howner).1, howner⟩

theorem isSome_owner?_iff {i : Nat} : (g.owner? parityStart i).isSome ↔
    ∃ index ∈ List.range g.fieldCount, g.owner? parityStart i = some index := by
  rw [Option.isSome_iff_exists]
  constructor
  · rintro ⟨index, howner⟩
    exact ⟨index, List.mem_range.2 (owner?_eq_some_iff.1 howner).1, howner⟩
  · rintro ⟨index, -, howner⟩
    exact ⟨index, howner⟩

/-- The bytes of a page that have changed and belong to the codeword of a field, counted from
0. -/
def damagedBytes (g : Geometry) (parityStart : Nat) (before now : Bytes) (index : Nat) :
    List Nat :=
  (List.range now.size).filter fun raw =>
    now[raw]? ≠ before[raw]? ∧ g.owner? parityStart raw = some index

/-- The repair of a byte of the raw page, given how each byte has flipped. -/
def repairOf (g : Geometry) (flip : Nat → UInt8) (raw : Nat) : Correction :=
  ⟨g.locationOfRaw raw, flip raw⟩

theorem mem_damagedBytes {index raw : Nat} : raw ∈ g.damagedBytes parityStart before now index ↔
    raw < now.size ∧ now[raw]? ≠ before[raw]? ∧ g.owner? parityStart raw = some index := by
  simp [damagedBytes]

theorem nodup_damagedBytes (index : Nat) : (g.damagedBytes parityStart before now index).Nodup :=
  List.nodup_range.filter _

/-- No byte belongs to two fields. -/
theorem nodup_flatMap_damagedBytes {indices : List Nat} (h : indices.Nodup) :
    (indices.flatMap (g.damagedBytes parityStart before now)).Nodup := by
  refine List.nodup_flatMap.2 ⟨fun index _ => nodup_damagedBytes index, h.imp fun hne => ?_⟩
  intro raw hraw hother
  have heq := (mem_damagedBytes.1 hraw).2.2.symm.trans (mem_damagedBytes.1 hother).2.2
  exact hne (Option.some.inj heq)

end Geometry

namespace Sim

open Engine

variable {g : Geometry} {layout : SpareLayout} {before now : Bytes}

/-! ## Flipping bytes back -/

/-- Some bytes of a page flipped. -/
def flipped (flip : Nat → UInt8) (raws : List Nat) (bytes : Bytes) : Bytes :=
  raws.foldl (fun bytes raw => bytes.modify raw (· ^^^ flip raw)) bytes

@[simp] theorem size_flipped (flip : Nat → UInt8) (raws : List Nat) (bytes : Bytes) :
    (flipped flip raws bytes).size = bytes.size := by
  induction raws generalizing bytes with
  | nil => rfl
  | cons raw raws ih => exact (ih _).trans Array.size_modify

theorem getElem?_flipped {flip : Nat → UInt8} {raws : List Nat} (hnodup : raws.Nodup)
    (bytes : Bytes) (i : Nat) : (flipped flip raws bytes)[i]? =
      if i ∈ raws then bytes[i]?.map (· ^^^ flip i) else bytes[i]? := by
  induction raws generalizing bytes with
  | nil => simp [flipped]
  | cons raw raws ih =>
    obtain ⟨hraw, hrest⟩ := List.nodup_cons.1 hnodup
    show (flipped flip raws (bytes.modify raw _))[i]? = _
    rw [ih hrest, Array.getElem?_modify]
    by_cases heq : raw = i
    · subst heq
      rw [if_neg hraw, if_pos rfl, if_pos List.mem_cons_self]
    · simp only [List.mem_cons, if_neg heq, Ne.symm heq, false_or]

/-- A byte that has changed is what it was once it is flipped back. -/
theorem xor_flipAt {raw : Nat} (hsize : now.size = before.size) :
    now[raw]?.map (· ^^^ flipAt now before raw) = before[raw]? := by
  unfold flipAt
  by_cases hraw : raw < now.size
  · simp only [Array.getElem?_eq_getElem hraw, Array.getElem?_eq_getElem (hsize ▸ hraw),
      Option.map_some, ← UInt8.xor_assoc, UInt8.xor_self, UInt8.zero_xor]
  · rw [Array.getElem?_eq_none (by omega), Array.getElem?_eq_none (by omega), Option.map_none]

/-- Flipping the damaged bytes of some fields back restores the bytes of these fields. -/
theorem getElem?_flipped_damagedBytes {parityStart : Nat} (hsize : now.size = before.size)
    {indices : List Nat} (hnodup : indices.Nodup) {bytes : Bytes} {i : Nat}
    (hbyte : bytes[i]? = now[i]?) :
    (flipped (flipAt now before)
        (indices.flatMap (g.damagedBytes parityStart before now)) bytes)[i]? =
      if ∃ index ∈ indices, g.owner? parityStart i = some index then before[i]? else now[i]? := by
  rw [getElem?_flipped (Geometry.nodup_flatMap_damagedBytes hnodup), hbyte, xor_flipAt hsize]
  by_cases howned : ∃ index ∈ indices, g.owner? parityStart i = some index
  · rw [if_pos howned]
    split
    · rfl
    · next hclean =>
      -- A byte of these fields that is not damaged is as it was.
      by_contra hchanged
      obtain ⟨index, hindex, howner⟩ := howned
      have hlt : i < now.size := by
        by_contra hge
        rw [Array.getElem?_eq_none (by omega), Array.getElem?_eq_none (by omega)] at hchanged
        exact hchanged rfl
      exact hclean (List.mem_flatMap.2
        ⟨index, hindex, Geometry.mem_damagedBytes.2 ⟨hlt, hchanged, howner⟩⟩)
  · rw [if_neg howned, if_neg]
    intro hmem
    obtain ⟨index, hindex, hdamaged⟩ := List.mem_flatMap.1 hmem
    exact howned ⟨index, hindex, (Geometry.mem_damagedBytes.1 hdamaged).2.2⟩

/-! ## Repairs in a page buffer and a spare area -/

/-- A repair in page buffer and spare area flips one byte of the raw page. -/
theorem append_mend {page : Bytes × Bytes} (hpage : page.1.size = g.pageBytes)
    (flip : Nat → UInt8) (raw : Nat) :
    ((g.repairOf flip raw).mend page).1 ++ ((g.repairOf flip raw).mend page).2 =
      (page.1 ++ page.2).modify raw (· ^^^ flip raw) := by
  unfold Geometry.repairOf Geometry.locationOfRaw Correction.mend
  apply Array.ext_getElem?
  intro i
  by_cases hraw : raw < g.pageBytes
  · simp only [if_pos hraw, Array.getElem?_append, Array.size_modify, Array.getElem?_modify, hpage]
    split
    · rfl
    · rw [if_neg (by omega)]
  · simp only [if_neg hraw, Array.getElem?_append, Array.getElem?_modify, hpage]
    split
    · rw [if_neg (by omega)]
    · by_cases heq : raw = i
      · rw [if_pos (by omega), if_pos heq]
      · rw [if_neg (by omega), if_neg heq]

theorem append_foldl_mend {page : Bytes × Bytes} (hpage : page.1.size = g.pageBytes)
    (flip : Nat → UInt8) (raws : List Nat) :
    ((raws.map (g.repairOf flip)).foldl Correction.mend page).1 ++
        ((raws.map (g.repairOf flip)).foldl Correction.mend page).2 =
      flipped flip raws (page.1 ++ page.2) := by
  induction raws generalizing page with
  | nil => rfl
  | cons raw raws ih =>
    rw [List.map_cons, List.foldl_cons, ih (Correction.size_mend_fst.trans hpage),
      append_mend hpage]
    rfl

/-! ## The report of a field -/

theorem flipAt_eq_zero_iff {raw : Nat} (hsize : now.size = before.size) :
    flipAt now before raw = 0 ↔ now[raw]? = before[raw]? := by
  unfold flipAt
  by_cases hraw : raw < now.size
  · simp only [Array.getElem?_eq_getElem hraw, Array.getElem?_eq_getElem (hsize ▸ hraw),
      UInt8.xor_eq_zero_iff, Option.some.injEq]
  · rw [Array.getElem?_eq_none (by omega), Array.getElem?_eq_none (by omega)]
    simp

/-- The ECC stage comes across the bytes of a codeword in the order of the raw page. -/
theorem map_fst_owned (hsize : now.size = before.size) (hfits : g.Fits layout)
    (hraw : g.pageBytes + g.spareSize ≤ now.size) {index : Nat} (hindex : index < g.fieldCount) :
    (owned g layout.parityStart (flipAt now before) index).map Prod.fst =
      g.damagedBytes layout.parityStart before now index := by
  have hfour := Geometry.Fits.four_le_parityStart layout
  have hmetadata : metadataLen = 3 := rfl
  have hadd := hfits.parityStart_add
  have hsorted : ((owned g layout.parityStart (flipAt now before) index).map Prod.fst).Pairwise
      (· < ·) :=
    List.Pairwise.sublist (List.filter_sublist.map _) (pairwise_codewordBytes hindex (by omega))
  -- Both sides are ascending, so that it is enough that they have the same bytes.
  refine List.Perm.eq_of_pairwise ?_ hsorted (List.pairwise_lt_range.filter _) ?_
  · intro a b _ _ h h'
    omega
  refine (List.perm_ext_iff_of_nodup (hsorted.imp Nat.ne_of_lt)
    (Geometry.nodup_damagedBytes index)).2 fun raw => ?_
  rw [Geometry.mem_damagedBytes, owned, List.mem_map]
  constructor
  · rintro ⟨⟨raw, address⟩, hmem, rfl⟩
    simp only [List.mem_filter, decide_eq_true_eq] at hmem
    obtain ⟨hbyte, hflip, howner⟩ := hmem
    have hcovers := mem_codewordBytes.1 (List.mem_map_of_mem (f := Prod.fst) hbyte)
    have hdata := g.succ_mul_fieldLen_le hindex
    have hparity := g.mul_succ_parityLen_le hindex
    rw [Nat.mul_succ] at hparity
    rw [Geometry.Covers, Nat.mul_succ] at hcovers
    refine ⟨by omega, fun heq => hflip ((flipAt_eq_zero_iff hsize).2 heq), howner⟩
  · rintro ⟨-, hchanged, howner⟩
    have hcovers := (Geometry.owner?_eq_some_iff.1 howner).2.1
    obtain ⟨byte, hbyte, rfl⟩ := List.mem_map.1 (mem_codewordBytes.2 hcovers)
    refine ⟨byte, List.mem_filter.2 ⟨hbyte, ?_⟩, rfl⟩
    simp only [decide_eq_true_eq]
    exact ⟨fun hzero => hchanged ((flipAt_eq_zero_iff hsize).1 hzero), howner⟩

/-- What the ECC stage has to say about a field. -/
def fieldDamage? (g : Geometry) (before now : Bytes) (index : Nat) : Option DamageReport :=
  damageReport? g index ((owned g (g.spareSize - g.parityBytes) (flipAt now before) index).map
    (errorOf (flipAt now before)))

theorem damage_eq_filterMap (hstrength : g.strength ≠ .none) (before now : Bytes) :
    damage g now (some before) =
      (List.range g.fieldCount).filterMap (fieldDamage? g before now) := by
  rw [damage, if_neg hstrength]
  rfl

/-- What the driver makes of the damage of a field. -/
def reportOf (g : Geometry) (parityStart : Nat) (before now : Bytes) (index : Nat) :
    FieldReport where
  field := index + 1
  errorCount := (g.damagedBytes parityStart before now index).length
  corrections := (g.damagedBytes parityStart before now index).map
    (g.repairOf (flipAt now before))

/-- A field is reported if it has damaged bytes, and the report asks for the repair of these. -/
theorem fieldDamage?_spec (hsize : now.size = before.size) (hfits : g.Fits layout)
    (hraw : g.pageBytes + g.spareSize ≤ now.size) {index : Nat} (hindex : index < g.fieldCount) :
    if (g.damagedBytes layout.parityStart before now index).length = 0 then
      fieldDamage? g before now index = none
    else ∃ report, fieldDamage? g before now index = some report ∧
      report.field = index + 1 ∧
      report.errors.length = (g.damagedBytes layout.parityStart before now index).length ∧
      report.fieldReport g = reportOf g layout.parityStart before now index := by
  have howned := map_fst_owned hsize hfits hraw hindex
  rw [fieldDamage?, ← hfits.parityStart_eq]
  have hlength : ((owned g layout.parityStart (flipAt now before) index).map
      (errorOf (flipAt now before))).length =
      (g.damagedBytes layout.parityStart before now index).length := by
    rw [← howned, List.length_map, List.length_map]
  -- The address of an error is located where its byte lies.
  have hcorrections : ((owned g layout.parityStart (flipAt now before) index).map
      (errorOf (flipAt now before))).map (fun error =>
        (⟨DamageReport.locationOf g (index + 1) error, error.2⟩ : Correction)) =
      (g.damagedBytes layout.parityStart before now index).map
        (g.repairOf (flipAt now before)) := by
    rw [← howned, List.map_map, List.map_map]
    apply List.map_congr_left
    rintro ⟨raw, address⟩ hbyte
    have hmem := (List.mem_filter.1 hbyte).1
    rw [hfits.parityStart_eq] at hmem
    obtain ⟨haddress, hlocate⟩ := locate?_codewordBytes hindex hmem
    have hword : (UInt16.ofNat address).toNat = address :=
      UInt16.toNat_ofNat_of_lt' (Nat.lt_trans haddress (by decide))
    simp only [Function.comp_apply, errorOf, DamageReport.locationOf, hword, hlocate,
      Option.getD_some, Geometry.repairOf]
  rw [damageReport?]
  by_cases hclean : (g.damagedBytes layout.parityStart before now index).length = 0
  · rw [if_pos hclean, if_pos (List.isEmpty_iff_length_eq_zero.2 (hlength.trans hclean))]
  · rw [if_neg hclean, if_neg (by rw [List.isEmpty_iff_length_eq_zero, hlength]; exact hclean)]
    -- Whether the field counts as lost or not, the driver is told the same errors.
    have hreport : ∀ status : FieldStatus, DamageReport.fieldReport g ⟨index + 1, status,
        (owned g layout.parityStart (flipAt now before) index).map (errorOf (flipAt now before))⟩ =
        reportOf g layout.parityStart before now index := by
      intro status
      rw [DamageReport.fieldReport, DamageReport.corrections, hcorrections, hlength]
      rfl
    split <;> exact ⟨_, rfl, rfl, hlength, hreport _⟩

/-! ## Going through the reports -/

namespace Repairs

variable {poll : Poll} {page : Nat} {repairs : Repairs}

/-- Fields that have been repaired one after the other. -/
theorem foldl_credit (reports : List DamageReport) (repairs : Repairs) :
    reports.foldl (fun repairs report => repairs.credit g report) repairs =
      let corrections := (reports.map (·.fieldReport g)).flatMap (·.corrections)
      let mended := corrections.foldl Correction.mend (repairs.data, repairs.spare)
      ⟨mended.1, mended.2, ⟨repairs.stats.corrected + corrections.length, repairs.stats.failed⟩,
        repairs.reports ++ reports.map (·.fieldReport g)⟩ := by
  induction reports generalizing repairs with
  | nil => simp
  | cons report reports ih =>
    rw [List.foldl_cons, ih]
    simp [credit, DamageReport.fieldReport, Nat.add_assoc]

/-- Reports that can be repaired are gone through, if the wait allows for as many turns. -/
theorem all_append {good rest : List DamageReport}
    (hgood : ∀ report ∈ good, report.errors.length ≤ g.correctable) {turns : Nat}
    (hpoll : poll.Allows (turns + good.length)) (repairs : Repairs) :
    all poll g page turns (good ++ rest) repairs =
      all poll g page (turns + good.length) rest
        (good.foldl (fun repairs report => repairs.credit g report) repairs) := by
  induction good generalizing turns repairs with
  | nil => rfl
  | cons report good ih =>
    have hsum : turns + (report :: good).length = turns + 1 + good.length := by
      rw [List.length_cons]
      omega
    have hself := hgood report List.mem_cons_self
    rw [List.cons_append, all, if_neg (by omega), hpoll.isOver_eq (by rw [hsum]; omega),
      Bool.and_false, if_neg Bool.false_ne_true,
      ih (fun other hother => hgood other (List.mem_cons_of_mem _ hother)) (hsum ▸ hpoll), hsum]
    rfl

/-- The reports of some fields are those of their damaged bytes, field by field. -/
theorem map_fieldReport (hsize : now.size = before.size) (hfits : g.Fits layout)
    (hraw : g.pageBytes + g.spareSize ≤ now.size) {indices : List Nat}
    (hindices : ∀ index ∈ indices, index < g.fieldCount) :
    (indices.filterMap (fieldDamage? g before now)).map (·.fieldReport g) =
      (indices.filter fun index =>
        0 < (g.damagedBytes layout.parityStart before now index).length).map
        (reportOf g layout.parityStart before now) := by
  induction indices with
  | nil => rfl
  | cons index indices ih =>
    rw [List.forall_mem_cons] at hindices
    have hspec := fieldDamage?_spec hsize hfits hraw hindices.1
    split at hspec
    · next hclean =>
      rw [List.filterMap_cons_none hspec, List.filter_cons_of_neg (by simp [hclean]),
        ih hindices.2]
    · next hdamaged =>
      obtain ⟨report, hsome, -, -, hreport⟩ := hspec
      rw [List.filterMap_cons_some hsome,
        List.filter_cons_of_pos (by simpa using Nat.pos_of_ne_zero hdamaged), List.map_cons,
        List.map_cons, hreport, ih hindices.2]

/-- The repairs of some fields are those of all their damaged bytes; a clean field asks for
none. -/
theorem flatMap_reportOf (parityStart : Nat) (before now : Bytes) (indices : List Nat) :
    ((indices.filter fun index => 0 < (g.damagedBytes parityStart before now index).length).map
      (reportOf g parityStart before now)).flatMap (·.corrections) =
      (indices.flatMap (g.damagedBytes parityStart before now)).map
        (g.repairOf (flipAt now before)) := by
  induction indices with
  | nil => rfl
  | cons index indices ih =>
    rw [List.flatMap_cons, List.map_append, ← ih]
    by_cases hclean : (g.damagedBytes parityStart before now index).length = 0
    · rw [List.filter_cons_of_neg (by simp [hclean]), List.eq_nil_of_length_eq_zero hclean]
      rfl
    · rw [List.filter_cons_of_pos (by simpa using Nat.pos_of_ne_zero hclean)]
      rfl

theorem errors_le_of_damagedBytes (hsize : now.size = before.size) (hfits : g.Fits layout)
    (hraw : g.pageBytes + g.spareSize ≤ now.size) {indices : List Nat}
    (hindices : ∀ index ∈ indices, index < g.fieldCount)
    (hle : ∀ index ∈ indices,
      (g.damagedBytes layout.parityStart before now index).length ≤ g.correctable) :
    ∀ report ∈ indices.filterMap (fieldDamage? g before now),
      report.errors.length ≤ g.correctable := by
  intro report hreport
  obtain ⟨index, hindex, hsome⟩ := List.mem_filterMap.1 hreport
  have hspec := fieldDamage?_spec hsize hfits hraw (hindices index hindex)
  split at hspec
  · rw [hspec] at hsome
    cases hsome
  · obtain ⟨report', hsome', -, hlength, -⟩ := hspec
    cases hsome.symm.trans hsome'
    exact hlength ▸ hle index hindex

/-- A page buffer and a spare area in which the bytes of some fields are as they were before, and
all others as they are now; the books say the same. -/
structure Restored (g : Geometry) (parityStart : Nat) (before now : Bytes) (indices : List Nat)
    (stats : EccStats) (repairs : Repairs) : Prop where
  size_data : repairs.data.size = g.pageBytes
  size_spare : repairs.spare.size = g.spareSize
  byte_eq : ∀ i < g.pageBytes + g.spareSize, (repairs.data ++ repairs.spare)[i]? =
    if ∃ index ∈ indices, g.owner? parityStart i = some index then before[i]? else now[i]?
  stats_eq : repairs.stats = ⟨stats.corrected +
    (indices.map fun index => (g.damagedBytes parityStart before now index).length).sum,
    stats.failed⟩
  reports_eq : repairs.reports =
    (indices.filter fun index => 0 < (g.damagedBytes parityStart before now index).length).map
      (reportOf g parityStart before now)

/-- Once every field is restored, the data are what they were. -/
theorem Restored.data_eq {parityStart : Nat} {stats : EccStats}
    (h : Restored g parityStart before now (List.range g.fieldCount) stats repairs)
    (hbefore : g.pageBytes ≤ before.size) : repairs.data = before.extract 0 g.pageBytes := by
  apply Array.ext_getElem?
  intro i
  rw [Array.getElem?_extract]
  by_cases hi : i < g.pageBytes
  · have hbyte := h.byte_eq i (by omega)
    rw [if_pos (Geometry.exists_owner parityStart hi),
      Array.getElem?_append_left (by rw [h.size_data]; exact hi)] at hbyte
    rw [if_pos (by omega), Nat.zero_add, hbyte]
  · rw [if_neg (by omega), Array.getElem?_eq_none (by rw [h.size_data]; omega)]

/-- A spare byte is what it was if it belongs to a codeword, and otherwise what it is now. -/
theorem Restored.getElem?_spare {parityStart : Nat} {stats : EccStats}
    (h : Restored g parityStart before now (List.range g.fieldCount) stats repairs) {i : Nat}
    (hi : i < g.spareSize) : repairs.spare[i]? =
      if (g.owner? parityStart (g.pageBytes + i)).isSome then before[g.pageBytes + i]?
      else now[g.pageBytes + i]? := by
  have hbyte := h.byte_eq (g.pageBytes + i) (by omega)
  rw [Array.getElem?_append_right (by rw [h.size_data]; omega), h.size_data,
    Nat.add_sub_cancel_left] at hbyte
  simp only [hbyte, Geometry.isSome_owner?_iff]

theorem restored_foldl_credit (hsize : now.size = before.size) (hfits : g.Fits layout)
    (hraw : g.pageBytes + g.spareSize ≤ now.size) {indices : List Nat} (hnodup : indices.Nodup)
    (hindices : ∀ index ∈ indices, index < g.fieldCount) {start : Repairs}
    (hdata : start.data.size = g.pageBytes)
    (hstart : start.data ++ start.spare = now.extract 0 (g.pageBytes + g.spareSize))
    (hreports : start.reports = []) :
    Restored g layout.parityStart before now indices start.stats
      ((indices.filterMap (fieldDamage? g before now)).foldl
        (fun repairs report => repairs.credit g report) start) := by
  have hspare : start.spare.size = g.spareSize := by
    have hsizes := congrArg Array.size hstart
    rw [Array.size_append, Array.size_extract, hdata] at hsizes
    omega
  rw [foldl_credit, map_fieldReport hsize hfits hraw hindices, flatMap_reportOf, hreports]
  refine ⟨?_, ?_, ?_, ?_, rfl⟩
  · exact (Correction.size_foldl_mend _ _).1.trans hdata
  · exact (Correction.size_foldl_mend _ _).2.trans hspare
  · -- Page and spare area are mended as one string of bytes.
    intro i hi
    rw [append_foldl_mend hdata]
    apply getElem?_flipped_damagedBytes hsize hnodup
    rw [hstart, Array.getElem?_extract, if_pos (by omega), Nat.zero_add]
  · show EccStats.mk _ _ = _
    rw [List.length_map, List.length_flatMap]

/-! ## The damage of a page -/

/-- A page in which every field can be repaired is. -/
theorem all_damage_of_le (page : Nat) (hstrength : g.strength ≠ .none)
    (hsize : now.size = before.size) (hfits : g.Fits layout)
    (hraw : g.pageBytes + g.spareSize ≤ now.size)
    (hpoll : poll.Allows g.fieldCount)
    (hall : ∀ index < g.fieldCount,
      (g.damagedBytes layout.parityStart before now index).length ≤ g.correctable)
    {start : Repairs} (hdata : start.data.size = g.pageBytes)
    (hstart : start.data ++ start.spare = now.extract 0 (g.pageBytes + g.spareSize))
    (hreports : start.reports = []) :
    ∃ repairs, all poll g page 0 (damage g now (some before)) start = (.ok (), repairs) ∧
      Restored g layout.parityStart before now (List.range g.fieldCount) start.stats
        repairs := by
  have hindices : ∀ index ∈ List.range g.fieldCount, index < g.fieldCount :=
    fun index hindex => List.mem_range.1 hindex
  have hgood := errors_le_of_damagedBytes hsize hfits hraw hindices
    fun index hindex => hall index (hindices index hindex)
  have hlength := List.length_filterMap_le (fieldDamage? g before now) (List.range g.fieldCount)
  rw [List.length_range] at hlength
  refine ⟨_, ?_, restored_foldl_credit hsize hfits hraw List.nodup_range hindices hdata
    hstart hreports⟩
  -- No field has more errors than can be corrected, so that the walk goes through all reports.
  rw [damage_eq_filterMap hstrength, ← List.append_nil (List.filterMap _ _),
    all_append hgood (hpoll.mono (by omega)), List.append_nil]
  rfl

/-- A page is lost at its first field that cannot be repaired. The fields before have been
repaired by then. -/
theorem all_damage_of_lt (page : Nat) (hstrength : g.strength ≠ .none)
    (hsize : now.size = before.size) (hfits : g.Fits layout)
    (hraw : g.pageBytes + g.spareSize ≤ now.size)
    (hpoll : poll.Allows g.fieldCount) {lost : Nat} (hlost : lost < g.fieldCount)
    (hmany : g.correctable < (g.damagedBytes layout.parityStart before now lost).length)
    (hlower : ∀ index < lost,
      (g.damagedBytes layout.parityStart before now index).length ≤ g.correctable)
    {start : Repairs} (hdata : start.data.size = g.pageBytes)
    (hstart : start.data ++ start.spare = now.extract 0 (g.pageBytes + g.spareSize))
    (hreports : start.reports = []) :
    ∃ repairs, all poll g page 0 (damage g now (some before)) start =
        (.error (.uncorrectable page (lost + 1)), repairs.debit) ∧
      Restored g layout.parityStart before now (List.range lost) start.stats repairs := by
  have hindices : ∀ index ∈ List.range lost, index < g.fieldCount :=
    fun index hindex => Nat.lt_trans (List.mem_range.1 hindex) hlost
  have hgood := errors_le_of_damagedBytes hsize hfits hraw hindices
    fun index hindex => hlower index (List.mem_range.1 hindex)
  have hlength := List.length_filterMap_le (fieldDamage? g before now) (List.range lost)
  rw [List.length_range] at hlength
  -- The fields as far as the lost one, the lost one, and those that are never looked at.
  have hsplit : List.range g.fieldCount =
      List.range lost ++ lost :: List.range' (lost + 1) (g.fieldCount - (lost + 1)) := by
    have hcount : g.fieldCount = lost + (g.fieldCount - (lost + 1) + 1) := by omega
    rw [← List.range'_succ, List.range_eq_range', List.range_eq_range']
    conv_lhs => rw [hcount]
    rw [← List.range'_append_1, Nat.zero_add]
  have hspec := fieldDamage?_spec hsize hfits hraw hlost
  rw [if_neg (by omega)] at hspec
  obtain ⟨report, hsome, hfield, herrors, -⟩ := hspec
  refine ⟨_, ?_, restored_foldl_credit hsize hfits hraw List.nodup_range hindices hdata
    hstart hreports⟩
  rw [damage_eq_filterMap hstrength, hsplit, List.filterMap_append, List.filterMap_cons_some hsome,
    all_append hgood (hpoll.mono (by omega)), all, if_pos (by omega), hfield]

end Repairs

end Sim

end NandFlash
