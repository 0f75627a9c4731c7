import NandFlash.Proofs.Sim.Planning

/-!
# Reading back what is presented

A report is packed into registers: four status bytes, two error addresses or four error values to
a word. Setting a status byte leaves the other bytes of its word alone, and so the status words say
of every field what was last presented of it. The errors are read back in order, however many
registers their number takes. For a report that is being shown, what the driver plans is what the
ECC stage has found: each error where its address points.
-/

namespace NandFlash

/-! ## Bytes of a word -/

/-- A word with another byte in the place of byte `k`. -/
def replaceByte (word : UInt32) (k : Nat) (byte : UInt8) : UInt32 :=
  (word &&& ~~~((0xFF : UInt32) <<< UInt32.ofNat (k * 8))) |||
    byte.toUInt32 <<< UInt32.ofNat (k * 8)

theorem toBitVec_replaceByte (word : UInt32) (byte : UInt8) {k : Nat} (hk : k < 4) :
    (replaceByte word k byte).toBitVec =
      (word.toBitVec &&& ~~~((BitVec.allOnes 8).setWidth 32 <<< (8 * k))) |||
        byte.toBitVec.setWidth 32 <<< (8 * k) := by
  have hcases : k = 0 ∨ k = 1 ∨ k = 2 ∨ k = 3 := by omega
  rcases hcases with rfl | rfl | rfl | rfl <;> rfl

/-- The other bytes of the word stay. -/
theorem wordByte_replaceByte (word : UInt32) (byte : UInt8) {j k : Nat} (hj : j < 4)
    (hk : k < 4) :
    wordByte (replaceByte word k byte) j = if j = k then byte else wordByte word j := by
  have hbit (i : Nat) (hi : i < 8) : (wordByte (replaceByte word k byte) j).toBitVec.getLsbD i =
      if j = k then byte.toBitVec.getLsbD i else (wordByte word j).toBitVec.getLsbD i := by
    simp only [toBitVec_wordByte _ _ hj, toBitVec_replaceByte _ _ hk, BitVec.getLsbD_setWidth,
      BitVec.getLsbD_ushiftRight, BitVec.getLsbD_or, BitVec.getLsbD_and, BitVec.getLsbD_not,
      BitVec.getLsbD_shiftLeft, BitVec.getLsbD_allOnes]
    have hrange : 8 * j + i < 32 := by omega
    by_cases hjk : j = k
    · subst hjk
      simp [hrange, hi, Nat.not_lt.2 (Nat.le_add_right (8 * j) i), show i < 32 by omega]
    · -- The bits of another byte are below the eight that are replaced, or above them.
      have hout : 8 * j + i < 8 * k ∨ 8 ≤ 8 * j + i - 8 * k := by omega
      rw [if_neg hjk]
      rcases hout with hbelow | habove
      · simp [hbelow, hrange, hi]
      · simp [hrange, hi, Nat.not_lt.2 habove, BitVec.getLsbD_of_ge _ _ habove]
  apply UInt8.toBitVec_inj.1
  apply BitVec.eq_of_getLsbD_eq
  intro i hi
  rw [hbit i hi]
  split <;> rfl

theorem wordByte_zero (k : Nat) : wordByte 0 k = 0 := by
  rw [wordByte, UInt32.zero_shiftRight]
  rfl

/-- The front of a buffer, given entry by entry. -/
theorem take_toList_eq {α : Type} {n : Nat} {buffer : Vector α n} {front : List α}
    (h : ∀ k (hk : k < front.length), buffer[k]? = some front[k]) :
    buffer.toList.take front.length = front := by
  apply List.ext_getElem?
  intro k
  rw [List.getElem?_take]
  by_cases hk : k < front.length
  · rw [if_pos hk, Vector.getElem?_toList, h k hk, List.getElem?_eq_getElem hk]
  · rw [if_neg hk, List.getElem?_eq_none (Nat.le_of_not_lt hk)]

namespace Sim

open Ecc

namespace Engine

variable {engine : Engine} {g : Geometry} {field other : Nat}

/-! ## Status bytes -/

/-- The status byte of a field, counted from 1. -/
def statusByte (engine : Engine) (field : Nat) : UInt8 :=
  wordByte (engine.register (Register.fieldStatus + 4 * ((field - 1) / 4))) ((field - 1) % 4)

/-- The fields have bytes of their own. -/
theorem statusByte_setFieldStatus (engine : Engine) (field : Nat) (status : FieldStatus)
    (hpos : 1 ≤ other) (hle : other ≤ 16) :
    (engine.setFieldStatus field status).statusByte other =
      if other = field then status.toByte else engine.statusByte other := by
  have hfour : Register.fieldStatusWords = 4 := rfl
  obtain ⟨index, rfl⟩ := Nat.exists_eq_add_of_le' hpos
  cases field with
  | zero => exact (if_neg (by omega)).symm
  | succ target =>
    by_cases hwords : target / 4 < Register.fieldStatusWords
    · have hset : engine.setFieldStatus (target + 1) status =
          engine.setRegister (Register.fieldStatus + 4 * (target / 4)) (replaceByte
            (engine.register (Register.fieldStatus + 4 * (target / 4))) (target % 4)
            status.toByte) := if_pos hwords
      rw [hset, statusByte, statusByte, Nat.add_sub_cancel]
      by_cases hword : index / 4 = target / 4
      · rw [hword, register_setRegister_self,
          wordByte_replaceByte _ _ (Nat.mod_lt _ (by omega)) (Nat.mod_lt _ (by omega))]
        by_cases hbyte : index % 4 = target % 4
        · rw [if_pos hbyte, if_pos (by omega)]
        · rw [if_neg hbyte, if_neg (by omega)]
      · rw [register_setRegister_of_ne _ _ (by omega), if_neg (by omega)]
    · rw [setFieldStatus, if_neg hwords, if_neg (by omega)]

theorem statusByte_clearStatus (engine : Engine) (hle : other ≤ 16) :
    engine.clearStatus.statusByte other = 0 := by
  have hfour : Register.fieldStatusWords = 4 := rfl
  rw [statusByte, clearStatus_eq, register_storeWords_self _ _ (by omega), wordByte_zero]

/-- Presenting a report sets the status byte of its field and clears all others. -/
theorem statusByte_present (engine : Engine) (field : Nat) (status : FieldStatus)
    (errors : List (UInt16 × UInt8)) (hpos : 1 ≤ other) (hle : other ≤ 16) :
    (engine.present field status errors).statusByte other =
      if other = field then status.toByte else 0 := by
  have hfour : Register.fieldStatusWords = 4 := rfl
  rw [statusByte, statusWord_present _ _ _ _ (by omega), ← statusByte,
    statusByte_setFieldStatus _ _ _ hpos hle, statusByte_clearStatus _ hle]

theorem fieldStatus_eq (engine : Engine) (field : Nat) :
    engine.fieldStatus field = .ofByte (engine.statusByte field) := rfl

/-- A count of errors survives in a status byte, if it is one that can be latched. -/
theorem fieldStatus_present (engine : Engine) {errors : List (UInt16 × UInt8)}
    (hlength : errors.length ≤ 24) (hpos : 1 ≤ other) (hle : other ≤ 16) :
    (engine.present field (.correctable errors.length) errors).fieldStatus other =
      if other = field then .correctable errors.length else .clean := by
  rw [fieldStatus_eq, statusByte_present _ _ _ _ hpos hle]
  split
  · exact FieldStatus.ofByte_toByte_correctable (by omega)
  · rfl

/-- If all fields but one are clean, this one is all that is reported. -/
theorem reported_of_clean (hpos : 1 ≤ field) (hstatus : engine.fieldStatus field ≠ .clean)
    (hclean : ∀ other, 1 ≤ other → other ≤ 16 → other ≠ field →
      engine.fieldStatus other = .clean) :
    engine.reported g =
      if field ≤ g.fieldCount then [(field, engine.fieldStatus field)] else [] := by
  have hcount := g.fieldCount_le
  obtain ⟨index, rfl⟩ := Nat.exists_eq_add_of_le' hpos
  have hnone : ∀ other < g.fieldCount, other ≠ index → engine.reportedAt other = none := by
    intro other hother hne
    rw [reportedAt, hclean (other + 1) (by omega) (by omega) (by omega)]
  -- Of all fields of the geometry this one alone is not passed over.
  rw [reported]
  by_cases hindex : index < g.fieldCount
  · rw [if_pos (Nat.succ_le_of_lt hindex), range_eq_append_cons hindex, List.filterMap_append,
      List.filterMap_cons_some (reportedAt_of_ne_clean hstatus), List.filterMap_eq_nil_iff.2,
      List.filterMap_eq_nil_iff.2, List.nil_append]
    · intro other hother
      have hother := List.mem_range'_1.1 hother
      exact hnone other (by omega) (by omega)
    · intro other hother
      have hother := List.mem_range.1 hother
      exact hnone other (by omega) (by omega)
  · rw [if_neg (by omega), List.filterMap_eq_nil_iff.2]
    intro other hother
    have hother := List.mem_range.1 hother
    exact hnone other hother (by omega)

/-! ## A report that is shown -/

namespace Shows

variable {report : DamageReport} {k : Nat} (h : engine.Shows report)

include h

theorem statusByte_eq (hfield : 1 ≤ report.field) (hpos : 1 ≤ other) (hle : other ≤ 16) :
    engine.statusByte other = if other = report.field then report.status.toByte else 0 := by
  rw [statusByte, h.statusWord_eq _ (show _ < 4 by omega), statusWord]
  by_cases hword : (other - 1) / 4 = (report.field - 1) / 4
  · have halone : report.status.toByte.toUInt32 <<< UInt32.ofNat ((report.field - 1) % 4 * 8) =
        replaceByte 0 ((report.field - 1) % 4) report.status.toByte := by
      rw [replaceByte, UInt32.zero_and, UInt32.zero_or]
    rw [if_pos hword, halone,
      wordByte_replaceByte _ _ (Nat.mod_lt _ (by omega)) (Nat.mod_lt _ (by omega)), wordByte_zero]
    by_cases hbyte : (other - 1) % 4 = (report.field - 1) % 4
    · rw [if_pos hbyte, if_pos (by omega)]
    · rw [if_neg hbyte, if_neg (by omega)]
  · rw [if_neg hword, wordByte_zero, if_neg (by omega)]

theorem latchedAddress_eq (haddress : ∀ error ∈ report.errors, error.1.toNat < 2048)
    (hlength : report.errors.length ≤ maxErrors) (hk : k < report.errors.length) :
    engine.latchedAddress k = report.errors[k].1.toNat := by
  have hmax : maxErrors = 24 := rfl
  have hpair := engine.addressPair_register (k / 2)
  rw [h.addressWord_eq _ (show _ < 12 by omega), List.take_of_length_le hlength,
    addressPair_addressWord haddress, List.cons_eq_cons, List.cons_eq_cons] at hpair
  have hlatched : (latched report.errors k).1.toNat = report.errors[k].1.toNat := by
    rw [latched, List.getElem?_eq_getElem hk, Option.getD_some]
  -- An address is the first or the second of the two in its register.
  have hplace : k = 2 * (k / 2) ∨ k = 2 * (k / 2) + 1 := by omega
  rw [← hlatched]
  rcases hplace with heven | hodd
  · rw [heven]
    exact hpair.1.symm
  · rw [hodd]
    exact hpair.2.1.symm

theorem latchedValue_eq (hlength : report.errors.length ≤ maxErrors)
    (hk : k < report.errors.length) : engine.latchedValue k = report.errors[k].2 := by
  have hmax : maxErrors = 24 := rfl
  rw [latchedValue, h.valueWord_eq _ (show _ < 6 by omega), List.take_of_length_le hlength,
    wordByte_valueWord _ _ (Nat.mod_lt _ (by omega)), Nat.div_add_mod, latched,
    List.getElem?_eq_getElem hk, Option.getD_some]

variable (hlegible : report.Legible g) (hsize : engine.spareLen = g.spareSize)

include hlegible

theorem status_eq (hpos : 1 ≤ other) (hle : other ≤ 16) :
    engine.fieldStatus other = if other = report.field then report.status else .clean := by
  have hcount := g.correctable_le
  obtain ⟨index, -, hfield⟩ := hlegible.field_lt
  rw [fieldStatus_eq, h.statusByte_eq (by omega) hpos hle]
  split
  · rw [hlegible.status_eq]
    split
    · rfl
    · exact FieldStatus.ofByte_toByte_correctable (by omega)
  · rfl

include hsize

theorem errorLocation?_eq (hlength : report.errors.length ≤ maxErrors)
    (hk : k < report.errors.length) : engine.errorLocation? g report.field k =
      g.locate? report.field report.errors[k].1.toNat (g.spareSize - g.parityBytes) := by
  rw [errorLocation?, hsize,
    h.latchedAddress_eq (fun error herror => (hlegible.located error herror).1) hlength hk]

/-- The driver repairs what the report says. -/
theorem reportOf_eq (hlength : report.errors.length ≤ maxErrors) :
    engine.reportOf g report.field report.errors.length = report.fieldReport g := by
  rw [reportOf, DamageReport.fieldReport, DamageReport.corrections]
  congr 1
  apply List.ext_getElem
  · rw [List.length_map, List.length_range, List.length_map]
  · intro k _ hk
    rw [List.length_map] at hk
    rw [List.getElem_map, List.getElem_map, List.getElem_range, repairAt,
      h.errorLocation?_eq hlegible hsize hlength hk, h.latchedValue_eq hlength hk]
    rfl

theorem repairable (hparity : g.parityBytes ≤ g.spareSize)
    (hcorrectable : report.errors.length ≤ g.correctable) :
    engine.Repairable g g.pageBytes report.field report.errors.length := by
  have hlength : report.errors.length ≤ maxErrors := Nat.le_trans hcorrectable g.correctable_le
  obtain ⟨index, -, hfield⟩ := hlegible.field_lt
  -- An address means one byte only, and this is the one that the report locates.
  have hlocated (k : Nat) (hk : k < report.errors.length) : ∃ location,
      engine.errorLocation? g report.field k = some location ∧
      Correction.Within g.pageBytes engine.spareLen ⟨location, report.errors[k].2⟩ := by
    rw [h.errorLocation?_eq hlegible hsize hlength hk, hsize]
    exact (hlegible.located _ (List.getElem_mem hk)).2
  refine ⟨hlength, hsize ▸ hparity, fun k hk => ?_, fun k hk location hlocation => ?_⟩
  · obtain ⟨location, hlocation, -⟩ := hlocated k hk
    rw [hfield, errorLocation?] at hlocation
    exact (g.isSome_locate?_iff index _ _).1 (Option.isSome_iff_exists.2 ⟨location, hlocation⟩)
  · obtain ⟨other, hother, hoffset⟩ := hlocated k hk
    rw [hlocation, Option.some.injEq] at hother
    exact hother ▸ hoffset

end Shows

end Engine

end Sim

namespace Ecc

/-- The status bytes of all fields, as they are read. -/
def readStatusBytes {β : Type} [Bus β] : Action β (List UInt8) := do
  let words ← (List.range Register.fieldStatusWords).mapM fun i =>
    Bus.read32 (Register.fieldStatus + 4 * i)
  return words.flatMap wordBytes

end Ecc

namespace Sim.Device

open Ecc

variable {device : Device}

/-! ## Reports that are shown -/

variable {report : DamageReport} {g : Geometry}

/-- The errors of a report are read back, from as many registers as their number asks for. -/
theorem run_readSyndrome_of_shows (hshows : device.engine.Shows report)
    (haddress : ∀ error ∈ report.errors, error.1.toNat < 2048)
    (hlength : report.errors.length ≤ maxErrors) :
    ∃ syndrome, (readSyndrome report.errors.length).run device = .ok (syndrome, device) ∧
      syndrome.addresses.toList.take report.errors.length = report.errors.map (·.1.toNat) ∧
      syndrome.values.toList.take report.errors.length = report.errors.map (·.2) := by
  obtain ⟨syndrome, hrun, hlatched⟩ := run_readSyndrome device hlength
  refine ⟨syndrome, hrun, ?_, ?_⟩
  · have hmap : (report.errors.map (·.1.toNat)).length = report.errors.length := List.length_map _
    rw [← hmap]
    refine take_toList_eq fun k hk => ?_
    rw [List.length_map] at hk
    rw [(hlatched k hk).1, List.getElem_map, hshows.latchedAddress_eq haddress hlength hk]
  · have hmap : (report.errors.map (·.2)).length = report.errors.length := List.length_map _
    rw [← hmap]
    refine take_toList_eq fun k hk => ?_
    rw [List.length_map] at hk
    rw [(hlatched k hk).2, List.getElem_map, hshows.latchedValue_eq hlength hk]

theorem spareLen_eq (hspareSize : device.engine.register Register.spareSize =
    UInt32.ofNat g.spareSize) (hspare : g.spareSize ≤ windowLen) :
    device.engine.spareLen = g.spareSize := by
  have hwindow : windowLen = 472 := rfl
  have hmask : Bits.spareSizeMask.toNat = 2 ^ 9 - 1 := rfl
  rw [Engine.spareLen, hspareSize, UInt32.toNat_and, hmask, Nat.and_two_pow_sub_one_eq_mod,
    UInt32.toNat_ofNat_of_lt' (by show g.spareSize < 2 ^ 32; omega), Nat.mod_eq_of_lt (by omega)]

/-- A report that is shown is planned, unless its field is lost. -/
theorem run_plan (hshows : device.engine.Shows report) (hlegible : report.Legible g)
    (hspareSize : device.engine.register Register.spareSize = UInt32.ofNat g.spareSize)
    (hspare : g.spareSize ≤ windowLen) (hparity : g.parityBytes ≤ g.spareSize) :
    (plan g g.pageBytes).run.run device =
      .ok (if report.errors.length > g.correctable then .error ⟨report.field⟩
        else .ok [report.fieldReport g], device) := by
  have hmax : maxErrors = 24 := rfl
  have hcount := g.correctable_le
  have hfields := g.fieldCount_le
  have hsize := spareLen_eq hspareSize hspare
  obtain ⟨index, hindex, hfield⟩ := hlegible.field_eq
  have hself : device.engine.fieldStatus report.field = report.status :=
    (hshows.status_eq hlegible (by omega) (by omega)).trans (if_pos rfl)
  have hclean : report.status ≠ .clean := by
    rw [hlegible.status_eq]
    split <;> exact FieldStatus.noConfusion
  -- The report that is shown is the only field that is not clean.
  have hreported : device.engine.reported g = [(report.field, report.status)] := by
    rw [Engine.reported_of_clean (by omega) (hself ▸ hclean) fun other hpos hle hne =>
      (hshows.status_eq hlegible hpos hle).trans (if_neg hne), if_pos (by omega), hself]
  rw [run_plan_eq, hreported, List.mapM_cons, judged, hlegible.status_eq]
  by_cases hlost : report.errors.length > g.correctable
  · simp only [if_pos hlost]
    rfl
  · have hrepairable := hshows.repairable hlegible hsize hparity (Nat.le_of_not_gt hlost)
    simp only [if_neg hlost, if_pos hrepairable, hshows.reportOf_eq hlegible hsize (by omega)]
    rfl

theorem within_of_legible (hlegible : report.Legible g) :
    ∀ c ∈ report.corrections g, c.Within g.pageBytes g.spareSize := by
  intro c hc
  obtain ⟨error, herror, rfl⟩ := List.mem_map.1 hc
  obtain ⟨-, location, hlocate, hoffset⟩ := hlegible.located error herror
  simp only [DamageReport.locationOf, hlocate, Option.getD_some]
  exact hoffset

/-- The field that is shown is repaired, or nothing is. -/
theorem run_correct (device : Device) (hshows : device.engine.Shows report)
    (hlegible : report.Legible g)
    (hspareSize : device.engine.register Register.spareSize = UInt32.ofNat g.spareSize)
    (hspare : g.spareSize ≤ windowLen) (hparity : g.parityBytes ≤ g.spareSize) {data : Bytes}
    (hdata : data.size = g.pageBytes) :
    if report.errors.length > g.correctable then
      (correct g data).run.run device = .ok (.error ⟨report.field⟩, device)
    else ∃ window, (correct g data).run.run device = .ok (.ok ([report.fieldReport g],
        ((report.corrections g).foldl Correction.mend
          (data, device.engine.window.front g.spareSize)).1), device.setWindow window) ∧
      window.front g.spareSize = ((report.corrections g).foldl Correction.mend
        (data, device.engine.window.front g.spareSize)).2 := by
  have hplan := run_plan hshows hlegible hspareSize hspare hparity
  rw [← hdata] at hplan
  by_cases hlost : report.errors.length > g.correctable
  · rw [if_pos hlost] at hplan ⊢
    exact run_attempt_bind_error hplan
  · rw [if_neg hlost] at hplan ⊢
    obtain ⟨window, hrun, hfront⟩ := run_corrections device data
      (hdata.symm ▸ within_of_legible hlegible) hspare
    refine ⟨window, run_attempt_step hplan ?_, hfront⟩
    have hflat : [report.fieldReport g].flatMap (·.corrections) = report.corrections g :=
      List.flatMap_singleton ..
    rw [hflat]
    exact run_attempt_step (run_perform hrun) rfl

/-! ## Presented reports -/

theorem run_readStatusBytes (device : Device) :
    readStatusBytes.run device =
      .ok ((List.range 16).map fun index => device.engine.statusByte (index + 1), device) := by
  have hread : ((List.range Register.fieldStatusWords).mapM fun i =>
      Bus.read32 (Register.fieldStatus + 4 * i)).run device = .ok (_, device) :=
    run_mapM fun i hi => run_read32 device
      (isReadable_row (by decide) (by decide) (List.mem_range.1 hi))
  refine run_step hread ?_
  have hfours (i : Nat) : wordBytes (device.engine.register (Register.fieldStatus + 4 * i)) =
      [device.engine.statusByte (4 * i + 1), device.engine.statusByte (4 * i + 1 + 1),
        device.engine.statusByte (4 * i + 2 + 1), device.engine.statusByte (4 * i + 3 + 1)] := by
    have hdiv (k : Nat) (hk : k < 4) : (4 * i + k) / 4 = i := by omega
    simp [wordBytes, Engine.statusByte, hdiv]
  rw [List.flatMap_map]
  simp only [hfours]
  rw [flatMap_four fun index => device.engine.statusByte (index + 1)]
  rfl

/-- A report that has been presented is read back as it was. The status words give its field as
correctable, with the number of its errors, and every other field as clean; a plan is made from this
alone. The errors are read back in order. Setting the status of a field afterwards, or on any other
device, leaves the status bytes of all other fields as they were. -/
theorem presented_report_reads_back (device : Device) {field : Nat}
    {errors : List (UInt16 × UInt8)} (hpos : 1 ≤ field) (hle : field ≤ 16)
    (hlength : errors.length ≤ 24) (haddress : ∀ error ∈ errors, error.1.toNat < 2048) :
    let status := FieldStatus.correctable errors.length
    let shown := device.modifyEngine (·.present field status errors)
    (∃ bytes, readStatusBytes.run shown = .ok (bytes, shown) ∧
      bytes.map FieldStatus.ofByte =
        (List.range 16).map fun index => if index + 1 = field then status else .clean) ∧
    (∀ g dataLen, (plan g dataLen).run.run shown =
      .ok ((if field ≤ g.fieldCount then [(field, status)] else []).mapM (shown.judged g dataLen),
        shown)) ∧
    (∃ syndrome, (readSyndrome errors.length).run shown = .ok (syndrome, shown) ∧
      syndrome.addresses.toList.take errors.length = errors.map (·.1.toNat) ∧
      syndrome.values.toList.take errors.length = errors.map (·.2)) ∧
    ∀ (before : Device) (extra : Nat) (status : FieldStatus),
      let after := before.modifyEngine (·.setFieldStatus extra status)
      ∃ old new, readStatusBytes.run before = .ok (old, before) ∧
        readStatusBytes.run after = .ok (new, after) ∧
        ∀ index, index + 1 ≠ extra → new[index]? = old[index]? := by
  intro status shown
  have hstatus : ∀ other, 1 ≤ other → other ≤ 16 →
      shown.engine.fieldStatus other = if other = field then status else .clean :=
    fun other => device.engine.fieldStatus_present hlength
  refine ⟨⟨_, run_readStatusBytes shown, ?_⟩, fun g dataLen => ?_, ?_, ?_⟩
  · rw [List.map_map]
    refine List.map_congr_left fun index hindex => ?_
    -- Presenting clears the other fields.
    have hindex := List.mem_range.1 hindex
    exact hstatus (index + 1) (by omega) (by omega)
  · have hfield := (hstatus field hpos hle).trans (if_pos rfl)
    rw [run_plan_eq, Engine.reported_of_clean hpos (by rw [hfield]; exact FieldStatus.noConfusion)
      fun other hother hother' hne => (hstatus other hother hother').trans (if_neg hne), hfield]
  · obtain ⟨index, rfl⟩ := Nat.exists_eq_add_of_le' hpos
    have hshows : shown.engine.Shows ⟨index + 1, status, errors⟩ :=
      device.engine.shows_present ⟨index, by omega, rfl⟩
    exact run_readSyndrome_of_shows hshows haddress hlength
  · intro before extra status after
    refine ⟨_, _, run_readStatusBytes before, run_readStatusBytes after, fun index hne => ?_⟩
    rw [List.getElem?_map, List.getElem?_map]
    by_cases hindex : index < 16
    · rw [List.getElem?_range hindex, Option.map_some, Option.map_some]
      refine congrArg some ((before.engine.statusByte_setFieldStatus extra status ?_ ?_).trans
        (if_neg hne)) <;> omega
    · rw [List.getElem?_eq_none (by rw [List.length_range]; omega)]
      rfl

/-- 24 errors in the last field take up all the registers, and the highest address all of its
bits. -/
theorem presented_report_reads_back_full :
    let device : Device := ⟨.k9f1g08, .blank, .idle 2112, .idle, ⟨0, unsetPins⟩, ⟨#[], #[]⟩⟩
    let errors := (List.range 24).map fun k => (UInt16.ofNat (89 * k), UInt8.ofNat (k + 1))
    let shown := device.modifyEngine (·.present 16 (.correctable errors.length) errors)
    (1 ≤ 16 ∧ 16 ≤ 16 ∧ errors.length ≤ 24 ∧ ∀ error ∈ errors, error.1.toNat < 2048) ∧
    (∃ bytes, readStatusBytes.run shown = .ok (bytes, shown) ∧
      bytes.map FieldStatus.ofByte = List.replicate 15 .clean ++ [.correctable 24]) ∧
    ∃ syndrome, (readSyndrome 24).run shown = .ok (syndrome, shown) ∧
      syndrome.addresses.toList.take 24 = (List.range 24).map (89 * ·) ∧
      syndrome.values.toList.take 24 = (List.range 24).map fun k => UInt8.ofNat (k + 1) := by
  intro device errors shown
  have hlength : errors.length ≤ 24 := by decide
  have haddress : ∀ error ∈ errors, error.1.toNat < 2048 := by
    refine List.forall_mem_map.2 fun k hk => ?_
    have hk := List.mem_range.1 hk
    exact Nat.lt_of_le_of_lt (Nat.mod_le _ _) (by omega)
  obtain ⟨hstatus, -, hsyndrome, -⟩ :=
    presented_report_reads_back device (by decide) (Nat.le_refl 16) hlength haddress
  exact ⟨⟨by decide, Nat.le_refl 16, hlength, haddress⟩, hstatus, hsyndrome⟩

end Sim.Device

end NandFlash
