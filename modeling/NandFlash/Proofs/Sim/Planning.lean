import Mathlib.Data.List.Basic
import Mathlib.Data.Nat.Find
import NandFlash.Proofs.AnyBus.Correction
import NandFlash.Proofs.Sim.Repair

/-!
# What is planned on any device

Status words, latched addresses and latched values may say anything. `Engine.Repairable` says of a
reported field, in terms of these registers alone, whether it can be repaired, and the plan is
worked out accordingly: one report for each repairable field, or the first field that is lost.
Planning only reads, so that the device stays as it is.
-/

namespace NandFlash

/-! ## Rows of outcomes -/

section

variable {ε σ ι α β : Type}

/-- Attempts that leave the state alone have the outcomes of a pure computation. -/
theorem run_attempt_mapM_eq {l : List ι} {m : ι → Attempt ε σ α} {f : ι → Except ε α} {s : σ}
    (h : ∀ i ∈ l, (m i).run.run s = .ok (f i, s)) :
    (l.mapM m).run.run s = .ok (l.mapM f, s) := by
  induction l with
  | nil => rfl
  | cons i l ih =>
    rw [List.forall_mem_cons] at h
    rw [List.mapM_cons, List.mapM_cons]
    cases hi : f i with
    | error e => exact run_attempt_bind_error (hi ▸ h.1)
    | ok a =>
      rw [run_attempt_bind (hi ▸ h.1)]
      cases hl : l.mapM f with
      | error e => exact run_attempt_bind_error (hl ▸ ih h.2)
      | ok as =>
        rw [run_attempt_bind (hl ▸ ih h.2)]
        rfl

theorem mapM_eq_ok {l : List ι} {f : ι → Except ε α} {a : ι → α}
    (h : ∀ i ∈ l, f i = .ok (a i)) : l.mapM f = .ok (l.map a) := by
  induction l with
  | nil => rfl
  | cons i l ih =>
    rw [List.forall_mem_cons] at h
    rw [List.mapM_cons, h.1, ih h.2]
    rfl

/-- The first error ends a row. -/
theorem mapM_eq_error {before after : List ι} {i : ι} {f : ι → Except ε α} {a : ι → α} {e : ε}
    (hbefore : ∀ j ∈ before, f j = .ok (a j)) (hi : f i = .error e) :
    (before ++ i :: after).mapM f = .error e := by
  rw [List.mapM_append, mapM_eq_ok hbefore, List.mapM_cons, hi]
  rfl

/-- A row of rows is a longer row. -/
theorem mapM_mapM_flatten (l : List ι) (h : ι → List β) (f : β → Except ε α) :
    (do return (← l.mapM fun i => (h i).mapM f).flatten) = (l.flatMap h).mapM f := by
  induction l with
  | nil => rfl
  | cons i l ih =>
    rw [List.flatMap_cons, List.mapM_append, ← ih, List.mapM_cons]
    cases (h i).mapM f with
    | error e => rfl
    | ok as => cases l.mapM fun i => (h i).mapM f <;> rfl

/-- What some number satisfies, a first one does. -/
theorem exists_first {p : Nat → Prop} (h : ∃ n, p n) : ∃ n, p n ∧ ∀ m < n, ¬p m := by
  classical
  exact ⟨Nat.find h, Nat.find_spec h, fun m hm => Nat.find_min h hm⟩

/-- A range, cut at one of its members. -/
theorem range_eq_append_cons {i n : Nat} (h : i < n) :
    List.range n = List.range i ++ i :: List.range' (i + 1) (n - (i + 1)) := by
  have happend := List.range'_append_1 (s := 0) (m := i) (n := n - (i + 1) + 1)
  rw [Nat.zero_add] at happend
  rw [← List.range'_succ, List.range_eq_range', List.range_eq_range', happend]
  congr 1
  omega

end

/-! ## Addresses -/

namespace Geometry

/-- An address within a codeword: data, metadata or parity, but not the padding between them. -/
def InCodeword (g : Geometry) (address : Nat) : Prop :=
  address < g.fieldLen + 3 ∨
    (g.fieldLen + g.paddingLen - g.parityLen ≤ address ∧ address < g.fieldLen + g.paddingLen)

instance (g : Geometry) (address : Nat) : Decidable (g.InCodeword address) :=
  inferInstanceAs (Decidable (_ ∨ _))

theorem parityLen_le_paddingLen (g : Geometry) : g.parityLen ≤ g.paddingLen := by
  rw [parityLen, paddingLen, codeword]
  cases g.strength <;> decide

/-- The addresses of a codeword are those that mean a byte. -/
theorem isSome_locate?_iff (g : Geometry) (index address parityBase : Nat) :
    (g.locate? (index + 1) address parityBase).isSome ↔ g.InCodeword address := by
  have hle := g.parityLen_le_paddingLen
  have hmeta : metadataLen = 3 := rfl
  have hfirst : g.firstParity = g.fieldLen + g.paddingLen - g.parityLen := rfl
  simp only [locate?, InCodeword]
  by_cases hdata : address < g.fieldLen
  · rw [if_pos hdata, Option.isSome_some]
    exact iff_of_true rfl (by omega)
  · rw [if_neg hdata]
    by_cases hmetadata : address < g.fieldLen + metadataLen
    · rw [if_pos hmetadata]
      exact iff_of_true rfl (by omega)
    · rw [if_neg hmetadata]
      by_cases hparity : g.firstParity ≤ address ∧ address - g.firstParity < g.parityLen
      · rw [if_pos hparity]
        exact iff_of_true rfl (by omega)
      · rw [if_neg hparity]
        exact iff_of_false Bool.false_ne_true (by omega)

end Geometry

namespace Ecc

variable {g : Geometry} {field address parityBase dataLen window : Nat} {value : UInt8}

theorem locateWord?_eq (hfield : field ≤ 16) (haddress : address < 2048)
    (hbase : parityBase < 512) :
    g.locateWord? field address parityBase = .ok (g.locate? field address parityBase) := by
  rw [Geometry.locateWord?]
  cases hlocate : g.locate? field address parityBase with
  | none => rfl
  | some location =>
    have hoffset := Geometry.offset_lt_of_locate? hfield haddress hbase hlocate
    have hword : word64 location.offset = .ok location.offset :=
      word64_eq_ok.2 ⟨Nat.lt_trans hoffset (by decide), rfl⟩
    simp only [hword]
    rfl

/-- An address that means a byte within reach is planned. -/
theorem planError_of_within (hfield : field ≤ 16) (haddress : address < 2048)
    (hbase : parityBase < 512) {location : Location}
    (hlocate : g.locate? field address parityBase = some location)
    (hwithin : Correction.Within dataLen window ⟨location, value⟩) :
    planError g field parityBase dataLen window address value = .ok (some ⟨location, value⟩) := by
  rw [planError, locateWord?_eq hfield haddress hbase, hlocate]
  exact if_pos hwithin

theorem planError_of_not_within (hfield : field ≤ 16) (haddress : address < 2048)
    (hbase : parityBase < 512)
    (h : ∀ location, g.locate? field address parityBase = some location →
      ¬Correction.Within dataLen window ⟨location, value⟩) :
    planError g field parityBase dataLen window address value = .ok none := by
  rw [planError, locateWord?_eq hfield haddress hbase]
  cases hlocate : g.locate? field address parityBase with
  | none => rfl
  | some location => exact if_neg (h location hlocate)

end Ecc

namespace Sim

open Ecc

/-! ## What the registers say -/

namespace Engine

/-- What the status words say about a field, counted from 1. -/
def fieldStatus (engine : Engine) (field : Nat) : FieldStatus :=
  .ofByte (wordByte (engine.register (Register.fieldStatus + 4 * ((field - 1) / 4)))
    ((field - 1) % 4))

/-- The address latched for an error: eleven bits of a half-word. -/
def latchedAddress (engine : Engine) (k : Nat) : Nat :=
  ((engine.register (Register.errorAddress + 4 * (k / 2)) >>> UInt32.ofNat (16 * (k % 2))) &&&
    Bits.errorAddressMask).toNat

/-- The value latched for an error. -/
def latchedValue (engine : Engine) (k : Nat) : UInt8 :=
  wordByte (engine.register (Register.errorValue + 4 * (k / 4))) (k % 4)

/-- The size of the spare area, as its register has it. -/
def spareLen (engine : Engine) : Nat :=
  (engine.register Register.spareSize &&& Bits.spareSizeMask).toNat

/-- Where the error latched at `k` is in a field, if its address means a byte. -/
def errorLocation? (engine : Engine) (g : Geometry) (field k : Nat) : Option Location :=
  g.locate? field (engine.latchedAddress k) (engine.spareLen - g.parityBytes)

/-- The repair of the error latched at `k`. -/
def repairAt (engine : Engine) (g : Geometry) (field k : Nat) : Correction :=
  ⟨(engine.errorLocation? g field k).getD ⟨.data, 0⟩, engine.latchedValue k⟩

/-- Can a field with this many errors be repaired in a buffer of `dataLen` bytes? -/
structure Repairable (engine : Engine) (g : Geometry) (dataLen field count : Nat) : Prop where
  count_le : count ≤ 24
  parityBytes_le : g.parityBytes ≤ engine.spareLen
  inCodeword : ∀ k < count, g.InCodeword (engine.latchedAddress k)
  within : ∀ k < count, ∀ location, engine.errorLocation? g field k = some location →
    location.offset < (match location.place with
      | .data => dataLen
      | .window => engine.spareLen)

instance (engine : Engine) (g : Geometry) (dataLen field count : Nat) :
    Decidable (engine.Repairable g dataLen field count) :=
  decidable_of_iff (count ≤ 24 ∧ g.parityBytes ≤ engine.spareLen ∧
      (∀ k < count, g.InCodeword (engine.latchedAddress k)) ∧
      ∀ k < count, ∀ location ∈ engine.errorLocation? g field k,
        location.offset < (match location.place with
          | .data => dataLen
          | .window => engine.spareLen))
    ⟨fun ⟨hcount, hparity, hin, hwithin⟩ => ⟨hcount, hparity, hin, hwithin⟩,
      fun h => ⟨h.count_le, h.parityBytes_le, h.inCodeword, h.within⟩⟩

/-- Is nothing to be done about a field with this status? -/
def Hopeless (engine : Engine) (g : Geometry) (dataLen field : Nat) : FieldStatus → Prop
  | .clean => False
  | .correctable count => ¬engine.Repairable g dataLen field count
  | .uncorrectable => True

instance (engine : Engine) (g : Geometry) (dataLen field : Nat) :
    DecidablePred (engine.Hopeless g dataLen field)
  | .clean => isFalse id
  | .correctable _ => inferInstanceAs (Decidable (¬_))
  | .uncorrectable => isTrue trivial

/-- A field of the page that is reported and cannot be repaired. -/
def Lost (engine : Engine) (g : Geometry) (dataLen field : Nat) : Prop :=
  1 ≤ field ∧ field ≤ g.fieldCount ∧
    engine.Hopeless g dataLen field (engine.fieldStatus field)

instance (engine : Engine) (g : Geometry) (dataLen field : Nat) :
    Decidable (engine.Lost g dataLen field) :=
  inferInstanceAs (Decidable (_ ∧ _ ∧ _))

/-- The report of a field with this many errors. -/
def reportOf (engine : Engine) (g : Geometry) (field count : Nat) : FieldReport :=
  ⟨field, count, (List.range count).map (engine.repairAt g field)⟩

/-- One report for each correctable field, in order. -/
def reportsOf (engine : Engine) (g : Geometry) : List FieldReport :=
  (List.range g.fieldCount).filterMap fun index =>
    match engine.fieldStatus (index + 1) with
    | .correctable count => some (engine.reportOf g (index + 1) count)
    | _ => none

/-- What there is to report about a field, counted from 0. -/
def reportedAt (engine : Engine) (index : Nat) : Option (Nat × FieldStatus) :=
  match engine.fieldStatus (index + 1) with
  | .clean => none
  | status => some (index + 1, status)

/-- The fields of the page that are not clean, in order. -/
def reported (engine : Engine) (g : Geometry) : List (Nat × FieldStatus) :=
  (List.range g.fieldCount).filterMap engine.reportedAt

variable {engine : Engine} {g : Geometry} {dataLen field count : Nat}

theorem latchedAddress_lt (engine : Engine) (k : Nat) : engine.latchedAddress k < 2048 :=
  toNat_and_errorAddressMask_lt _

theorem parityBase_lt (engine : Engine) (g : Geometry) :
    engine.spareLen - g.parityBytes < 512 :=
  sub_lt_of_spareSizeMask _ _

/-- A register of error addresses holds two of them. -/
theorem addressPair_register (engine : Engine) (i : Nat) :
    addressPair (engine.register (Register.errorAddress + 4 * i)) =
      [engine.latchedAddress (2 * i), engine.latchedAddress (2 * i + 1)] := by
  have hodd : (2 * i + 1) / 2 = i := by omega
  simp [addressPair, latchedAddress, hodd]

/-- A register of error values holds four of them. -/
theorem wordBytes_register (engine : Engine) (i : Nat) :
    wordBytes (engine.register (Register.errorValue + 4 * i)) =
      [engine.latchedValue (4 * i), engine.latchedValue (4 * i + 1),
        engine.latchedValue (4 * i + 2), engine.latchedValue (4 * i + 3)] := by
  have hdiv (k : Nat) (hk : k < 4) : (4 * i + k) / 4 = i := by omega
  simp [wordBytes, latchedValue, hdiv]

/-- The errors of a repairable field are repaired where their addresses point. -/
theorem Repairable.planned (h : engine.Repairable g dataLen field count) (hfield : 1 ≤ field)
    {k : Nat} (hk : k < count) :
    engine.errorLocation? g field k = some (engine.repairAt g field k).location ∧
      (engine.repairAt g field k).Within dataLen engine.spareLen := by
  obtain ⟨index, rfl⟩ := Nat.exists_eq_add_of_le' hfield
  obtain ⟨location, hlocation⟩ := Option.isSome_iff_exists.1
    ((g.isSome_locate?_iff index _ (engine.spareLen - g.parityBytes)).2 (h.inCodeword k hk))
  have hlocate : engine.errorLocation? g (index + 1) k = some location := hlocation
  have hrepair : engine.repairAt g (index + 1) k = ⟨location, engine.latchedValue k⟩ := by
    rw [repairAt, hlocate, Option.getD_some]
  rw [hrepair]
  exact ⟨hlocate, h.within k hk location hlocate⟩

/-- A field with room for its parity that cannot be repaired has a first error that nothing can be
done about. -/
theorem exists_first_error (h : ¬engine.Repairable g dataLen field count) (hfield : 1 ≤ field)
    (hcount : count ≤ 24) (hparity : g.parityBytes ≤ engine.spareLen) :
    ∃ k < count, (∀ location, engine.errorLocation? g field k = some location →
        ¬Correction.Within dataLen engine.spareLen ⟨location, engine.latchedValue k⟩) ∧
      engine.Repairable g dataLen field k := by
  obtain ⟨index, rfl⟩ := Nat.exists_eq_add_of_le' hfield
  -- The longest row of errors that can be repaired ends before the first that cannot.
  obtain ⟨n, hn, hbefore⟩ := exists_first (p := fun n => ¬engine.Repairable g dataLen (index + 1) n)
    ⟨count, h⟩
  have hle : n ≤ count := Nat.le_of_not_lt fun hlt => hbefore count hlt h
  cases n with
  | zero => exact absurd ⟨Nat.zero_le _, hparity, by simp, by simp⟩ hn
  | succ k =>
    have hrow : engine.Repairable g dataLen (index + 1) k :=
      not_not.1 (hbefore k (Nat.lt_succ_self k))
    refine ⟨k, hle, fun location hlocation hwithin => hn ?_, hrow⟩
    have hsome : (engine.errorLocation? g (index + 1) k).isSome := by rw [hlocation]; rfl
    refine ⟨Nat.le_trans hle hcount, hparity, fun j hj => ?_, fun j hj => ?_⟩
    · rcases Nat.lt_succ_iff_lt_or_eq.1 hj with hlt | rfl
      · exact hrow.inCodeword j hlt
      · exact (g.isSome_locate?_iff index _ _).1 hsome
    · rcases Nat.lt_succ_iff_lt_or_eq.1 hj with hlt | rfl
      · exact hrow.within j hlt
      · intro other hother
        rw [hlocation] at hother
        cases hother
        exact hwithin

/-! ## Status words -/

/-- A status word speaks for the four fields of its turn, as far as the page has them. -/
theorem reportedFields_eq (engine : Engine) (g : Geometry) (i : Nat) :
    reportedFields g i (engine.register (Register.fieldStatus + 4 * i)) =
      [4 * i, 4 * i + 1, 4 * i + 2, 4 * i + 3].filterMap fun index =>
        if index < g.fieldCount then engine.reportedAt index else none := by
  generalize hword : engine.register (Register.fieldStatus + 4 * i) = word
  have hbytes : (wordBytes word).zipIdx (4 * i + 1) = [4 * i, 4 * i + 1, 4 * i + 2, 4 * i + 3].map
      fun index => (wordByte word (index % 4), index + 1) := by
    simp [wordBytes]
  rw [reportedFields, hbytes, List.filterMap_map]
  refine List.filterMap_congr fun index hindex => ?_
  have hdiv : index / 4 = i := by
    simp only [List.mem_cons, List.not_mem_nil, or_false] at hindex
    omega
  rw [reportedAt, fieldStatus, Nat.add_sub_cancel, hdiv, hword]
  show (match FieldStatus.ofByte (wordByte word (index % 4)) with
    | .clean => none
    | status => if index + 1 ≤ g.fieldCount then some (index + 1, status) else none) = _
  by_cases hlt : index < g.fieldCount
  · simp only [Nat.succ_le_iff, hlt, if_true]
  · simp only [Nat.succ_le_iff, hlt, if_false]
    split <;> rfl

/-- The status words together report the fields of the page. -/
theorem flatMap_reportedFields (engine : Engine) (g : Geometry) :
    ((List.range (min ((g.fieldCount + 3) / 4) Register.fieldStatusWords)).flatMap fun i =>
        reportedFields g i (engine.register (Register.fieldStatus + 4 * i))) =
      engine.reported g := by
  have hcount := g.fieldCount_le
  have hwords : Register.fieldStatusWords = 4 := rfl
  -- Four indices for each word are all of them, and some behind the last field.
  have hsplit : 4 * min ((g.fieldCount + 3) / 4) Register.fieldStatusWords =
      g.fieldCount + (4 * min ((g.fieldCount + 3) / 4) Register.fieldStatusWords -
        g.fieldCount) := by omega
  have hfour (n : Nat) : ((List.range n).flatMap fun i => [4 * i, 4 * i + 1, 4 * i + 2, 4 * i + 3]) =
      List.range (4 * n) := by
    rw [← List.map_id (List.range (4 * n))]
    exact flatMap_four id n
  simp only [reportedFields_eq]
  rw [← List.filterMap_flatMap, hfour, hsplit, List.range_add, List.filterMap_append]
  have hpage : (List.range g.fieldCount).filterMap (fun index =>
      if index < g.fieldCount then engine.reportedAt index else none) = engine.reported g :=
    List.filterMap_congr fun index hindex => if_pos (List.mem_range.1 hindex)
  rw [hpage, List.filterMap_eq_nil_iff.2, List.append_nil]
  intro index hindex
  obtain ⟨k, -, rfl⟩ := List.mem_map.1 hindex
  exact if_neg (by omega)

/-! ## The reported fields -/

theorem reportedAt_eq_some {index : Nat} {entry : Nat × FieldStatus}
    (h : engine.reportedAt index = some entry) :
    entry = (index + 1, engine.fieldStatus (index + 1)) ∧
      engine.fieldStatus (index + 1) ≠ .clean := by
  unfold reportedAt at h
  split at h
  · cases h
  · next hclean =>
    cases h
    exact ⟨rfl, hclean⟩

/-- Fields are numbered from one. -/
theorem pos_of_mem_reportedFields {g : Geometry} {i : Nat} {entry : Nat × FieldStatus}
    (h : entry ∈ reportedFields g i (engine.register (Register.fieldStatus + 4 * i))) :
    1 ≤ entry.1 := by
  rw [reportedFields_eq] at h
  obtain ⟨index, -, hreported⟩ := List.mem_filterMap.1 h
  split at hreported
  · obtain ⟨rfl, -⟩ := reportedAt_eq_some hreported
    exact Nat.succ_le_succ (Nat.zero_le _)
  · cases hreported

theorem reportedAt_of_ne_clean {index : Nat} (h : engine.fieldStatus (index + 1) ≠ .clean) :
    engine.reportedAt index = some (index + 1, engine.fieldStatus (index + 1)) := by
  unfold reportedAt
  split
  · contradiction
  · rfl

theorem mem_reported {entry : Nat × FieldStatus} (h : entry ∈ engine.reported g) :
    1 ≤ entry.1 ∧ entry.1 ≤ g.fieldCount ∧ entry.2 = engine.fieldStatus entry.1 ∧
      entry.2 ≠ .clean := by
  obtain ⟨index, hindex, hentry⟩ := List.mem_filterMap.1 h
  obtain ⟨rfl, hclean⟩ := reportedAt_eq_some hentry
  exact ⟨Nat.succ_le_succ (Nat.zero_le _), List.mem_range.1 hindex, rfl, hclean⟩

/-- Before a field that is reported, only lower ones are. -/
theorem reported_eq_append (engine : Engine) (g : Geometry) {index : Nat}
    (hindex : index < g.fieldCount) (hclean : engine.fieldStatus (index + 1) ≠ .clean) :
    ∃ before after, engine.reported g =
        before ++ (index + 1, engine.fieldStatus (index + 1)) :: after ∧
      ∀ entry ∈ before, entry ∈ engine.reported g ∧ entry.1 < index + 1 := by
  have hreported : engine.reported g = (List.range index).filterMap engine.reportedAt ++
      (index + 1, engine.fieldStatus (index + 1)) ::
        (List.range' (index + 1) (g.fieldCount - (index + 1))).filterMap engine.reportedAt := by
    rw [reported, range_eq_append_cons hindex, List.filterMap_append,
      List.filterMap_cons_some (reportedAt_of_ne_clean hclean)]
  refine ⟨_, _, hreported, fun entry hentry => ⟨?_, ?_⟩⟩
  · rw [hreported]
    exact List.mem_append_left _ hentry
  · obtain ⟨other, hother, hentry⟩ := List.mem_filterMap.1 hentry
    obtain ⟨rfl, -⟩ := reportedAt_eq_some hentry
    exact Nat.succ_lt_succ (List.mem_range.1 hother)

end Engine

namespace Device

variable {device : Device} {g : Geometry} {dataLen field count : Nat}

/-! ## Planning a field -/

/-- The errors of a field are read back from the registers. -/
theorem run_readSyndrome (device : Device) (hcount : count ≤ 24) :
    ∃ syndrome, (readSyndrome count).run device = .ok (syndrome, device) ∧ ∀ k < count,
      syndrome.addresses[k]? = some (device.engine.latchedAddress k) ∧
        syndrome.values[k]? = some (device.engine.latchedValue k) := by
  have haddressWords : Register.errorAddressWords = 12 := rfl
  have hvalueWords : Register.errorValueWords = 6 := rfl
  obtain ⟨values, hvalues, hvalue⟩ := run_readLatches device device.engine.latchedValue
    wordBytes 0 Register.errorValue 4
    (fun i hi => isReadable_row (by decide) (by decide)
      (Nat.lt_of_lt_of_le hi (Nat.min_le_right ..)))
    device.engine.wordBytes_register (mul_valueWords_le count)
  obtain ⟨addresses, haddresses, haddress⟩ := run_readLatches device device.engine.latchedAddress
    addressPair 0 Register.errorAddress 2
    (fun i hi => isReadable_row (by decide) (by decide)
      (Nat.lt_of_lt_of_le hi (Nat.min_le_right ..)))
    device.engine.addressPair_register (mul_addressWords_le count)
  -- As many registers are read as `count` errors take up.
  exact ⟨⟨addresses, values⟩, run_step hvalues (run_step haddresses rfl), fun k hk =>
    ⟨haddress k (by omega), hvalue k (by omega)⟩⟩

theorem run_spareLen (device : Device) : ∃ word,
    (Bus.read32 Register.spareSize).run device = .ok (word, device) ∧
      (word &&& Bits.spareSizeMask).toNat = device.engine.spareLen :=
  ⟨_, run_read32 device (by decide), rfl⟩

/-- The repair of an error that can be repaired is planned. -/
theorem planError_of_planned (device : Device) {k : Nat} (hle : field ≤ 16)
    (h : device.engine.errorLocation? g field k =
        some (device.engine.repairAt g field k).location ∧
      (device.engine.repairAt g field k).Within dataLen device.engine.spareLen) :
    planError g field (device.engine.spareLen - g.parityBytes) dataLen device.engine.spareLen
      (device.engine.latchedAddress k) (device.engine.latchedValue k) =
        .ok (some (device.engine.repairAt g field k)) :=
  planError_of_within hle (device.engine.latchedAddress_lt k) (device.engine.parityBase_lt g) h.1
    h.2

/-- An error that is latched is looked up and planned. -/
theorem run_planned_error {syndrome : Syndrome} {k : Nat} {outcome : Except LostField Correction}
    (hlatched : syndrome.addresses[k]? = some (device.engine.latchedAddress k) ∧
      syndrome.values[k]? = some (device.engine.latchedValue k))
    {planned : Option Correction}
    (hplanned : planError g field (device.engine.spareLen - g.parityBytes) dataLen
      device.engine.spareLen (device.engine.latchedAddress k) (device.engine.latchedValue k) =
        .ok planned)
    (houtcome : outcome = planned.elim (.error ⟨field⟩) .ok) :
    (do
      let address ← Buffer.get syndrome.addresses k
      let value ← Buffer.get syndrome.values k
      match ← planError g field (device.engine.spareLen - g.parityBytes) dataLen
          device.engine.spareLen address value with
      | some correction => return correction
      | none => throw (⟨field⟩ : LostField) : Attempt LostField Device Correction).run.run device =
      .ok (outcome, device) := by
  refine run_attempt_step (run_lift (Buffer.get_eq_ok hlatched.1))
    (run_attempt_step (run_lift (Buffer.get_eq_ok hlatched.2))
      (run_attempt_step (run_lift hplanned) ?_))
  subst houtcome
  cases planned <;> rfl

theorem run_planField_of_repairable (hfield : 1 ≤ field) (hle : field ≤ 16)
    (h : device.engine.Repairable g dataLen field count) :
    (planField g dataLen field count).run.run device =
      .ok (.ok (device.engine.reportOf g field count), device) := by
  have hmax : maxErrors = 24 := rfl
  have hcount := h.count_le
  obtain ⟨syndrome, hsyndrome, herrors⟩ := run_readSyndrome device hcount
  obtain ⟨word, hword, hsize⟩ := run_spareLen device
  unfold planField
  simp only [show ¬count > maxErrors by omega, if_false]
  refine run_attempt_step (run_perform hsyndrome) (run_attempt_step (run_perform hword) ?_)
  simp only [hsize, Nat.not_lt.2 h.parityBytes_le, if_false]
  refine run_attempt_step (run_attempt_mapM (f := device.engine.repairAt g field) ?_) rfl
  intro k hk
  have hk := List.mem_range.1 hk
  exact run_planned_error (herrors k hk) (device.planError_of_planned hle (h.planned hfield hk)) rfl

theorem run_planField_of_not_repairable (hfield : 1 ≤ field) (hle : field ≤ 16)
    (h : ¬device.engine.Repairable g dataLen field count) :
    (planField g dataLen field count).run.run device = .ok (.error ⟨field⟩, device) := by
  have hmax : maxErrors = 24 := rfl
  unfold planField
  by_cases hcount : count > maxErrors
  · simp only [hcount, if_true]
    rfl
  · obtain ⟨syndrome, hsyndrome, herrors⟩ := run_readSyndrome device (Nat.le_of_not_gt hcount)
    obtain ⟨word, hword, hsize⟩ := run_spareLen device
    simp only [hcount, if_false]
    refine run_attempt_step (run_perform hsyndrome) (run_attempt_step (run_perform hword) ?_)
    by_cases hparity : device.engine.spareLen < g.parityBytes
    · simp only [hsize, hparity, if_true]
      rfl
    · simp only [hsize, hparity, if_false]
      obtain ⟨k, hk, hbad, hbefore⟩ := Engine.exists_first_error h hfield (by omega)
        (Nat.le_of_not_lt hparity)
      rw [range_eq_append_cons hk]
      -- The errors before the first bad one are planned, and it ends the field.
      refine run_attempt_bind_error (run_attempt_mapM_error
        (f := device.engine.repairAt g field) ?_ ?_)
      · intro j hj
        have hj := List.mem_range.1 hj
        exact run_planned_error (herrors j (Nat.lt_trans hj hk))
          (device.planError_of_planned hle (hbefore.planned hfield hj)) rfl
      · exact run_planned_error (herrors k hk) (planError_of_not_within hle
          (device.engine.latchedAddress_lt k) (device.engine.parityBase_lt g) hbad) rfl

/-! ## Planning a page -/

/-- What comes of a reported field. -/
def judged (device : Device) (g : Geometry) (dataLen : Nat)
    (entry : Nat × FieldStatus) : Except LostField FieldReport :=
  match entry.2 with
  | .correctable count =>
    if device.engine.Repairable g dataLen entry.1 count then
      .ok (device.engine.reportOf g entry.1 count)
    else .error ⟨entry.1⟩
  | _ => .error ⟨entry.1⟩

/-- A field with errors is judged as its status says. -/
theorem run_planField_eq (hfield : 1 ≤ field) (hle : field ≤ 16) :
    (planField g dataLen field count).run.run device =
      .ok (device.judged g dataLen (field, .correctable count), device) := by
  rw [judged]
  by_cases hrepairable : device.engine.Repairable g dataLen field count
  · rw [run_planField_of_repairable hfield hle hrepairable]
    simp only [hrepairable, if_true]
  · rw [run_planField_of_not_repairable hfield hle hrepairable]
    simp only [hrepairable, if_false]

theorem run_planWord_eq (device : Device) (g : Geometry) (dataLen : Nat) {i : Nat}
    (hi : i < Register.fieldStatusWords) :
    (planWord g dataLen i).run.run device =
      .ok ((reportedFields g i (device.engine.register (Register.fieldStatus + 4 * i))).mapM
        (device.judged g dataLen), device) := by
  unfold planWord
  refine run_attempt_step (run_perform (run_read32 device
    (isReadable_row (by decide) (by decide) hi))) (run_attempt_mapM_eq ?_)
  rintro ⟨field, status⟩ hentry
  have hle := Nat.le_trans (le_of_mem_reportedFields hentry) g.fieldCount_le
  cases status with
  | clean | uncorrectable => rfl
  | correctable count => exact run_planField_eq (Engine.pos_of_mem_reportedFields hentry) hle

/-- The plan is worked out field by field, and the device stays as it is. -/
theorem run_plan_eq (device : Device) (g : Geometry) (dataLen : Nat) :
    (plan g dataLen).run.run device =
      .ok ((device.engine.reported g).mapM (device.judged g dataLen), device) := by
  have hrows : ((List.range (min ((g.fieldCount + 3) / 4) Register.fieldStatusWords)).mapM
      (planWord (β := Device) g dataLen)).run.run device = .ok (_, device) :=
    run_attempt_mapM_eq fun i hi => run_planWord_eq device g dataLen
      (Nat.lt_of_lt_of_le (List.mem_range.1 hi) (Nat.min_le_right ..))
  rw [← device.engine.flatMap_reportedFields g, ← mapM_mapM_flatten]
  unfold plan
  revert hrows
  cases (List.range (min ((g.fieldCount + 3) / 4) Register.fieldStatusWords)).mapM fun i =>
      (reportedFields g i (device.engine.register (Register.fieldStatus + 4 * i))).mapM
        (device.judged g dataLen) with
  | error e => exact run_attempt_bind_error
  | ok rows => exact fun hrows => run_attempt_step hrows rfl

theorem judged_of_lost (h : device.engine.Lost g dataLen field) :
    device.engine.fieldStatus field ≠ .clean ∧
      device.judged g dataLen (field, device.engine.fieldStatus field) = .error ⟨field⟩ := by
  obtain ⟨-, -, hlost⟩ := h
  rw [judged]
  revert hlost
  cases device.engine.fieldStatus field with
  | clean => exact False.elim
  | correctable count => exact fun hlost => ⟨FieldStatus.noConfusion, if_neg hlost⟩
  | uncorrectable => exact fun _ => ⟨FieldStatus.noConfusion, rfl⟩

/-- The report of a field, whatever its status. -/
def reportFor (device : Device) (g : Geometry) (entry : Nat × FieldStatus) : FieldReport :=
  match entry.2 with
  | .correctable count => device.engine.reportOf g entry.1 count
  | _ => ⟨entry.1, 0, []⟩

theorem judged_of_not_lost {entry : Nat × FieldStatus} (hentry : entry ∈ device.engine.reported g)
    (h : ¬device.engine.Lost g dataLen entry.1) :
    device.judged g dataLen entry = .ok (device.reportFor g entry) ∧
      ∃ count, entry.2 = .correctable count ∧
        device.engine.Repairable g dataLen entry.1 count := by
  obtain ⟨field, status⟩ := entry
  obtain ⟨hpos, hle, hstatus, hclean⟩ := Engine.mem_reported hentry
  simp only at hpos hle hstatus hclean h
  rw [Engine.Lost, ← hstatus] at h
  rw [judged, reportFor]
  cases status with
  | clean => exact absurd rfl hclean
  | correctable count =>
    have hrepairable : device.engine.Repairable g dataLen field count :=
      not_not.1 fun hnot => h ⟨hpos, hle, hnot⟩
    exact ⟨if_pos hrepairable, count, rfl, hrepairable⟩
  | uncorrectable => exact absurd ⟨hpos, hle, trivial⟩ h

/-- The lowest field that is lost ends the plan. -/
theorem run_plan_of_lost (h : device.engine.Lost g dataLen field)
    (hlowest : ∀ other < field, ¬device.engine.Lost g dataLen other) :
    (plan g dataLen).run.run device = .ok (.error ⟨field⟩, device) := by
  obtain ⟨hclean, hjudged⟩ := judged_of_lost h
  obtain ⟨index, rfl⟩ := Nat.exists_eq_add_of_le' h.1
  obtain ⟨before, after, hreported, hbefore⟩ :=
    device.engine.reported_eq_append g h.2.1 hclean
  rw [run_plan_eq, hreported, mapM_eq_error (fun entry hentry => (judged_of_not_lost
    (hbefore entry hentry).1 (hlowest _ (hbefore entry hentry).2)).1) hjudged]

/-- If no field is lost, all are planned. -/
theorem run_plan_of_not_lost (h : ∀ field, ¬device.engine.Lost g dataLen field) :
    (plan g dataLen).run.run device = .ok (.ok (device.engine.reportsOf g), device) := by
  have hreports : (device.engine.reported g).map (device.reportFor g) =
      device.engine.reportsOf g := by
    rw [Engine.reported, List.map_filterMap]
    refine List.filterMap_congr fun index hindex => ?_
    have hlost := h (index + 1)
    rw [Engine.reportedAt]
    cases hstatus : device.engine.fieldStatus (index + 1) with
    | clean | correctable count => rfl
    | uncorrectable =>
      rw [Engine.Lost, hstatus] at hlost
      exact absurd ⟨Nat.succ_le_succ (Nat.zero_le _), List.mem_range.1 hindex, trivial⟩ hlost
  rw [run_plan_eq, mapM_eq_ok fun entry hentry => (judged_of_not_lost hentry (h entry.1)).1,
    hreports]

end Device

end Sim

end NandFlash
