import NandFlash.Ecc.Correction
import NandFlash.Proofs.AnyBus.Access
import NandFlash.Proofs.Codeword

/-!
# Error correction on any bus

Counts and addresses come from the device. Before anything is repaired, every count is held
against what the engine can latch and every offset against the buffer it falls in, so that no
answer of the device leads outside the page buffer.
-/

namespace NandFlash

/-- A report as it may be carried out on a page buffer of `dataLen` bytes: one correction for
each error, and those in the buffer within it. -/
structure FieldReport.Sound (dataLen : Nat) (report : FieldReport) : Prop where
  errorCount_le : report.errorCount ≤ Ecc.maxErrors
  length_eq : report.corrections.length = report.errorCount
  inBounds : ∀ c ∈ report.corrections, c.location.place = .data → c.location.offset < dataLen

namespace Ecc

/-! ## Reading the registers -/

theorem toNat_and_errorAddressMask_lt (word : UInt32) :
    (word &&& Bits.errorAddressMask).toNat < 2048 := by
  have hle : (word &&& Bits.errorAddressMask).toNat ≤ 2047 := by
    rw [UInt32.toNat_and]
    exact Nat.and_le_right
  omega

/-- A latched address has eleven bits. -/
theorem lt_of_mem_addressPair {word : UInt32} {address : Nat} (h : address ∈ addressPair word) :
    address < 2048 := by
  simp only [addressPair, List.mem_cons, List.not_mem_nil, or_false] at h
  rcases h with rfl | rfl <;> exact toNat_and_errorAddressMask_lt _

/-- Whatever size the device tells, the parity starts within nine bits. -/
theorem sub_lt_of_spareSizeMask (word : UInt32) (parityBytes : Nat) :
    (word &&& Bits.spareSizeMask).toNat - parityBytes < 512 := by
  have hle : (word &&& Bits.spareSizeMask).toNat ≤ 511 := by
    rw [UInt32.toNat_and]
    exact Nat.and_le_right
  omega

/-- Something that holds of every entry of a buffer of latches. -/
def Latched {α : Type} (P : α → Prop) (buffer : Vector α maxErrors) : Prop :=
  ∀ (i : Nat) (a : α), buffer[i]? = some a → P a

namespace Latched

variable {α : Type} {P : α → Prop}

theorem replicate {blank : α} (h : P blank) : Latched P (Vector.replicate maxErrors blank) := by
  intro i a ha
  obtain ⟨_, rfl⟩ := Vector.getElem?_eq_some_iff.1 ha
  rwa [Vector.getElem_replicate]

/-- Entries of which it holds are stored, if they fit. -/
theorem put {buffer : Vector α maxErrors} {start : Nat} {entries : List α} (h : Latched P buffer)
    (hfit : start + entries.length ≤ maxErrors) (hentries : ∀ a ∈ entries, P a) :
    ∃ filled, Buffer.put buffer start entries = .ok filled ∧ Latched P filled := by
  obtain ⟨filled, hput, hfilled⟩ := Buffer.put_eq_ok buffer start hfit
  refine ⟨filled, hput, fun i a ha => ?_⟩
  rw [hfilled] at ha
  split at ha
  · exact hentries a (List.mem_of_getElem? ha)
  · exact h i a ha

theorem exists_get {buffer : Vector α maxErrors} (h : Latched P buffer) {i : Nat}
    (hi : i < maxErrors) : ∃ a, Buffer.get buffer i = .ok a ∧ P a :=
  have hentry : buffer[i]? = some buffer[i] := Vector.getElem?_eq_getElem hi
  ⟨buffer[i], Buffer.get_eq_ok hentry, h i _ hentry⟩

end Latched

/-- A register's entries fit behind those of the registers before it. -/
theorem mul_length_add_length_le {α : Type} {unpack : UInt32 → List α} {size count i : Nat}
    (hcount : count * size ≤ maxErrors) (hsize : ∀ word, (unpack word).length = size)
    (hi : i < count) (word : UInt32) :
    i * (unpack word).length + (unpack word).length ≤ maxErrors := by
  rw [hsize, ← Nat.succ_mul]
  exact Nat.le_trans (Nat.mul_le_mul_right _ hi) hcount

/-- However many errors are counted, the values that are read fit in a syndrome. -/
theorem mul_valueWords_le (count : Nat) :
    min (count / 4 + 1) Register.errorValueWords * 4 ≤ maxErrors := by
  have hmax : maxErrors = 24 := rfl
  have hwords : Register.errorValueWords = 6 := rfl
  omega

theorem mul_addressWords_le (count : Nat) :
    min (count / 2 + 1) Register.errorAddressWords * 2 ≤ maxErrors := by
  have hmax : maxErrors = 24 := rfl
  have hwords : Register.errorAddressWords = 12 := rfl
  omega

/-- Registers beyond the ports of the chip. -/
theorem not_isChipPort {offset : Nat} (h : Register.data < offset) (i : Nat) :
    ¬Bus.IsChipPort (offset + 4 * i) :=
  fun hport => absurd hport.2 (by omega)

section

variable {β : Type} [Bus β] {clock : β → Nat} {inv : β → Prop}
  (h : Bus.Serves clock inv)

include h

/-- Registers whose words are unpacked to `size` entries each fill a buffer, as long as there are no
more of them than it has room for. -/
theorem keeps_readLatches {α : Type} {P : α → Prop} {unpack : UInt32 → List α} {blank : α}
    {offset size count : Nat} (hoffset : Register.data < offset) (hcount : count * size ≤ maxErrors)
    (hsize : ∀ word, (unpack word).length = size) (hblank : P blank)
    (hunpack : ∀ word, ∀ a ∈ unpack word, P a) :
    Keeps clock count inv (readLatches (β := β) unpack blank offset count) (Latched P) := by
  unfold readLatches
  refine Keeps.le (Keeps.foldlM (k := 1) (fun i hi buffer hbuffer => ?_)
    (Latched.replicate hblank)) (Nat.le_of_eq (by rw [List.length_range, Nat.one_mul]))
  refine ((h.register (not_isChipPort hoffset i)).read32).bind (n := 0) fun word _ => ?_
  have hfit := mul_length_add_length_le hcount hsize (List.mem_range.1 hi) word
  obtain ⟨filled, hput, hfilled⟩ := hbuffer.put hfit (hunpack word)
  exact (Keeps.lift hput).mono (Nat.le_refl _) fun stored hstored => hstored ▸ hfilled

/-- However many errors are counted, a syndrome is read, with addresses of eleven bits. -/
theorem keeps_readSyndrome (count : Nat) :
    Keeps clock 18 inv (readSyndrome (β := β) count) fun syndrome =>
      Latched (· < 2048) syndrome.addresses := by
  have hvalues := mul_valueWords_le count
  have haddresses := mul_addressWords_le count
  have hmax : maxErrors = 24 := rfl
  refine Keeps.le ((keeps_readLatches h (P := Any) (by decide) hvalues (fun _ => rfl) trivial
    fun _ _ _ => trivial).bind fun values _ =>
      (keeps_readLatches h (by decide) haddresses (fun _ => rfl) (by decide)
        fun _ _ => lt_of_mem_addressPair).bind (n := 0) fun addresses hlatched =>
          .pure hlatched) ?_
  omega

end

/-! ## Planning -/

/-- An error with a latched address is planned, or turned down, but never crashes. -/
theorem planError_eq_ok (g : Geometry) {field parityBase address : Nat} (dataLen window : Nat)
    (value : UInt8) (hfield : field ≤ 16) (haddress : address < 2048) (hbase : parityBase < 512) :
    ∃ planned, planError g field parityBase dataLen window address value = .ok planned ∧
      ∀ c, planned = some c → c.location.place = .data → c.location.offset < dataLen := by
  rw [planError, Geometry.locateWord?]
  cases hlocate : g.locate? field address parityBase with
  | none => exact ⟨none, rfl, by rintro c ⟨⟩⟩
  | some location =>
    obtain ⟨place, offset⟩ := location
    have hoffset := Geometry.offset_lt_of_locate? hfield haddress hbase hlocate
    have hword : word64 offset = .ok offset :=
      word64_eq_ok.2 ⟨Nat.lt_trans hoffset (by decide), rfl⟩
    simp only [hword, bind, Except.bind, discard, Functor.discard, Functor.mapConst, Except.map,
      pure, Except.pure, Function.comp, Function.const]
    -- An error in the data counts if it lies in what has been read, one in the window if it lies in
    -- what is staged; any other is dropped without a crash.
    cases place with
    | data =>
      by_cases hlimit : offset < dataLen
      · simp only [hlimit, if_true]
        refine ⟨_, rfl, ?_⟩
        rintro c ⟨⟩ -
        exact hlimit
      · simp only [hlimit, if_false]
        exact ⟨none, rfl, by rintro c ⟨⟩⟩
    | window =>
      by_cases hlimit : offset < window
      · simp only [hlimit, if_true]
        refine ⟨_, rfl, ?_⟩
        rintro c ⟨⟩ ⟨⟩
      · simp only [hlimit, if_false]
        exact ⟨none, rfl, by rintro c ⟨⟩⟩

section

variable {β : Type} [Bus β] {clock : β → Nat} {inv : β → Prop}
  (h : Bus.Serves clock inv)

include h

theorem ends_planField {g : Geometry} {dataLen field errorCount : Nat} (hfield : field ≤ 16) :
    Ends clock 19 inv (planField (β := β) g dataLen field errorCount)
      (FieldReport.Sound dataLen) := by
  unfold planField
  by_cases hcount : errorCount > maxErrors
  · simp only [hcount, if_true]
    exact Ends.throw
  · simp only [hcount, if_false]
    have hcount := Nat.le_of_not_gt hcount
    refine (Ends.perform (keeps_readSyndrome h errorCount)).bind (n := 1)
      fun syndrome hsyndrome => ?_
    refine (Ends.perform (h.register (by decide)).read32).bind (n := 0) fun word _ => ?_
    by_cases hwindow : (word &&& Bits.spareSizeMask).toNat < g.parityBytes
    · simp only [hwindow, if_true]
      exact Ends.throw
    · simp only [hwindow, if_false]
      have hbase := sub_lt_of_spareSizeMask word g.parityBytes
      refine Ends.le (Ends.bind (k := 0 * _) (n := 0) (Ends.mapM
        (P := fun c => c.location.place = .data → c.location.offset < dataLen)
        fun i hi => ?_) fun corrections hcorrections => ?_) (by omega)
      · -- The count has been held against the room there is, so that each error has its entry.
        have hi : i < maxErrors := Nat.lt_of_lt_of_le (List.mem_range.1 hi) hcount
        obtain ⟨address, hget, haddress⟩ := hsyndrome.exists_get hi
        refine (Ends.lift hget).bind (k := 0) (n := 0) fun found hfound => ?_
        subst hfound
        refine (Ends.lift (Buffer.get_eq_ok (Vector.getElem?_eq_getElem hi))).bind (k := 0) (n := 0)
          fun value _ => ?_
        obtain ⟨planned, hplanned, hin⟩ := planError_eq_ok g dataLen
          (word &&& Bits.spareSizeMask).toNat value hfield haddress hbase
        refine (Ends.lift hplanned).bind (k := 0) (n := 0) fun found hfound => ?_
        subst hfound
        cases found with
        | none => exact Ends.throw
        | some c => exact Ends.pure (hin c rfl)
      · exact Ends.pure
          ⟨hcount, by rw [hcorrections.length_eq, List.length_range], hcorrections.forall_mem⟩

omit [Bus β] h in
theorem length_reportedFields_le (g : Geometry) (wordIndex : Nat) (word : UInt32) :
    (reportedFields g wordIndex word).length ≤ 4 :=
  List.length_filterMap_le _ _

omit [Bus β] h in
/-- Bytes beyond the last field are not reported. -/
theorem le_of_mem_reportedFields {g : Geometry} {wordIndex : Nat} {word : UInt32}
    {reported : Nat × FieldStatus} (hmem : reported ∈ reportedFields g wordIndex word) :
    reported.1 ≤ g.fieldCount := by
  obtain ⟨⟨byte, field⟩, -, hreported⟩ := List.mem_filterMap.1 hmem
  dsimp only at hreported
  split at hreported
  · cases hreported
  · split at hreported
    · next hle =>
      cases hreported
      exact hle
    · cases hreported

/-- Some sound reports, no more than `count`. -/
structure SoundReports (dataLen count : Nat) (reports : List FieldReport) : Prop where
  length_le : reports.length ≤ count
  sound : ∀ report ∈ reports, report.Sound dataLen

theorem ends_planWord (g : Geometry) (dataLen wordIndex : Nat) :
    Ends clock 77 inv (planWord (β := β) g dataLen wordIndex) (SoundReports dataLen 4) := by
  unfold planWord
  have hword : Keeps clock 1 inv (Bus.read32 (Register.fieldStatus + 4 * wordIndex)) Any :=
    (h.register (not_isChipPort (by decide) _)).read32
  refine (Ends.perform hword).bind (n := 76) fun word _ => ?_
  have hlen := length_reportedFields_le g wordIndex word
  refine Ends.mono (k := 19 * _) (Ends.mapM (P := FieldReport.Sound dataLen)
    fun reported hreported => ?_) (by omega) fun reports hreports =>
      ⟨hreports.length_eq ▸ hlen, hreports.forall_mem⟩
  have hfield := Nat.le_trans (le_of_mem_reportedFields hreported) g.fieldCount_le
  obtain ⟨field, status⟩ := reported
  cases status with
  | correctable errorCount => exact ends_planField h hfield
  | clean => exact Ends.throw
  | uncorrectable => exact Ends.throw

omit [Bus β] h in
theorem SoundReports.flatten {dataLen count : Nat} {lists : List (List FieldReport)}
    (hlists : ∀ reports ∈ lists, SoundReports dataLen count reports) :
    SoundReports dataLen (count * lists.length) lists.flatten := by
  induction lists with
  | nil => exact ⟨Nat.zero_le _, by simp⟩
  | cons reports lists ih =>
    have hfirst := hlists reports List.mem_cons_self
    have hrest := ih fun other hother => hlists other (List.mem_cons_of_mem _ hother)
    refine ⟨?_, fun report hmem => ?_⟩
    · have hle := hfirst.length_le
      have hle' := hrest.length_le
      rw [List.flatten_cons, List.length_append, List.length_cons, Nat.mul_succ]
      omega
    · rw [List.flatten_cons, List.mem_append] at hmem
      rcases hmem with hmem | hmem
      · exact hfirst.sound report hmem
      · exact hrest.sound report hmem

theorem ends_plan (g : Geometry) (dataLen : Nat) :
    Ends clock 308 inv (plan (β := β) g dataLen) (SoundReports dataLen 16) := by
  unfold plan
  have hwords : min ((g.fieldCount + 3) / 4) Register.fieldStatusWords ≤ 4 := Nat.min_le_right _ _
  refine Ends.le (Ends.bind (n := 0) (Ends.mapM fun i _ =>
    ends_planWord h g dataLen i) fun lists hlists => Ends.pure ?_) ?_
  · have hflat := SoundReports.flatten hlists.forall_mem
    refine ⟨Nat.le_trans hflat.length_le ?_, hflat.sound⟩
    rw [hlists.length_eq, List.length_range]
    omega
  · rw [List.length_range]
    omega

/-! ## Repairing -/

omit h in
/-- A repair takes no more of the device than that bytes of the window can be read and written. -/
theorem keeps_applyCorrection {data : Bytes} {c : Correction}
    (hread : ∀ i, Keeps clock 1 inv (Bus.read8 (Register.window + i)) Any)
    (hwrite : ∀ i value, Keeps clock 1 inv (Bus.write8 (Register.window + i) value) Any)
    (hc : c.location.place = .data → c.location.offset < data.size) :
    Keeps clock 2 inv (applyCorrection (β := β) data c) fun fixed => fixed.size = data.size := by
  unfold applyCorrection
  cases hplace : c.location.place with
  | data =>
    have hxor : xorAt data c.location.offset c.value =
        .ok (data.modify c.location.offset fun byte => byte ^^^ c.value) := if_pos (hc hplace)
    refine (Keeps.lift hxor).mono (Nat.zero_le _) fun fixed hfixed => ?_
    rw [hfixed, Array.size_modify]
  | window =>
    refine (hread _).bind (n := 1) fun byte _ => ?_
    exact (hwrite _ _).bind (n := 0) fun _ _ => .pure rfl

omit h in
/-- Repairs one after the other, each within the buffer as far as it goes there. -/
theorem keeps_corrections {data : Bytes} {corrections : List Correction}
    (hread : ∀ i, Keeps clock 1 inv (Bus.read8 (Register.window + i)) Any)
    (hwrite : ∀ i value, Keeps clock 1 inv (Bus.write8 (Register.window + i) value) Any)
    (hin : ∀ c ∈ corrections, c.location.place = .data → c.location.offset < data.size) :
    Keeps clock (2 * corrections.length) inv (corrections.foldlM (applyCorrection (β := β)) data)
      fun fixed => fixed.size = data.size := by
  refine Keeps.foldlM (fun c hc fixed hfixed => ?_) rfl
  refine (keeps_applyCorrection hread hwrite fun hplace => ?_).mono (Nat.le_refl _)
    fun fixed' hfixed' => hfixed'.trans hfixed
  rw [hfixed]
  exact hin c hc hplace

omit [Bus β] h in
theorem SoundReports.length_corrections_le {dataLen count : Nat} {reports : List FieldReport}
    (hreports : SoundReports dataLen count reports) :
    (reports.flatMap (·.corrections)).length ≤ maxErrors * count := by
  have hsum : ∀ reports : List FieldReport, (∀ report ∈ reports, report.Sound dataLen) →
      (reports.flatMap (·.corrections)).length ≤ maxErrors * reports.length := by
    intro reports
    induction reports with
    | nil => exact fun _ => Nat.le_refl _
    | cons report reports ih =>
      intro hsound
      have hfirst := hsound report List.mem_cons_self
      have hrest := ih fun other hother => hsound other (List.mem_cons_of_mem _ hother)
      have hle := hfirst.errorCount_le
      rw [List.flatMap_cons, List.length_append, List.length_cons, Nat.mul_succ,
        hfirst.length_eq]
      omega
  exact Nat.le_trans (hsum reports hreports.sound) (Nat.mul_le_mul_left _ hreports.length_le)

/-- What correction gives back: sound reports, and a buffer as long as before. -/
structure Corrected (data : Bytes) (result : List FieldReport × Bytes) : Prop where
  sound : ∀ report ∈ result.1, report.Sound data.size
  size_eq : result.2.size = data.size

theorem ends_correct (g : Geometry) (data : Bytes) :
    Ends clock 1076 inv (correct (β := β) g data) (Corrected data) := by
  unfold correct
  refine (ends_plan h g data.size).bind (n := 768) fun reports hreports => ?_
  have hlen : (reports.flatMap (·.corrections)).length ≤ 24 * 16 := hreports.length_corrections_le
  have hloop : Keeps clock (2 * (reports.flatMap (·.corrections)).length) inv
      ((reports.flatMap (·.corrections)).foldlM (applyCorrection (β := β)) data)
      fun fixed => fixed.size = data.size := keeps_corrections h.read8 h.write8 fun c hc => by
    obtain ⟨report, hreport, hc⟩ := List.mem_flatMap.1 hc
    exact (hreports.sound report hreport).inBounds c hc
  refine ((Ends.perform hloop).bind (n := 0) fun fixed hfixed =>
    Ends.pure ⟨hreports.sound, hfixed⟩).le ?_
  omega

end

end Ecc

end NandFlash
