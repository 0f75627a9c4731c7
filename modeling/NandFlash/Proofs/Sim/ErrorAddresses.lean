import Mathlib.Data.Set.Function
import NandFlash.Proofs.Sim.Damage
import NandFlash.Proofs.Sim.Planning

/-!
# Error addresses

The ECC stage walks over a codeword and numbers its bytes, and the driver takes the number back to
a byte; each works out on its own where the regions of the codeword begin. `AddressesAgree` says
that they mean the same byte by the same number: the numbers of the data are those of the page
buffer one to one, those of the parity are the end of the window one to one, and nothing but the
gap between them means no byte. The main statement is that this holds of every geometry with parity
that its spare area has room for.
-/

namespace NandFlash

/-! ## Rows -/

/-- The bytes of a place from `start` up to `stop`, as locations. -/
def Location.span (place : Place) (start stop : Nat) : Set (Option Location) :=
  {location | ∃ offset, start ≤ offset ∧ offset < stop ∧ location = some ⟨place, offset⟩}

/-- Rows of one length, counted from 1, and in each of them `len` columns from `first` on. -/
def rows (count first len : Nat) : Set (Nat × Nat) :=
  {entry | 1 ≤ entry.1 ∧ entry.1 ≤ count ∧ first ≤ entry.2 ∧ entry.2 < first + len}

/-- A byte of a row is told from those of all other rows. -/
theorem row_unique {len i j k l : Nat} (hk : k < len) (hl : l < len)
    (h : len * i + k = len * j + l) : i = j ∧ k = l := by
  have hlen : 0 < len := Nat.lt_of_le_of_lt (Nat.zero_le k) hk
  have hrow : ∀ row column, column < len → (len * row + column) / len = row := by
    intro row column hc
    rw [Nat.mul_add_div hlen, Nat.div_eq_of_lt hc, Nat.add_zero]
  have hi : i = j := by rw [← hrow i k hk, h, hrow j l hl]
  subst hi
  exact ⟨rfl, Nat.add_left_cancel h⟩

/-- Rows that are laid out one after the other fill a span, each byte once. -/
theorem bijOn_rows (locate : Nat × Nat → Option Location) {place : Place}
    {count first len : Nat} (start : Nat)
    (h : ∀ row < count, ∀ k < len,
      locate (row + 1, first + k) = some ⟨place, start + len * row + k⟩) :
    Set.BijOn locate (rows count first len) (Location.span place start (start + len * count)) := by
  -- Every entry is the one of some row and column.
  have hentry : ∀ entry ∈ rows count first len,
      ∃ row < count, ∃ k < len, entry = (row + 1, first + k) := by
    rintro ⟨field, address⟩ ⟨hpos, hle, hfirst, hlast⟩
    simp only at hpos hle hfirst hlast
    refine ⟨field - 1, by omega, address - first, by omega, ?_⟩
    rw [Prod.mk.injEq]
    omega
  refine ⟨?_, ?_, ?_⟩
  · intro entry hmem
    obtain ⟨row, hrow, k, hk, rfl⟩ := hentry entry hmem
    have hend : len * (row + 1) ≤ len * count := Nat.mul_le_mul_left _ hrow
    rw [Nat.mul_succ] at hend
    exact ⟨start + len * row + k, by omega, by omega, h row hrow k hk⟩
  · intro entry hmem other hother heq
    obtain ⟨row, hrow, k, hk, rfl⟩ := hentry entry hmem
    obtain ⟨row', hrow', k', hk', rfl⟩ := hentry other hother
    rw [h row hrow k hk, h row' hrow' k' hk', Option.some.injEq, Location.mk.injEq] at heq
    obtain ⟨rfl, rfl⟩ := row_unique (i := row) (j := row') hk hk' (by omega)
    rfl
  · -- An offset of the span is taken apart by division.
    rintro _ ⟨offset, hstart, hstop, rfl⟩
    have hlt : offset - start < len * count := by omega
    have hlen : 0 < len := Nat.pos_of_ne_zero fun hzero => by
      rw [hzero, Nat.zero_mul] at hlt
      exact Nat.not_lt_zero _ hlt
    have hrow : (offset - start) / len < count := Nat.div_lt_of_lt_mul hlt
    have hk : (offset - start) % len < len := Nat.mod_lt _ hlen
    refine ⟨((offset - start) / len + 1, first + (offset - start) % len),
      ⟨Nat.succ_le_succ (Nat.zero_le _), hrow, by omega, by omega⟩, ?_⟩
    rw [h _ hrow _ hk, Nat.add_assoc, Nat.div_add_mod, Nat.add_sub_cancel' hstart]

/-! ## The regions of a codeword -/

namespace Geometry

variable {g : Geometry} {parityBase : Nat}

theorem locate?_data {index k : Nat} (hk : k < g.fieldLen) :
    g.locate? (index + 1) k parityBase = some ⟨.data, g.fieldLen * index + k⟩ := by
  rw [locate?, if_pos hk, Nat.mul_comm]

theorem locate?_metadata {index k : Nat} (hk : k < metadataLen) :
    g.locate? (index + 1) (g.fieldLen + k) parityBase =
      some ⟨.window, g.parityLen * index + k⟩ := by
  rw [locate?, if_neg (by omega), if_pos (by omega), Nat.add_sub_cancel_left, Nat.add_comm]

theorem locate?_parity {index k : Nat} (hk : k < g.parityLen) :
    g.locate? (index + 1) (g.firstParity + k) parityBase =
      some ⟨.window, parityBase + g.parityLen * index + k⟩ := by
  obtain ⟨hfirst, -⟩ := g.metadata_le_firstParity (Nat.lt_of_le_of_lt (Nat.zero_le k) hk)
  rw [locate?, if_neg (by omega), if_neg (by omega), if_pos ⟨by omega, by omega⟩,
    Nat.add_sub_cancel_left]

theorem firstParity_add_parityLen (g : Geometry) :
    g.firstParity + g.parityLen = g.fieldLen + g.paddingLen :=
  Nat.sub_add_cancel (Nat.le_trans g.parityLen_le_paddingLen (Nat.le_add_left _ _))

theorem parityLen_pos (h : g.eccEnabled) : 0 < g.parityLen := by
  revert h
  rw [eccEnabled, parityLen, codeword]
  cases g.strength <;> decide

/-- No byte is meant by the field 0, by the gap behind the metadata, and behind the parity. -/
theorem locate?_eq_none_iff (h : g.eccEnabled) {field address : Nat} :
    g.locate? field address parityBase = none ↔ field = 0 ∨
      (g.fieldLen + metadataLen ≤ address ∧ address < g.firstParity) ∨
      g.fieldLen + g.paddingLen ≤ address := by
  obtain ⟨hfirst, -⟩ := g.metadata_le_firstParity (parityLen_pos h)
  have hend := g.firstParity_add_parityLen
  have hmetadata : metadataLen = 3 := rfl
  have hparity : g.firstParity = g.fieldLen + g.paddingLen - g.parityLen := rfl
  cases field with
  | zero => exact iff_of_true rfl (.inl rfl)
  | succ index =>
    rw [← Option.not_isSome_iff_eq_none, isSome_locate?_iff, InCodeword]
    omega

/-- The addresses of a codeword have eleven bits. -/
theorem lt_of_inCodeword (h : g.eccEnabled) {address : Nat} (haddress : g.InCodeword address) :
    address < 2048 := by
  obtain ⟨hfirst, hlast⟩ := g.metadata_le_firstParity (parityLen_pos h)
  have hend := g.firstParity_add_parityLen
  have hmetadata : metadataLen = 3 := rfl
  rw [InCodeword] at haddress
  omega

theorem lt_of_isSome_locate? (h : g.eccEnabled) {field address : Nat}
    (hsome : (g.locate? field address parityBase).isSome) : address < 2048 := by
  cases field with
  | zero => cases hsome
  | succ index => exact lt_of_inCodeword h ((g.isSome_locate?_iff index address _).1 hsome)

/-- On the fields of the page no offset leaves its word, if the size of the spare area does not. -/
theorem locateWord?_eq_ok (hbase : parityBase + g.parityBytes < 2 ^ 64) {field : Nat}
    (hfield : field ≤ g.fieldCount) (address : Nat) :
    g.locateWord? field address parityBase = .ok (g.locate? field address parityBase) := by
  have hpage := g.pageBytes_le
  have hparityLen := g.parityLen_le
  cases field with
  | zero => rfl
  | succ index =>
    have hdata := g.succ_mul_fieldLen_le hfield
    have hparity := g.mul_succ_parityLen_le hfield
    have hrow : g.parityLen * index ≤ 45 * 16 :=
      Nat.mul_le_mul hparityLen (Nat.le_trans (Nat.le_of_lt hfield) g.fieldCount_le)
    have hmetadata : metadataLen = 3 := rfl
    rw [Nat.succ_mul] at hdata
    rw [Nat.mul_succ] at hparity
    -- In each region the offset stays below the end of the page or of the spare area.
    have hword : ∀ location, g.locate? (index + 1) address parityBase = some location →
        location.offset < 2 ^ 64 := by
      intro location hlocation
      rw [locate?] at hlocation
      split at hlocation
      · cases hlocation
        show index * g.fieldLen + address < _
        omega
      · split at hlocation
        · cases hlocation
          show address - g.fieldLen + g.parityLen * index < _
          omega
        · split at hlocation
          · cases hlocation
            show parityBase + g.parityLen * index + (address - g.firstParity) < _
            omega
          · cases hlocation
    rw [locateWord?]
    cases hlocate : g.locate? (index + 1) address parityBase with
    | none => rfl
    | some location =>
      simp only [word64_eq_ok.2 ⟨hword location hlocate, rfl⟩]
      rfl

end Geometry

namespace Sim

namespace Engine

variable {engine : Engine} {g : Geometry}

/-! ## The way through the registers -/

/-- A register keeps all of an address of eleven bits. -/
theorem toNat_and_errorAddressMask {address : Nat} (h : address < 2048) :
    (UInt32.ofNat address &&& Bits.errorAddressMask).toNat = address := by
  rw [UInt32.toNat_and, UInt32.toNat_ofNat_of_lt' (Nat.lt_trans h (by decide)),
    show Bits.errorAddressMask.toNat = 2 ^ 11 - 1 from rfl, Nat.and_two_pow_sub_one_eq_mod,
    Nat.mod_eq_of_lt h]

/-- The errors of a report that is shown are read back from the registers, as far as there is room
for them: eleven bits are enough. -/
theorem latchedAddress_of_shows {report : DamageReport} (h : engine.Shows report)
    (hsmall : ∀ error ∈ report.errors, error.1.toNat < 2048) {k : Nat} (hk : k < Ecc.maxErrors)
    (hlen : k < report.errors.length) :
    engine.latchedAddress k = (report.errors[k]).1.toNat := by
  have hmax : Ecc.maxErrors = 24 := rfl
  have hwords : Register.errorAddressWords = 12 := rfl
  have hlatched : ∀ j, (latched (report.errors.take Ecc.maxErrors) j).1.toNat < 2048 := by
    intro j
    rw [latched]
    cases hj : (report.errors.take Ecc.maxErrors)[j]? with
    | none => exact Nat.zero_lt_succ _
    | some error => exact hsmall error (List.mem_of_mem_take (List.mem_of_getElem? hj))
  have hpair := engine.addressPair_register (k / 2)
  rw [h.addressWord_eq _ (by omega)] at hpair
  have hwritten := Ecc.addressPair_or (hlatched (2 * (k / 2))) (hlatched (2 * (k / 2) + 1))
  obtain ⟨heven, hrest⟩ := List.cons.inj (hpair.symm.trans hwritten)
  obtain ⟨hodd, -⟩ := List.cons.inj hrest
  have hself : (latched (report.errors.take Ecc.maxErrors) k).1.toNat =
      (report.errors[k]).1.toNat := by
    rw [latched, List.getElem?_take_of_lt hk, List.getElem?_eq_getElem hlen, Option.getD_some]
  rcases Nat.mod_two_eq_zero_or_one k with hparity | hparity
  · rw [← hself, show k = 2 * (k / 2) by omega, heven]
  · rw [← hself, show k = 2 * (k / 2) + 1 by omega, hodd]

/-- The ECC stage takes the size of the spare area from the register. -/
theorem spareSize_eq_of_geometry (h : engine.geometry? = some g) :
    g.spareSize = engine.spareSize := by
  unfold geometry? Geometry.make at h
  obtain ⟨strength, -, hmake⟩ := Option.bind_eq_some_iff.1 h
  split at hmake
  · cases hmake
    rfl
  · cases hmake

/-- Where the parity begins is the same for both, if the window has room for the spare area. -/
theorem parityBase_eq (h : engine.geometry? = some g) (hroom : engine.spareLen ≤ windowLen) :
    engine.spareLen - g.parityBytes = g.spareSize - g.parityBytes := by
  rw [spareSize_eq_of_geometry h]
  show _ = min engine.spareLen windowLen - g.parityBytes
  rw [Nat.min_eq_left hroom]

/-- What is reported of a page is about bytes of its codewords. -/
theorem exists_of_mem_findDamage (hgeometry : engine.geometry? = some g) {cache : Bytes}
    {reference? : Option Bytes} {report : DamageReport}
    (h : report ∈ engine.findDamage cache reference?) :
    ∃ reference, reference? = some reference ∧ ∃ index < g.fieldCount, report.field = index + 1 ∧
      ∀ error ∈ report.errors, ∃ byte ∈ codewordBytes g (g.spareSize - g.parityBytes) index,
        error = errorOf (flipAt cache reference) byte := by
  unfold findDamage at h
  split at h
  · cases h
  · rw [hgeometry] at h
    cases reference? with
    | none => cases h
    | some reference =>
      simp only at h
      split at h
      · cases h
      · obtain ⟨index, hindex, hfield, herrors⟩ := exists_of_mem_damageReports h
        refine ⟨reference, rfl, index, List.mem_range.1 hindex, hfield, fun error herror => ?_⟩
        obtain ⟨byte, hbyte, -, heq⟩ := herrors error herror
        rw [spareSize_eq_of_geometry hgeometry]
        exact ⟨byte, hbyte, heq⟩

/-- The address of an error fits its half-word, so that it is the number of the byte. -/
theorem locate?_of_mem_findDamage (hgeometry : engine.geometry? = some g) {cache : Bytes}
    {reference? : Option Bytes} {report : DamageReport}
    (h : report ∈ engine.findDamage cache reference?) :
    ∃ reference, reference? = some reference ∧ (∃ index < g.fieldCount, report.field = index + 1) ∧
      ∀ error ∈ report.errors, ∃ raw, error.2 = flipAt cache reference raw ∧
        error.1.toNat < 2048 ∧
        g.locate? report.field error.1.toNat (g.spareSize - g.parityBytes) =
          some (g.locationOfRaw raw) := by
  obtain ⟨reference, hreference, index, hindex, hfield, herrors⟩ :=
    exists_of_mem_findDamage hgeometry h
  refine ⟨reference, hreference, ⟨index, hindex, hfield⟩, fun error herror => ?_⟩
  obtain ⟨byte, hbyte, rfl⟩ := herrors error herror
  obtain ⟨hlt, hlocate⟩ := locate?_codewordBytes hindex hbyte
  have hword : (errorOf (flipAt cache reference) byte).1.toNat = byte.2 :=
    UInt16.toNat_ofNat_of_lt' (Nat.lt_trans hlt (by decide))
  refine ⟨byte.1, rfl, ?_⟩
  rw [hword, hfield]
  exact ⟨hlt, hlocate⟩

end Engine

/-! ## One map -/

/-- Error addresses mean the same bytes to the engine and to the driver. The driver looks them up
with `locate?`; the engine numbers the bytes of a codeword in `codewordBytes`, where byte `raw` of
the page and the window behind it is the location `locationOfRaw raw`. -/
structure AddressesAgree (g : Geometry) : Prop where
  /-- Data addresses are the bytes of the page buffer, one to one. -/
  data_bijOn : Set.BijOn (fun entry => g.locate? entry.1 entry.2 (g.spareSize - g.parityBytes))
    (rows g.fieldCount 0 g.fieldLen) (Location.span .data 0 g.pageBytes)
  /-- Parity addresses are the end of the spare area, one to one. -/
  parity_bijOn : Set.BijOn (fun entry => g.locate? entry.1 entry.2 (g.spareSize - g.parityBytes))
    (rows g.fieldCount g.firstParity g.parityLen)
    (Location.span .window (g.spareSize - g.parityBytes) g.spareSize)
  metadata_eq : ∀ field, 1 ≤ field → field ≤ g.fieldCount → ∀ k < 3,
    g.locate? field (g.fieldLen + k) (g.spareSize - g.parityBytes) =
      some ⟨.window, g.parityLen * (field - 1) + k⟩
  eq_none_iff : ∀ field address,
    g.locate? field address (g.spareSize - g.parityBytes) = none ↔ field = 0 ∨
      (g.fieldLen + 3 ≤ address ∧ address < g.firstParity) ∨ g.fieldLen + g.paddingLen ≤ address
  /-- No offset leaves its word. -/
  word_eq : g.spareSize < 2 ^ 64 → ∀ field ≤ g.fieldCount, ∀ address,
    g.locateWord? field address (g.spareSize - g.parityBytes) =
      .ok (g.locate? field address (g.spareSize - g.parityBytes))
  /-- The byte that the engine numbers is the one that the driver finds by the number. -/
  same_byte : ∀ index < g.fieldCount,
    ∀ byte ∈ Engine.codewordBytes g (g.spareSize - g.parityBytes) index,
      byte.2 < 2048 ∧ g.locate? (index + 1) byte.2 (g.spareSize - g.parityBytes) =
        some (g.locationOfRaw byte.1)
  /-- Every address that means a byte has eleven bits, which is what a register keeps of it. -/
  lt_of_isSome : ∀ field address,
    (g.locate? field address (g.spareSize - g.parityBytes)).isSome →
      address < 2048 ∧ (UInt32.ofNat address &&& Bits.errorAddressMask).toNat = address
  /-- What an engine with this geometry reports is read back from its registers, looked up from the
  same start of the parity, and found to be the byte that has flipped. -/
  reported : ∀ engine : Engine, engine.geometry? = some g →
    (engine.spareLen ≤ windowLen →
      engine.spareLen - g.parityBytes = g.spareSize - g.parityBytes) ∧
    ∀ cache reference?, ∀ report ∈ engine.findDamage cache reference?,
      ∃ reference, reference? = some reference ∧
        ∀ k (hk : k < report.errors.length), ∃ raw,
          (report.errors[k]).2 = Engine.flipAt cache reference raw ∧
          g.locate? report.field (report.errors[k]).1.toNat (g.spareSize - g.parityBytes) =
            some (g.locationOfRaw raw) ∧
          (k < Ecc.maxErrors →
            (engine.present report.field report.status report.errors).latchedAddress k =
              (report.errors[k]).1.toNat)

/-- Whatever the page, the strength and the size of the spare area: if there is parity and room for
it, error addresses mean one byte. Only a size register beyond the end of the window, to which the
engine cuts it, would make them begin the parity in two places. -/
theorem addresses_agree {g : Geometry} (hecc : g.eccEnabled = true)
    (hspare : g.parityBytes ≤ g.spareSize) : AddressesAgree g where
  data_bijOn := by
    rw [← g.fieldLen_mul_fieldCount, ← Nat.zero_add (g.fieldLen * g.fieldCount)]
    refine bijOn_rows _ 0 fun row _ k hk => ?_
    rw [Nat.zero_add, Nat.zero_add]
    exact Geometry.locate?_data hk
  parity_bijOn := by
    have hend : g.spareSize = g.spareSize - g.parityBytes + g.parityLen * g.fieldCount :=
      (Nat.sub_add_cancel hspare).symm
    have hparity := bijOn_rows
      (fun entry => g.locate? entry.1 entry.2 (g.spareSize - g.parityBytes))
      (g.spareSize - g.parityBytes)
      fun row (_ : row < g.fieldCount) k hk => Geometry.locate?_parity hk
    rwa [← hend] at hparity
  metadata_eq field hpos _ k hk := by
    obtain ⟨index, rfl⟩ := Nat.exists_eq_add_of_le' hpos
    exact Geometry.locate?_metadata hk
  eq_none_iff _ _ := Geometry.locate?_eq_none_iff hecc
  word_eq hword _ hfield address := Geometry.locateWord?_eq_ok (by omega) hfield address
  same_byte _ hindex _ hbyte := Engine.locate?_codewordBytes hindex hbyte
  lt_of_isSome _ _ hsome :=
    have hlt := Geometry.lt_of_isSome_locate? hecc hsome
    ⟨hlt, Engine.toNat_and_errorAddressMask hlt⟩
  reported engine hgeometry := by
    refine ⟨Engine.parityBase_eq hgeometry, fun cache reference? report hreport => ?_⟩
    obtain ⟨reference, hreference, ⟨index, hindex, hfield⟩, hlocated⟩ :=
      Engine.locate?_of_mem_findDamage hgeometry hreport
    have hshows := engine.shows_present
      ⟨index, Nat.lt_of_lt_of_le hindex g.fieldCount_le, hfield⟩
    refine ⟨reference, hreference, fun k hk => ?_⟩
    obtain ⟨raw, hflip, -, hlocate⟩ := hlocated _ (List.getElem_mem hk)
    -- What is latched is an address of the report, and all of those have eleven bits.
    refine ⟨raw, hflip, hlocate, fun hmax => ?_⟩
    exact Engine.latchedAddress_of_shows hshows
      (fun error herror => (hlocated error herror).elim fun _ h => h.2.1) hmax hk

/-- Pages of eight fields in a spare area of 224 bytes, where the parity begins at byte 40. -/
theorem addresses_agree_t12 : (Geometry.eccEnabled ⟨.p4096, 224, .t12, rfl⟩ = true) ∧
    Geometry.parityBytes ⟨.p4096, 224, .t12, rfl⟩ = 184 ∧
    AddressesAgree ⟨.p4096, 224, .t12, rfl⟩ :=
  ⟨by decide, by decide, addresses_agree (by decide) (by decide)⟩

end Sim

end NandFlash
