import NandFlash.Proofs.Codeword
import NandFlash.Proofs.Sim.Presenting

/-!
# Errors in registers

The ECC stage packs the errors of a report into registers, two addresses or four values to a word;
taken apart again, the words give the errors in order. The reports of the ECC stage are legible:
each error lies within the page or its spare area, where its address points.
-/

namespace NandFlash

/-! ## Packing -/

namespace Ecc

/-- Two addresses of eleven bits are packed into a word and taken apart again. -/
theorem addressPair_or {a b : UInt16} (ha : a.toNat < 2048) (hb : b.toNat < 2048) :
    addressPair (a.toUInt32 ||| b.toUInt32 <<< 16) = [a.toNat, b.toNat] := by
  have hmask : Bits.errorAddressMask.toNat = 2 ^ 11 - 1 := rfl
  have hshift : (b.toUInt32 <<< 16).toNat = b.toNat <<< 16 := by
    rw [UInt32.toNat_shiftLeft, UInt16.toNat_toUInt32, Nat.shiftLeft_eq, Nat.shiftLeft_eq]
    exact Nat.mod_eq_of_lt (by show b.toNat * 2 ^ 16 < 2 ^ 32; omega)
  have hword : (a.toUInt32 ||| b.toUInt32 <<< 16).toNat = b.toNat * 65536 + a.toNat := by
    rw [UInt32.toNat_or, hshift, UInt16.toNat_toUInt32, Nat.or_comm,
      ← Nat.shiftLeft_add_eq_or_of_lt (by omega), Nat.shiftLeft_eq]
  have hhigh : ((a.toUInt32 ||| b.toUInt32 <<< 16) >>> 16).toNat = b.toNat := by
    rw [UInt32.toNat_shiftRight, hword, Nat.shiftRight_eq_div_pow]
    show (b.toNat * 65536 + a.toNat) / 65536 = b.toNat
    omega
  have hlow : (b.toNat * 65536 + a.toNat) % 2 ^ 11 = a.toNat := by omega
  rw [addressPair, UInt32.toNat_and, UInt32.toNat_and, hword, hhigh, hmask,
    Nat.and_two_pow_sub_one_eq_mod, Nat.and_two_pow_sub_one_eq_mod,
    Nat.mod_eq_of_lt (show b.toNat < 2 ^ 11 from hb), hlow]

/-- Fours one after the other are all of them in order. -/
theorem flatMap_four {α : Type} (f : Nat → α) (count : Nat) :
    (List.range count).flatMap (fun i => [f (4 * i), f (4 * i + 1), f (4 * i + 2), f (4 * i + 3)]) =
      (List.range (4 * count)).map f := by
  induction count with
  | zero => rfl
  | succ count ih =>
    rw [List.range_succ, List.flatMap_append, ih, Nat.mul_succ, List.range_succ, List.range_succ,
      List.range_succ, List.range_succ]
    simp

end Ecc

namespace Sim

open Ecc

/-! ## Latched errors -/

/-- A latched error; behind the last one there are zeros. -/
def latched (errors : List (UInt16 × UInt8)) (k : Nat) : UInt16 × UInt8 := errors[k]?.getD (0, 0)

variable {errors : List (UInt16 × UInt8)}

theorem latched_lt (haddress : ∀ error ∈ errors, error.1.toNat < 2048) (k : Nat) :
    (latched errors k).1.toNat < 2048 := by
  rw [latched]
  cases hk : errors[k]? with
  | none => exact Nat.zero_lt_succ _
  | some error => exact haddress error (List.mem_of_getElem? hk)

theorem addressPair_addressWord (haddress : ∀ error ∈ errors, error.1.toNat < 2048) (i : Nat) :
    addressPair (Engine.addressWord errors i) =
      [(latched errors (2 * i)).1.toNat, (latched errors (2 * i + 1)).1.toNat] :=
  addressPair_or (latched_lt haddress _) (latched_lt haddress _)

theorem wordByte_valueWord (errors : List (UInt16 × UInt8)) (i : Nat) {k : Nat} (hk : k < 4) :
    wordByte (Engine.valueWord errors i) k = (latched errors (4 * i + k)).2 := by
  rw [Engine.valueWord, wordByte_wordOfBytes _ _ _ _ k hk]
  have hcases : k = 0 ∨ k = 1 ∨ k = 2 ∨ k = 3 := by omega
  rcases hcases with rfl | rfl | rfl | rfl <;> rfl

/-! ## Legible reports -/

variable {g : Geometry}

namespace DamageReport

/-- Where an error of a report is repaired. -/
def locationOf (g : Geometry) (field : Nat) (error : UInt16 × UInt8) : Location :=
  (g.locate? field error.1.toNat (g.spareSize - g.parityBytes)).getD ⟨.data, 0⟩

/-- The repairs that a report asks for. -/
def corrections (g : Geometry) (report : DamageReport) : List Correction :=
  report.errors.map fun error => ⟨locationOf g report.field error, error.2⟩

/-- What the driver makes of a report. -/
def fieldReport (g : Geometry) (report : DamageReport) : FieldReport :=
  ⟨report.field, report.errors.length, report.corrections g⟩

/-- The report of an existing field: its status goes by the number of its errors, and each of
them lies within the page or its spare area. -/
structure Legible (g : Geometry) (report : DamageReport) : Prop where
  field_eq : ∃ index < g.fieldCount, report.field = index + 1
  status_eq : report.status =
    if report.errors.length > g.correctable then .uncorrectable
    else .correctable report.errors.length
  located : ∀ error ∈ report.errors, error.1.toNat < 2048 ∧ ∃ location,
    g.locate? report.field error.1.toNat (g.spareSize - g.parityBytes) = some location ∧
    location.offset < (match location.place with
      | .data => g.pageBytes
      | .window => g.spareSize)

theorem Legible.field_lt {report : DamageReport} (h : report.Legible g) :
    ∃ index < 16, report.field = index + 1 := by
  obtain ⟨index, hindex, hfield⟩ := h.field_eq
  exact ⟨index, Nat.lt_of_lt_of_le hindex g.fieldCount_le, hfield⟩

end DamageReport

/-! ## Rows of registers -/

namespace Device

/-- A row of registers fills the front of a buffer, each of them with as many entries. -/
theorem run_readLatches {α : Type} (device : Device) (entry : Nat → α) (unpack : UInt32 → List α)
    (blank : α) (offset size : Nat) {count : Nat}
    (hreadable : ∀ i < count, IsReadable (offset + 4 * i))
    (hunpack : ∀ i, unpack (device.engine.register (offset + 4 * i)) =
      (List.range size).map fun j => entry (size * i + j))
    (hfit : count * size ≤ maxErrors) :
    ∃ buffer, (readLatches unpack blank offset count).run device = .ok (buffer, device) ∧
      ∀ k < count * size, buffer[k]? = some (entry k) := by
  unfold readLatches
  induction count with
  | zero =>
    refine ⟨_, rfl, fun k hk => ?_⟩
    rw [Nat.zero_mul] at hk
    exact absurd hk (Nat.not_lt_zero k)
  | succ count ih =>
    rw [Nat.succ_mul] at hfit
    obtain ⟨buffer, hrun, hbuffer⟩ := ih (fun i hi => hreadable i (Nat.lt_succ_of_lt hi)) (by omega)
    have hsize : (unpack (device.engine.register (offset + 4 * count))).length = size := by
      rw [hunpack, List.length_map, List.length_range]
    have hroom : count * size + (unpack (device.engine.register (offset + 4 * count))).length ≤
        maxErrors := hsize ▸ hfit
    obtain ⟨filled, hput, hfilled⟩ := Buffer.put_eq_ok buffer (count * size) hroom
    refine ⟨filled, ?_, fun k hk => ?_⟩
    · rw [List.range_succ, List.foldlM_append]
      refine run_step hrun (run_step (run_step (run_read32 device (hreadable count
        (Nat.lt_succ_self count))) ?_) rfl)
      rw [hsize]
      exact run_action_lift hput
    · -- What the last register has filled, or what has been there before.
      rw [Nat.succ_mul] at hk
      rw [hfilled, hsize, hunpack]
      by_cases hlast : count * size ≤ k
      · rw [if_pos ⟨hlast, hk⟩, List.getElem?_map, List.getElem?_range (by omega), Option.map_some,
          Nat.mul_comm, Nat.add_sub_cancel' hlast]
      · rw [if_neg (fun h => hlast h.1), hbuffer k (Nat.lt_of_not_le hlast)]

/-- A row of registers behind the control registers and before the window. -/
theorem isReadable_row {base count i : Nat} (hbase : Register.fieldStatus ≤ base)
    (hend : base + 4 * count ≤ Register.window) (hi : i < count) :
    IsReadable (base + 4 * i) := by
  have hfieldStatus : Register.fieldStatus = 0x8D0 := rfl
  have hstatus : Register.status = 0x8AC := rfl
  have hdata : Register.data = 0x8B8 := rfl
  refine ⟨?_, ?_, ?_⟩ <;> omega

end Device

end Sim

end NandFlash
