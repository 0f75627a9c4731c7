import Mathlib.Algebra.Group.Nat.Defs
import Mathlib.Tactic.Common
import NandFlash.Ecc.Location

/-!
# Codewords

The dimensions of a codeword are those of a small table, and an error address within it names a
byte not far into the page or the window. Codewords may share spare bytes: a byte belongs to the
lowest field that covers it.
-/

namespace NandFlash

namespace Geometry

variable (g : Geometry)

theorem fieldLen_le : g.fieldLen ≤ 1024 := by
  rw [fieldLen, codeword]
  cases g.strength <;> decide

theorem parityLen_le : g.parityLen ≤ 45 := by
  rw [parityLen, codeword]
  cases g.strength <;> decide

theorem pageBytes_le : g.pageBytes ≤ 8192 := by
  rw [pageBytes]
  cases g.page <;> decide

theorem pageBytes_pos : 0 < g.pageBytes := by
  rw [pageBytes]
  cases g.page <;> decide

theorem correctable_le : g.correctable ≤ 24 := by
  rw [correctable, codeword]
  cases g.strength <;> decide

theorem fieldCount_le : g.fieldCount ≤ 16 := by
  have hpage := g.pageBytes_le
  have hfield : 512 ≤ g.fieldLen := by
    rw [fieldLen, codeword]
    cases g.strength <;> decide
  rw [fieldCount]
  calc g.pageBytes / g.fieldLen ≤ 8192 / 512 := Nat.div_le_div hpage hfield (by omega)
    _ = 16 := rfl

variable {g}

/-- An offset that an error address names stays far below the end of its word. -/
theorem offset_lt_of_locate? {field address parityBase : Nat} {location : Location}
    (hfield : field ≤ 16) (haddress : address < 2048) (hbase : parityBase < 512)
    (h : g.locate? field address parityBase = some location) : location.offset < 2 ^ 16 := by
  have hfieldLen := g.fieldLen_le
  have hparityLen := g.parityLen_le
  cases field with
  | zero => cases h
  | succ index =>
    -- Fifteen whole fields of 1024 bytes in front, and their parity, at the most.
    have hdata : index * g.fieldLen ≤ 15 * 1024 := Nat.mul_le_mul (by omega) hfieldLen
    have hparity : g.parityLen * index ≤ 45 * 15 := Nat.mul_le_mul hparityLen (by omega)
    simp only [locate?] at h
    split at h
    · cases h
      show index * g.fieldLen + address < _
      omega
    · split at h
      · cases h
        show address - g.fieldLen + g.parityLen * index < _
        omega
      · split at h
        · cases h
          show parityBase + g.parityLen * index + (address - g.firstParity) < _
          omega
        · cases h

/-! ## Who a byte belongs to -/

/-- Does the codeword of a field, counted from 0, cover a byte of the raw page? It covers the
field's data, three bytes of metadata and its parity slot. -/
def Covers (g : Geometry) (parityStart index raw : Nat) : Prop :=
  (index * g.fieldLen ≤ raw ∧ raw < (index + 1) * g.fieldLen) ∨
  (g.pageBytes + g.parityLen * index ≤ raw ∧
    raw < g.pageBytes + g.parityLen * index + metadataLen) ∨
  (g.pageBytes + parityStart + g.parityLen * index ≤ raw ∧
    raw < g.pageBytes + parityStart + g.parityLen * (index + 1))

instance (g : Geometry) (parityStart index raw : Nat) :
    Decidable (g.Covers parityStart index raw) :=
  inferInstanceAs (Decidable (_ ∨ _))

/-- The lowest field whose codeword covers a byte of the raw page. -/
def owner? (g : Geometry) (parityStart raw : Nat) : Option Nat :=
  (List.range g.fieldCount).find? fun index => g.Covers parityStart index raw

theorem owner?_eq_some_iff {parityStart raw index : Nat} :
    g.owner? parityStart raw = some index ↔ index < g.fieldCount ∧
      g.Covers parityStart index raw ∧ ∀ other < index, ¬g.Covers parityStart other raw := by
  simp only [owner?, List.find?_range_eq_some, decide_eq_true_eq, List.mem_range,
    Bool.not_eq_true', decide_eq_false_iff_not]
  constructor
  · rintro ⟨hcovers, hlt, hlower⟩
    exact ⟨hlt, hcovers, hlower⟩
  · rintro ⟨hlt, hcovers, hlower⟩
    exact ⟨hcovers, hlt, hlower⟩

/-- Raw offsets as the driver addresses them: the page buffer, and behind it the window. -/
def locationOfRaw (g : Geometry) (raw : Nat) : Location :=
  if raw < g.pageBytes then ⟨.data, raw⟩ else ⟨.window, raw - g.pageBytes⟩

/-- A field's data end where the data of the next one begin. -/
theorem succ_mul_fieldLen_le {index : Nat} (hindex : index < g.fieldCount) :
    (index + 1) * g.fieldLen ≤ g.pageBytes := by
  rw [← g.fieldLen_mul_fieldCount, Nat.mul_comm]
  exact Nat.mul_le_mul_left _ hindex

theorem mul_succ_parityLen_le {index : Nat} (hindex : index < g.fieldCount) :
    g.parityLen * (index + 1) ≤ g.parityBytes :=
  Nat.mul_le_mul_left _ hindex

/-- A parity code lies behind the metadata of its codeword. -/
theorem metadata_le_firstParity (h : 0 < g.parityLen) :
    g.fieldLen + metadataLen ≤ g.firstParity ∧ g.firstParity + g.parityLen ≤ 2048 := by
  revert h
  rw [firstParity, fieldLen, paddingLen, parityLen, codeword]
  cases g.strength <;> decide

end Geometry

end NandFlash
