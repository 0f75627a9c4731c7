import Mathlib.Data.Nat.Bitwise
import NandFlash.Controller.Framing
import NandFlash.Proofs.Bits
import NandFlash.Proofs.Sim.Flash

/-!
# Address phases

A driver spells a column and a row as address words, and the chip puts them together again. The
chip counts the bytes: a row of the wrong number of bytes crashes the device.
-/

namespace NandFlash

/-! ## Words and their bytes -/

namespace Framing

theorem byte_and_lastAddress (n : Nat) : UInt32.ofNat (n % 256) &&& Bits.lastAddress = 0 := by
  have hlast : Bits.lastAddress.toNat = 2 ^ 31 := rfl
  have hlt : n % 256 < 2 ^ 31 := (Nat.mod_lt n (by omega)).trans (by omega)
  apply UInt32.toNat_inj.1
  rw [UInt32.toNat_and, UInt32.toNat_ofNat_of_lt' (hlt.trans (by decide)), hlast,
    Nat.and_two_pow, Nat.testBit_lt_two_pow hlt]
  rfl

/-- The mark of the last address word does not get in the way of its byte. -/
theorem lastAddress_toUInt8 (n : Nat) :
    (UInt32.ofNat n ||| Bits.lastAddress).toUInt8 = UInt8.ofNat n := by
  have hlast : Bits.lastAddress.toUInt8 = 0 := rfl
  rw [UInt32.toUInt8_or, UInt32.toUInt8_ofNat', hlast, UInt8.or_zero]

theorem or_lastAddress_and (word : UInt32) :
    (word ||| Bits.lastAddress) &&& Bits.lastAddress ≠ 0 := by
  rw [Bits.or_and_self]
  decide

/-- The row bytes, the least significant first. -/
def rowBytes (cycles row : Nat) : List UInt8 :=
  (List.range cycles).map fun cycle => UInt8.ofNat (row / 256 ^ cycle % 256)

/-- Shifting by whole bytes divides by powers of 256. -/
theorem shiftRight_bytes (row cycle : Nat) : row >>> (8 * cycle) = row / 256 ^ cycle := by
  rw [Nat.shiftRight_eq_div_pow, Nat.pow_mul]

/-- The words of a row: all but the last one come without the mark. -/
theorem rowWords_succ (cycles row : Nat) :
    rowWords (cycles + 1) row =
      (List.range cycles).map (fun cycle => UInt32.ofNat (row / 256 ^ cycle % 256)) ++
        [UInt32.ofNat (row / 256 ^ cycles % 256) ||| Bits.lastAddress] := by
  rw [rowWords, List.range_succ, List.map_append, List.map_singleton, if_pos rfl,
    shiftRight_bytes]
  congr 1
  apply List.map_congr_left
  intro cycle hcycle
  have hlt := List.mem_range.1 hcycle
  rw [if_neg (by omega), UInt32.or_zero, shiftRight_bytes]

theorem map_toUInt8_rowWords {cycles : Nat} (h : 0 < cycles) (row : Nat) :
    (rowWords cycles row).map (·.toUInt8) = rowBytes cycles row := by
  obtain ⟨cycles, rfl⟩ := Nat.exists_eq_succ_of_ne_zero (Nat.ne_of_gt h)
  rw [rowWords_succ, rowBytes, List.range_succ, List.map_append, List.map_append, List.map_map,
    List.map_singleton, List.map_singleton, lastAddress_toUInt8]
  simp only [Function.comp_def, UInt32.toUInt8_ofNat']

end Framing

namespace Sim

open Framing

theorem toNat_byte (n : Nat) : (UInt8.ofNat (n % 256)).toNat = n % 256 :=
  UInt8.toNat_ofNat_of_lt' (Nat.mod_lt n (by decide))

/-- The bytes of a row spell it, as far as they go. -/
theorem addressValue_rowBytes (cycles row : Nat) :
    addressValue (rowBytes cycles row) = row % 256 ^ cycles := by
  induction cycles generalizing row with
  | zero =>
    rw [Nat.pow_zero, Nat.mod_one]
    rfl
  | succ cycles ih =>
    have hrest : (List.range cycles).map ((fun cycle => UInt8.ofNat (row / 256 ^ cycle % 256)) ∘
        Nat.succ) = rowBytes cycles (row / 256) := by
      apply List.map_congr_left
      intro cycle _
      show UInt8.ofNat (row / 256 ^ (cycle + 1) % 256) = _
      rw [Nat.pow_succ', Nat.div_div_eq_div_mul]
    rw [rowBytes, List.range_succ_eq_map, List.map_cons, List.map_map, hrest, addressValue, ih,
      Nat.pow_zero, Nat.div_one, toNat_byte, Nat.pow_succ', Nat.mod_mul]

/-- The two column bytes. -/
def columnBytes (column : Nat) : List UInt8 :=
  [UInt8.ofNat (column % 256), UInt8.ofNat (column / 256 % 256)]

theorem addressValue_columnBytes (column : Nat) :
    addressValue (columnBytes column) = column % 65536 := by
  simp only [columnBytes, addressValue, toNat_byte]
  omega

/-! ## Rows as they arrive -/

/-- The row that arrives when a driver sends one in a number of cycles. -/
def Chip.rowAt (chip : Chip) (cycles : Nat) (command : Command) (row : Nat) :
    Except Crash Nat := do
  if cycles ≠ (← chip.rowCycles) then
    .error (.addressCycles command)
  return row % 256 ^ cycles

/-- Whatever is done with a row is done only if it arrives. -/
theorem Chip.map_rowAt {γ : Type} (chip : Chip) {cycles : Nat} {command : Command} {row : Nat}
    {f : Nat → γ} {seek : Nat → Except Crash γ}
    (h : ∀ rowCycles, seek rowCycles = if cycles ≠ rowCycles then .error (.addressCycles command)
      else .ok (f (row % 256 ^ cycles))) :
    (chip.rowAt cycles command row).map f = chip.rowCycles >>= seek := by
  rw [rowAt]
  cases chip.rowCycles with
  | error defect => rfl
  | ok rowCycles =>
    simp only [bind, Except.bind, h]
    by_cases hne : cycles ≠ rowCycles
    · rw [if_pos hne, if_pos hne]
      rfl
    · rw [if_neg hne, if_neg hne]
      rfl

namespace Latches

variable {latches : Latches} {cycles : Nat}

/-- The end of an address phase latches a column and a row, and lets them take effect on the page
being collected. -/
theorem exists_of_endAddress {next : Latches} {rowCycles : Nat}
    (h : latches.endAddress rowCycles = .ok next) :
    ∃ phase, latches.phase = some phase ∧
      ∃ column row, next = if phase = .readId then { latches with address := [] }
        else ({ latches with address := [], column, row } : Latches).retarget phase := by
  unfold endAddress at h
  cases hphase : latches.phase with
  | none =>
    rw [hphase] at h
    cases h
  | some phase =>
    refine ⟨phase, rfl, ?_⟩
    simp only [hphase] at h
    by_cases hcount : latches.address.length ≠
        phase.columnCycles + if phase.hasRow then rowCycles else 0
    · rw [if_pos hcount] at h
      cases h
    · rw [if_neg hcount] at h
      by_cases hid : phase = .readId
      · rw [if_pos hid] at h
        cases h
        exact ⟨0, 0, (if_pos hid).symm⟩
      · rw [if_neg hid] at h
        cases h
        refine ⟨if phase.columnCycles = 2 then addressValue (latches.address.take phase.columnCycles)
          else latches.column, if (if phase.hasRow then rowCycles else 0) > 0 then
            addressValue (latches.address.drop phase.columnCycles) else latches.row, ?_⟩
        rw [if_neg hid]
        split_ifs <;> rfl

/-- What an address phase of a column and a row latches. -/
theorem endAddress_page {phase : AddressPhase} {column row : Nat}
    (hphase : phase = .read ∨ phase = .program) (hopen : latches.phase = some phase)
    (hcycles : 0 < cycles) (rowCycles : Nat) :
    ({ latches with address := columnBytes column ++ rowBytes cycles row } : Latches).endAddress
        rowCycles =
      if cycles ≠ rowCycles then .error (.addressCycles phase.command)
      else .ok ({ latches with
        address := [], column := column % 65536, row := row % 256 ^ cycles }.retarget phase) := by
  have hcolumns : phase.columnCycles = 2 := by rcases hphase with rfl | rfl <;> rfl
  have hrow : phase.hasRow = true := by rcases hphase with rfl | rfl <;> rfl
  have hid : phase ≠ .readId := by rcases hphase with rfl | rfl <;> decide
  have hlength : (columnBytes column ++ rowBytes cycles row).length = 2 + cycles := by
    rw [List.length_append, rowBytes, List.length_map, List.length_range]
    rfl
  have htake : (columnBytes column ++ rowBytes cycles row).take 2 = columnBytes column := rfl
  have hdrop : (columnBytes column ++ rowBytes cycles row).drop 2 = rowBytes cycles row := rfl
  unfold endAddress
  simp only [hopen, hcolumns, hrow, hid, hlength, htake, hdrop, if_true, if_false,
    addressValue_columnBytes, addressValue_rowBytes]
  -- The length of the address tells whether the row has come in the right number of cycles.
  by_cases hne : cycles ≠ rowCycles
  · rw [if_pos (by omega), if_pos hne]
    rfl
  · rw [if_neg (by omega), if_neg hne]
    rw [not_ne_iff] at hne
    subst hne
    simp only [hcycles, if_true]
    rfl

/-- What an address phase of a row alone latches. -/
theorem endAddress_erase {row : Nat} (hopen : latches.phase = some .erase)
    (hcycles : 0 < cycles) (rowCycles : Nat) :
    ({ latches with address := rowBytes cycles row } : Latches).endAddress rowCycles =
      if cycles ≠ rowCycles then .error (.addressCycles .eraseSetup)
      else .ok { latches with address := [], row := row % 256 ^ cycles } := by
  have hlength : (rowBytes cycles row).length = cycles := by
    rw [rowBytes, List.length_map, List.length_range]
  unfold endAddress
  simp only [hopen, AddressPhase.columnCycles, AddressPhase.hasRow, hlength, if_true,
    Nat.zero_add, List.drop_zero, addressValue_rowBytes]
  by_cases hne : cycles ≠ rowCycles
  · rw [if_pos hne, if_pos hne]
    rfl
  · rw [if_neg hne, if_neg hne]
    rw [not_ne_iff] at hne
    subst hne
    simp only [hcycles, if_true]
    rfl

/-- The single byte after a request for identification. -/
theorem endAddress_readId (hopen : latches.phase = some .readId) (byte : UInt8)
    (rowCycles : Nat) :
    ({ latches with address := [byte] } : Latches).endAddress rowCycles =
      .ok { latches with address := [] } := by
  unfold endAddress
  simp only [hopen, AddressPhase.columnCycles, AddressPhase.hasRow]
  rfl

end Latches

end Sim

end NandFlash
