/-!
# Field status bytes

After a read the ECC engine keeps one status byte per field: the two low bits say whether the
field is clean, repairable or lost, and five bits above them count the errors of a repairable
one.
-/

namespace NandFlash

/-- What the engine says about a field. -/
inductive FieldStatus where
  | clean
  | correctable (errors : Nat)
  | uncorrectable
deriving DecidableEq, Repr

namespace FieldStatus

/-- Decode a status byte. -/
def ofByte (byte : UInt8) : FieldStatus :=
  match byte &&& 3 with
  | 0 => clean
  | 1 => correctable ((byte >>> 2) &&& 0x1F).toNat
  | _ => uncorrectable

/-- Encode a status; only five bits of an error count survive. -/
def toByte : FieldStatus → UInt8
  | clean => 0
  | correctable errors => (1 : UInt8) ||| ((UInt8.ofNat errors &&& 0x1F) <<< 2)
  | uncorrectable => 2

theorem ofByte_toByte_clean : ofByte clean.toByte = clean := by decide

theorem ofByte_toByte_uncorrectable : ofByte uncorrectable.toByte = uncorrectable := by decide

/-- A count that fits in five bits is read back. -/
theorem ofByte_toByte_correctable {errors : Nat} (h : errors < 32) :
    ofByte (correctable errors).toByte = correctable errors := by
  have all : ∀ errors : Fin 32, ofByte (correctable errors).toByte = correctable errors := by
    decide
  exact all ⟨errors, h⟩

end FieldStatus

end NandFlash
