import NandFlash.Buffer
import NandFlash.Bus
import NandFlash.Ecc.FieldStatus
import NandFlash.Ecc.Location

/-!
# Repairing a page

When a field fails its check, the engine sets the field's status byte and latches the addresses
and xor values of the damaged bytes. `correct` works out every repair first and only then
touches the page buffer and the window, so a page with one lost field is left as it was read.
-/

namespace NandFlash

/-- One byte to repair. -/
structure Correction where
  location : Location
  /-- Xored onto the byte. -/
  value : UInt8
deriving DecidableEq, Repr

/-- The repairs of one field. -/
structure FieldReport where
  /-- Counted from 1. -/
  field : Nat
  errorCount : Nat
  corrections : List Correction
deriving DecidableEq, Repr

/-- A field that cannot be repaired; the whole page is lost. -/
structure LostField where
  field : Nat
deriving DecidableEq, Repr

namespace Ecc

/-- The most errors the engine can latch. -/
def maxErrors : Nat := 4 * Register.errorValueWords

/-- The damaged bytes the engine has latched, as error addresses and xor values, with room for as
many as it can latch. -/
structure Syndrome where
  addresses : Vector Nat maxErrors
  values : Vector UInt8 maxErrors

/-- The two error addresses in a register word. -/
def addressPair (word : UInt32) : List Nat :=
  [(word &&& Bits.errorAddressMask).toNat, ((word >>> 16) &&& Bits.errorAddressMask).toNat]

variable {β : Type} [Bus β]

/-- Fill a buffer from consecutive registers from an offset on, each with the entries that its word
is unpacked to. What no register fills stays blank. -/
def readLatches {α : Type} (unpack : UInt32 → List α) (blank : α) (offset count : Nat) :
    Action β (Vector α maxErrors) :=
  (List.range count).foldlM (fun buffer i => do
    let word ← Bus.read32 (offset + 4 * i)
    Buffer.put buffer (i * (unpack word).length) (unpack word)) (Vector.replicate maxErrors blank)

/-- Read as many registers as `count` errors may take, the values first. -/
def readSyndrome (count : Nat) : Action β Syndrome := do
  let values ← readLatches wordBytes 0 Register.errorValue
    (min (count / 4 + 1) Register.errorValueWords)
  let addresses ← readLatches addressPair 0 Register.errorAddress
    (min (count / 2 + 1) Register.errorAddressWords)
  return ⟨addresses, values⟩

/-- The repair of one latched error, if it names a byte of the page. -/
def planError (g : Geometry) (field parityBase dataLen window address : Nat) (value : UInt8) :
    Except Crash (Option Correction) := do
  let some location ← g.locateWord? field address parityBase
    | return none
  let limit := match location.place with
    | .data => dataLen
    | .window => window
  if location.offset < limit then
    return some ⟨location, value⟩
  else
    return none

/-- Work out the repairs of one field without touching anything. -/
def planField (g : Geometry) (dataLen field errorCount : Nat) :
    Attempt LostField β FieldReport := do
  if errorCount > maxErrors then
    throw ⟨field⟩
  let syndrome ← perform (readSyndrome errorCount)
  let window := ((← perform (Bus.read32 Register.spareSize)) &&& Bits.spareSizeMask).toNat
  if window < g.parityBytes then
    throw ⟨field⟩
  let corrections ← (List.range errorCount).mapM fun i => do
    let address ← Buffer.get syndrome.addresses i
    let value ← Buffer.get syndrome.values i
    match ← planError g field (window - g.parityBytes) dataLen window address value with
    | some correction => return correction
    | none => throw (⟨field⟩ : LostField)
  return ⟨field, errorCount, corrections⟩

/-- The fields that a status word reports, in order; bytes beyond the last field are ignored. -/
def reportedFields (g : Geometry) (wordIndex : Nat) (word : UInt32) : List (Nat × FieldStatus) :=
  ((wordBytes word).zipIdx (4 * wordIndex + 1)).filterMap fun (byte, field) =>
    match FieldStatus.ofByte byte with
    | .clean => none
    | status => if field ≤ g.fieldCount then some (field, status) else none

/-- The repairs asked for by one status word. -/
def planWord (g : Geometry) (dataLen wordIndex : Nat) : Attempt LostField β (List FieldReport) := do
  let word ← perform (Bus.read32 (Register.fieldStatus + 4 * wordIndex))
  (reportedFields g wordIndex word).mapM fun (field, status) =>
    match status with
    | .correctable errorCount => planField g dataLen field errorCount
    | _ => throw ⟨field⟩

/-- The repairs asked for by all status words. -/
def plan (g : Geometry) (dataLen : Nat) : Attempt LostField β (List FieldReport) := do
  let words := min ((g.fieldCount + 3) / 4) Register.fieldStatusWords
  return (← (List.range words).mapM (planWord g dataLen)).flatten

/-- Xor a value onto a byte of a buffer. -/
def xorAt (data : Bytes) (offset : Nat) (value : UInt8) : Except Crash Bytes :=
  if offset < data.size then
    .ok (data.modify offset fun byte => byte ^^^ value)
  else
    .error .bounds

/-- Make one repair; the page buffer is handed through. -/
def applyCorrection (data : Bytes) (c : Correction) : Action β Bytes := do
  match c.location.place with
  | .data => xorAt data c.location.offset c.value
  | .window =>
    let offset := Register.window + c.location.offset
    let byte ← Bus.read8 offset
    Bus.write8 offset (byte ^^^ c.value)
    return data

/-- Repair every reported field in place, or nothing at all. -/
def correct (g : Geometry) (data : Bytes) : Attempt LostField β (List FieldReport × Bytes) := do
  let reports ← plan g data.size
  let corrections := reports.flatMap (·.corrections)
  let data ← perform (corrections.foldlM applyCorrection data)
  return (reports, data)

end Ecc

end NandFlash
