import NandFlash.Crash
import NandFlash.Error
import NandFlash.Bytes

/-!
# Identifying a chip

A chip answers a request for identification with six bytes. The second names its capacity and
the fourth packs page, spare and block sizes; a few parts whose spare size does not fit that
packing are known by all six bytes.
-/

namespace NandFlash

/-- Number of identification bytes. -/
def idLen : Nat := 6

/-- The identification bytes of a chip. -/
abbrev IdBytes := Vector UInt8 idLen

/-- Identification bytes, one after the other. -/
def idBytes (b0 b1 b2 b3 b4 b5 : UInt8) : IdBytes := #v[b0, b1, b2, b3, b4, b5]

/-- The identification bytes taken apart; the fourth byte from its highest bit down. -/
structure NandId where
  maker : UInt8
  device : UInt8
  options : UInt8
  reservedHigh : UInt8
  wideBus : UInt8
  blockShift : UInt8
  reservedLow : UInt8
  spareShift : UInt8
  pageShift : UInt8
deriving DecidableEq, Repr

/-- Take the first four bytes apart; more are ignored. -/
def NandId.parse (bytes : Bytes) : Except Error NandId :=
  match bytes.toList with
  | maker :: device :: options :: ext :: _ =>
    .ok {
      maker, device, options
      reservedHigh := ext >>> 7
      wideBus := (ext >>> 6) &&& 1
      blockShift := (ext >>> 4) &&& 3
      reservedLow := (ext >>> 3) &&& 1
      spareShift := (ext >>> 2) &&& 1
      pageShift := ext &&& 3 }
  | _ => .error .malformedId

/-- Dimensions of an identified chip. -/
structure ChipInfo where
  maker : UInt8
  device : UInt8
  pageSize : Nat
  spareSize : Nat
  blockSize : Nat
  chipSize : Nat
deriving DecidableEq, Repr

/-- Capacity in MiB named by a device code. -/
def capacity? : UInt8 → Option Nat
  | 0xF1 => some 128
  | 0xA1 => some 128
  | 0xDA => some 256
  | 0xDC => some 512
  | 0xD3 => some 1024
  | 0xD5 => some 2048
  | 0xD7 => some 4096
  | 0xDE => some 8192
  | _ => none

/-- Page, spare and block sizes of the parts known by all their identification bytes. -/
def fullIds : List (IdBytes × Nat × Nat × Nat) :=
  [(idBytes 0x98 0xDC 0x90 0x26 0x76 0x15, 4096, 224, 256 * 1024)]

/-- Chips above this many bytes take a third row address cycle. -/
def smallChipLimit : Nat := 128 <<< 20

namespace ChipInfo

/-- Interpret the identification bytes. -/
def decode (bytes : IdBytes) : Except Error ChipInfo := do
  let id ← NandId.parse bytes.toArray
  let some mib := capacity? id.device
    | .error (.unknownDevice id.maker id.device)
  let chipSize := mib <<< 20
  match fullIds.lookup bytes with
  | some (pageSize, spareSize, blockSize) =>
    return ⟨id.maker, id.device, pageSize, spareSize, blockSize, chipSize⟩
  | none =>
    if id.wideBus != 0 then
      .error .unsupportedBusWidth
    let pageSize := 1024 <<< id.pageShift.toNat
    let spareSize := (8 <<< id.spareShift.toNat) * (pageSize / 512)
    let blockSize := (64 * 1024) <<< id.blockShift.toNat
    return ⟨id.maker, id.device, pageSize, spareSize, blockSize, chipSize⟩

/-- Pages of a block, as a 32-bit count. -/
def pagesPerBlock (chip : ChipInfo) : Except Crash Nat := do
  return (← quotient chip.blockSize chip.pageSize) % UInt32.size

/-- Blocks of the chip, as a 32-bit count. -/
def blocks (chip : ChipInfo) : Except Crash Nat := do
  return (← quotient chip.chipSize chip.blockSize) % UInt32.size

/-- Pages of the chip. -/
def pages (chip : ChipInfo) : Except Crash Nat := do
  let blocks ← chip.blocks
  let pagesPerBlock ← chip.pagesPerBlock
  word32 (blocks * pagesPerBlock)

/-- Number of row address cycles. -/
def rowCycles (chip : ChipInfo) : Nat :=
  if chip.chipSize > smallChipLimit then 3 else 2

end ChipInfo

end NandFlash
