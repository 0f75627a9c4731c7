import NandFlash.Bytes

/-!
# CRC-32

The reflected CRC with polynomial `0xEDB88320`, all-ones start and all-ones final xor (CRC-32 as
used by Ethernet and zip files). A running register is fed byte by byte, so a long stream can be
summed piece by piece.
-/

namespace NandFlash.Checksum

/-- One bit of polynomial division. -/
def shift (register : UInt32) : UInt32 :=
  if register &&& 1 == 0 then register >>> 1 else (register >>> 1) ^^^ 0xEDB88320

/-- Feed one byte, lowest bit first. -/
def push (register : UInt32) (byte : UInt8) : UInt32 :=
  let r := register ^^^ byte.toUInt32
  shift (shift (shift (shift (shift (shift (shift (shift r)))))))

/-- The register before any byte. -/
def start : UInt32 := 0xFFFFFFFF

/-- Feed a buffer. -/
def update (register : UInt32) (bytes : Bytes) : UInt32 :=
  bytes.foldl push register

/-- The checksum a register stands for. -/
def finish (register : UInt32) : UInt32 := ~~~register

/-- The checksum of one buffer. -/
def ofBytes (bytes : Bytes) : UInt32 := finish (update start bytes)

/-- Feeding two buffers is feeding the one that holds both. -/
theorem update_append (register : UInt32) (a b : Bytes) :
    update register (a ++ b) = update (update register a) b := by
  simp [update]

/-- The check value by which this CRC-32 is identified: the checksum of the text `123456789`. -/
example : ofBytes #[0x31, 0x32, 0x33, 0x34, 0x35, 0x36, 0x37, 0x38, 0x39] = 0xCBF43926 := by
  decide +kernel

end NandFlash.Checksum
