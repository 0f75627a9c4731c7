import NandFlash.Bus

/-!
# A register block in plain memory

Registers without side effects: a stretch of little-endian memory. It stands in for the mapped
block of a device whose registers never change by themselves.
-/

namespace NandFlash

/-- A register block in memory. -/
structure Memory where
  bytes : Bytes
deriving DecidableEq, Repr

namespace Memory

/-- A zeroed block of 32-bit words. -/
def zeroed (words : Nat) : Memory := ⟨Bytes.filled (4 * words) 0⟩

/-- Check that an access of `width` bytes falls within the block. -/
def checkAccess (offset width : Nat) : Action Memory Unit := do
  let stop ← word64 (offset + width)
  if (← get).bytes.size < stop then
    crash (.outsideBlock offset)

/-- A byte of the block. -/
def byte (memory : Memory) (offset : Nat) : UInt8 := memory.bytes.getD offset 0

/-- A little-endian word of the block. -/
def word (memory : Memory) (offset : Nat) : UInt32 :=
  wordOfBytes (memory.byte offset) (memory.byte (offset + 1)) (memory.byte (offset + 2))
    (memory.byte (offset + 3))

/-- Store a byte. -/
def setByte (memory : Memory) (offset : Nat) (value : UInt8) : Memory :=
  ⟨memory.bytes.setIfInBounds offset value⟩

/-- Store a little-endian word. -/
def setWord (memory : Memory) (offset : Nat) (value : UInt32) : Memory :=
  (((memory.setByte offset (wordByte value 0)).setByte (offset + 1) (wordByte value 1)).setByte
    (offset + 2) (wordByte value 2)).setByte (offset + 3) (wordByte value 3)

@[simp] theorem size_setByte (memory : Memory) (offset : Nat) (value : UInt8) :
    (memory.setByte offset value).bytes.size = memory.bytes.size := by
  simp [setByte]

theorem byte_setByte (memory : Memory) (offset other : Nat) (value : UInt8)
    (h : offset < memory.bytes.size) :
    (memory.setByte offset value).byte other =
      if other = offset then value else memory.byte other := by
  simp only [byte, setByte, Array.getD_eq_getD_getElem?, Array.getElem?_setIfInBounds]
  grind

/-- A stored word is read back, if the block reaches that far. -/
theorem word_setWord (memory : Memory) (offset : Nat) (value : UInt32)
    (h : offset + 4 ≤ memory.bytes.size) :
    (memory.setWord offset value).word offset = value := by
  have size0 : offset < memory.bytes.size := by omega
  have size1 : offset + 1 < memory.bytes.size := by omega
  have size2 : offset + 2 < memory.bytes.size := by omega
  have size3 : offset + 3 < memory.bytes.size := by omega
  simp [word, setWord, byte_setByte, size0, size1, size2, size3, wordOfBytes_wordByte]

/-- The words of the block with their offsets. -/
def words (memory : Memory) : List (Nat × UInt32) :=
  (List.range (memory.bytes.size / 4)).map fun i => (4 * i, memory.word (4 * i))

instance : Bus Memory where
  read32 offset := do
    checkAccess offset 4
    return (← get).word offset
  write32 offset value := do
    checkAccess offset 4
    modify (·.setWord offset value)
  read8 offset := do
    checkAccess offset 1
    return (← get).byte offset
  write8 offset value := do
    checkAccess offset 1
    modify (·.setByte offset value)
  -- Buffers have no address of their own in this model.
  dmaAddress _ := return 0
  dmaToDevice _ := return
  dmaFromDevice data := return data
  delay _ := return

instance : PowerOnSource Memory where
  nonvolatile := Bus.read32 Register.powerOnWord
  pins := Bus.read32 Register.powerOnPins

end Memory

end NandFlash
