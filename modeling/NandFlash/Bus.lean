import NandFlash.Crash
import NandFlash.Bytes
import NandFlash.Register

/-!
# The register bus

`Bus β` says what a driver may do to a device whose state is `β`: register accesses of two
widths, hand-over of transfer buffers, and a short delay. Nothing is assumed about the answers,
so whatever is shown of a driver over every `Bus` also holds of one whose device misbehaves.
-/

namespace NandFlash

/-- Access to the registers of a device. -/
class Bus (β : Type) where
  read32 : Nat → Action β UInt32
  write32 : Nat → UInt32 → Action β Unit
  read8 : Nat → Action β UInt8
  write8 : Nat → UInt8 → Action β Unit
  /-- The address under which the engine reaches a buffer. -/
  dmaAddress : Bytes → Action β UInt32
  /-- A started transfer to flash takes this buffer. -/
  dmaToDevice : Bytes → Action β Unit
  /-- A started transfer from flash fills this buffer. -/
  dmaFromDevice : Bytes → Action β Bytes
  /-- Wait for some nanoseconds. -/
  delay : Nat → Action β Unit

/-- Where the power-on setting is read. -/
class PowerOnSource (β : Type) where
  /-- The non-volatile word. -/
  nonvolatile : Action β UInt32
  /-- The strap pins. -/
  pins : Action β UInt32

namespace Bus

variable {β : Type} [Bus β]

/-- Read a register, change the value and write it back. -/
def modify32 (offset : Nat) (change : UInt32 → UInt32) : Action β Unit := do
  let value ← read32 offset
  write32 offset (change value)

/-- Set bits of a register. -/
def setBits (offset : Nat) (bits : UInt32) : Action β Unit :=
  modify32 offset fun value => value ||| bits

/-- Clear bits of a register. -/
def clearBits (offset : Nat) (bits : UInt32) : Action β Unit :=
  modify32 offset fun value => value &&& ~~~bits

/-- Replace the bits under a mask. -/
def replaceBits (offset : Nat) (mask bits : UInt32) : Action β Unit :=
  modify32 offset fun value => (value &&& ~~~mask) ||| bits

/-- Is one of these bits set? -/
def anySet (offset : Nat) (bits : UInt32) : Action β Bool := do
  return (← read32 offset) &&& bits != 0

/-- Are all of these bits clear? -/
def allClear (offset : Nat) (bits : UInt32) : Action β Bool := do
  return (← read32 offset) &&& bits == 0

/-- Switch ECC off, or on with a strength given by its select bits. -/
def configureEcc (strengthBits : Option UInt32) : Action β Unit := do
  match strengthBits with
  | some bits =>
    replaceBits Register.control Bits.strengthMask bits
    setBits Register.control (Bits.eccEnable ||| Bits.eccCheck)
  | none => clearBits Register.control (Bits.eccEnable ||| Bits.eccCheck)

end Bus

end NandFlash
