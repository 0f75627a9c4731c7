import NandFlash.Crash
import NandFlash.Identity

/-!
# Simulated chips

The physical description of a chip: what it answers when asked for its identification, and the
dimensions it really has. The two need not agree; the simulator goes by the dimensions.
-/

namespace NandFlash.Sim

/-- Physical description of a chip. -/
structure Chip where
  name : String
  id : IdBytes
  pageSize : Nat
  /-- Spare bytes physically present per page. -/
  spareSize : Nat
  pagesPerBlock : Nat
  blocks : Nat
deriving DecidableEq, Repr

namespace Chip

/-- 128 MiB, pages of 2048 + 64 bytes. -/
def k9f1g08 : Chip :=
  ⟨"K9F1G08", idBytes 0xEC 0xF1 0x00 0x95 0x40 0x00, 2048, 64, 64, 1024⟩

/-- 512 MiB, pages of 4096 + 224 bytes. -/
def tc58nvg2s0f : Chip :=
  ⟨"TC58NVG2S0F", idBytes 0x98 0xDC 0x90 0x26 0x76 0x15, 4096, 224, 64, 2048⟩

/-- 4 GiB, pages of 8192 + 448 bytes; the identification speaks of 256 spare bytes only. -/
def mt29f32g08 : Chip :=
  ⟨"MT29F32G08", idBytes 0x2C 0xD7 0x00 0xB7 0x00 0x00, 8192, 448, 64, 8192⟩

/-- The chips known by name. -/
def presets : List Chip := [k9f1g08, tc58nvg2s0f, mt29f32g08]

/-- A preset by name; the case of ASCII letters does not matter. -/
def ofName? (name : String) : Option Chip :=
  presets.find? fun chip => chip.name.map Char.toLower == name.map Char.toLower

/-- Bytes of a page with its spare area. -/
def rawLen (chip : Chip) : Nat := chip.pageSize + chip.spareSize

/-- Pages of the chip. -/
def pages (chip : Chip) : Except Crash Nat :=
  word32 (chip.blocks * chip.pagesPerBlock)

/-- Data bytes of the chip. -/
def size (chip : Chip) : Except Crash Nat := do
  word64 ((← chip.pages) * chip.pageSize)

/-- Number of row address cycles. -/
def rowCycles (chip : Chip) : Except Crash Nat := do
  return if (← chip.size) > smallChipLimit then 3 else 2

end Chip

end NandFlash.Sim
