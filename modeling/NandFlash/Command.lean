/-!
# Chip commands

A NAND chip is driven by command bytes, some of which are followed by address cycles. This file
holds the commands the controller knows, their opcodes, and the address phases that six of them
open.
-/

namespace NandFlash

/-- A command of the chip. -/
inductive Command where
  /-- Opens a page read; the address of the page follows. -/
  | read
  /-- Loads the addressed page into the page register. -/
  | readConfirm
  /-- Small-page shorthand for a read of the spare area. -/
  | readSpare
  /-- Moves the read column within the page register. -/
  | columnRead
  /-- Makes the new read column current. -/
  | columnReadConfirm
  /-- Opens a page program; the address of the page follows. -/
  | programSetup
  /-- Moves the write column within the page being collected. -/
  | columnWrite
  /-- Programs the collected page. -/
  | program
  /-- Programs the collected page through the chip's cache. -/
  | programCached
  /-- Opens a block erase; the row of the block follows. -/
  | eraseSetup
  /-- Erases the addressed block. -/
  | erase
  /-- Makes the data register deliver the status byte. -/
  | status
  /-- Makes the data register deliver the identification bytes. -/
  | readId
  /-- Abandons whatever the chip is doing. -/
  | reset
deriving DecidableEq, Repr, Inhabited

namespace Command

/-- The opcode written to the command register. -/
def code : Command → UInt8
  | read => 0x00
  | readConfirm => 0x30
  | readSpare => 0x50
  | columnRead => 0x05
  | columnReadConfirm => 0xE0
  | programSetup => 0x80
  | columnWrite => 0x85
  | program => 0x10
  | programCached => 0x15
  | eraseSetup => 0x60
  | erase => 0xD0
  | status => 0x70
  | readId => 0x90
  | reset => 0xFF

/-- Every command. -/
def all : List Command :=
  [read, readConfirm, readSpare, columnRead, columnReadConfirm, programSetup, columnWrite,
    program, programCached, eraseSetup, erase, status, readId, reset]

/-- The command with a given opcode. -/
def ofCode? (opcode : UInt8) : Option Command :=
  all.find? (·.code == opcode)

/-- The short name under which a command appears in messages. -/
def mnemonic : Command → String
  | read => "Read0"
  | readConfirm => "ReadStart"
  | readSpare => "ReadOob"
  | columnRead => "RndOut"
  | columnReadConfirm => "RndOutStart"
  | programSetup => "Seqin"
  | columnWrite => "RndIn"
  | program => "PageProg"
  | programCached => "CachedProg"
  | eraseSetup => "Erase1"
  | erase => "Erase2"
  | status => "Status"
  | readId => "ReadId"
  | reset => "Reset"

theorem mem_all (command : Command) : command ∈ all := by
  cases command <;> decide

/-- Opcodes are distinct, so a command is found again from its opcode. -/
theorem ofCode?_code (command : Command) : ofCode? command.code = some command := by
  cases command <;> decide

end Command

/-- What the chip expects of the address bytes that follow a command. -/
inductive AddressPhase where
  /-- Column and row of a page to read. -/
  | read
  /-- Column and row of a page to program. -/
  | program
  /-- Row of a block to erase. -/
  | erase
  /-- New column in the page register. -/
  | columnRead
  /-- New column in the page being collected. -/
  | columnWrite
  /-- The single byte after a request for identification. -/
  | readId
deriving DecidableEq, Repr

namespace AddressPhase

/-- The command that opens the phase. -/
def command : AddressPhase → Command
  | read => .read
  | program => .programSetup
  | erase => .eraseSetup
  | columnRead => .columnRead
  | columnWrite => .columnWrite
  | readId => .readId

/-- Number of column bytes (or of the lone identification byte). -/
def columnCycles : AddressPhase → Nat
  | read | program | columnRead | columnWrite => 2
  | erase => 0
  | readId => 1

/-- Does the phase carry a row? -/
def hasRow : AddressPhase → Bool
  | read | program | erase => true
  | columnRead | columnWrite | readId => false

end AddressPhase

end NandFlash
