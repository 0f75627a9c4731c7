import NandFlash.Bus
import NandFlash.Identity
import NandFlash.Poll

/-!
# Framing of commands

A command goes out as a byte to the command register, address bytes to the address register (the
last one marked), and whatever the command's class asks for after that: a confirming second
command, a short delay, or a wait for the ready line.
-/

namespace NandFlash.Framing

/-- The two column cycles, low byte first. -/
def columnWords (column : Nat) (isLast : Bool) : List UInt32 :=
  [UInt32.ofNat (column % 256),
    UInt32.ofNat (column / 256 % 256) ||| if isLast then Bits.lastAddress else 0]

/-- The row cycles, least significant byte first. -/
def rowWords (cycles row : Nat) : List UInt32 :=
  (List.range cycles).map fun cycle =>
    UInt32.ofNat ((row >>> (8 * cycle)) % 256) |||
      if cycle + 1 = cycles then Bits.lastAddress else 0

/-- The address phase of a command. -/
def addressWords (rowCycles : Nat) (command : Command) (column row : Option Nat) : List UInt32 :=
  if command = .readId then
    [Bits.lastAddress]
  else
    (column.elim [] fun column => columnWords column row.isNone) ++
      row.elim [] fun row => rowWords rowCycles row

variable {β : Type} [Bus β]

/-- Write a byte to the command register. -/
def writeCommand (command : Command) : Action β Unit :=
  Bus.write32 Register.command command.code.toUInt32

/-- Read `count` bytes from the data register. -/
def readData (count : Nat) : Action β Bytes := do
  let bytes ← (List.range count).mapM fun _ => return (← Bus.read32 Register.data).toUInt8
  return bytes.toArray

/-- Write bytes to the data register. -/
def writeData (bytes : Bytes) : Action β Unit :=
  bytes.toList.forM fun byte => Bus.write32 Register.data byte.toUInt32

/-- Wait for the ready line. -/
def waitReady (poll : Poll) : Attempt Error β Unit :=
  poll.wait .deviceReady (perform (Bus.anySet Register.status Bits.ready))

/-- What follows the address phase. -/
def conclude (poll : Poll) : Command → Attempt Error β Unit
  | .programSetup | .program | .programCached | .eraseSetup | .erase | .columnWrite | .status =>
    return
  | .reset => do
    perform (writeCommand .status)
    perform (writeCommand .reset)
    waitReady poll
  | .columnRead => do
    perform (writeCommand .columnReadConfirm)
    perform (Bus.delay 10)
  | .read => do
    perform (writeCommand .readConfirm)
    waitReady poll
  | .readConfirm | .readSpare | .columnReadConfirm | .readId => waitReady poll

/-- Send a command; column and row go out when they are given. -/
def send (poll : Poll) (rowCycles : Nat) (command : Command) (column row : Option Nat) :
    Attempt Error β Unit := do
  perform (writeCommand command)
  perform ((addressWords rowCycles command column row).forM fun word =>
    Bus.write32 Register.address word)
  conclude poll command

/-- Read one byte from the data register. -/
def readByte : Action β UInt8 :=
  return (← Bus.read32 Register.data).toUInt8

/-- Ask for the identification bytes. -/
def readId (poll : Poll) : Attempt Error β IdBytes := do
  send poll 0 .readId none none
  let b0 ← perform readByte
  let b1 ← perform readByte
  let b2 ← perform readByte
  let b3 ← perform readByte
  let b4 ← perform readByte
  let b5 ← perform readByte
  return idBytes b0 b1 b2 b3 b4 b5

end NandFlash.Framing
