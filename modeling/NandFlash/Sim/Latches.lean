import NandFlash.Bytes
import NandFlash.Command
import NandFlash.Crash
import NandFlash.Identity

/-!
# Latches of the chip

The volatile side of a simulated chip: the address phase in progress, the latched column and row,
the page register that reads come from, and the page being collected for a program.
-/

namespace NandFlash.Sim

/-- What the data register delivers. -/
inductive Output where
  | nothing
  | page
  | id
  | status
deriving DecidableEq, Repr

/-- A page collected between the setup of a program and its confirmation. -/
structure PendingProgram where
  row : Nat
  buffer : Bytes
  cursor : Nat
  /-- Did the data go through the ECC stage? -/
  ecc : Bool
deriving DecidableEq, Repr

/-- What a chip remembers between two cycles on its bus. -/
structure Latches where
  phase : Option AddressPhase
  /-- Address bytes of the phase so far. -/
  address : List UInt8
  column : Nat
  row : Nat
  /-- The page register. -/
  cache : Bytes
  /-- The row the page register was loaded from. -/
  cacheRow : Option Nat
  output : Output
  cursor : Nat
  pending : Option PendingProgram
  status : UInt8
deriving DecidableEq, Repr

/-- The number spelled by bytes, the least significant first. -/
def addressValue : List UInt8 → Nat
  | [] => 0
  | byte :: rest => byte.toNat + 256 * addressValue rest

namespace Latches

/-- The status byte after success. -/
def statusReady : UInt8 := 0xC0

/-- The status byte after a failed program or erase. -/
def statusFailed : UInt8 := 0xC1

/-- The latches of a chip that has just been powered. -/
def idle (rawLen : Nat) : Latches where
  phase := none
  address := []
  column := 0
  row := 0
  cache := Bytes.erased rawLen
  cacheRow := none
  output := .nothing
  cursor := 0
  pending := none
  status := statusReady

/-- Expect address bytes. -/
def openPhase (latches : Latches) (phase : AddressPhase) : Latches :=
  { latches with phase := some phase, address := [] }

/-- Expect the identification address and then deliver the identification. -/
def showId (latches : Latches) : Latches :=
  { latches.openPhase .readId with output := .id, cursor := 0 }

/-- Start collecting a page. -/
def collect (latches : Latches) (rawLen : Nat) : Latches :=
  { latches.openPhase .program with
    pending := some { row := 0, buffer := Bytes.erased rawLen, cursor := 0, ecc := false } }

/-- Deliver the page register from the latched column on. -/
def showPage (latches : Latches) : Latches :=
  { latches with output := .page, cursor := latches.column }

/-- Load the page register from the latched row, and deliver it. -/
def load (latches : Latches) (content : Bytes) : Latches :=
  { latches with cache := content, cacheRow := some latches.row }.showPage

/-- Deliver the status byte. -/
def showStatus (latches : Latches) : Latches :=
  { latches with output := .status }

/-- Abandon the address phase and the page being collected. -/
def reset (latches : Latches) : Latches :=
  { latches with
    phase := none, address := [], output := .nothing, pending := none, status := statusReady }

/-- Let the latched address take effect on the page being collected. -/
def retarget (latches : Latches) (phase : AddressPhase) : Latches :=
  match phase, latches.pending with
  | .program, some pending =>
    { latches with pending := some { pending with row := latches.row, cursor := latches.column } }
  | .columnWrite, some pending =>
    { latches with pending := some { pending with cursor := latches.column } }
  | _, _ => latches

/-- End an address phase on a chip with `rowCycles` row cycles, and latch column and row. -/
def endAddress (latches : Latches) (rowCycles : Nat) : Except Crash Latches := do
  let bytes := latches.address
  let some phase := latches.phase | .error .strayAddress
  let columns := phase.columnCycles
  let rows := if phase.hasRow then rowCycles else 0
  if bytes.length ≠ columns + rows then
    .error (.addressCycles phase.command)
  let latches := { latches with address := [] }
  if phase = .readId then
    return latches
  let latches :=
    if columns = 2 then { latches with column := addressValue (bytes.take columns) } else latches
  let latches :=
    if rows > 0 then { latches with row := addressValue (bytes.drop columns) } else latches
  return latches.retarget phase

/-- One address byte. -/
def pushAddress (latches : Latches) (byte : UInt8) : Latches :=
  { latches with address := latches.address ++ [byte] }

/-- One byte from the data register. -/
def readByte (latches : Latches) (id : IdBytes) : UInt8 × Latches :=
  let next := { latches with cursor := latches.cursor + 1 }
  match latches.output with
  | .nothing => (erasedByte, next)
  | .page => (latches.cache.getD latches.cursor erasedByte, next)
  | .id => (id.toArray.getD latches.cursor 0, next)
  | .status => (latches.status, latches)

/-- One byte to the data register; it is lost unless a page is being collected. -/
def writeByte (latches : Latches) (byte : UInt8) : Latches :=
  match latches.pending with
  | some pending =>
    { latches with
      pending := some { pending with
        buffer := pending.buffer.setIfInBounds pending.cursor byte
        cursor := pending.cursor + 1 } }
  | none => latches

/-- A started transfer fills the page being collected: the data from the cursor on, and the spare
bytes behind the page data. -/
def receive (latches : Latches) (data : Bytes) (spareStart : Nat) (spare : Bytes) (ecc : Bool) :
    Latches :=
  match latches.pending with
  | some pending =>
    { latches with
      pending := some { pending with
        buffer := (pending.buffer.overlay pending.cursor data).overlay spareStart spare
        ecc } }
  | none => latches

end Latches

end NandFlash.Sim
