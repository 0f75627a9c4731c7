import NandFlash.Geometry.Basic
import NandFlash.Text

/-!
# Errors of the controller

Every way in which a controller operation can fail while the device goes on, and the one place
where the wording is chosen.
-/

namespace NandFlash

/-- State of the transfer engine. -/
inductive DmaState where
  | idle
  | resetRequested
  | armed
  | running
  | completed
  | aborted
deriving DecidableEq, Repr, Inhabited

/-- The name used in messages. -/
def DmaState.name : DmaState → String
  | idle => "Idle"
  | resetRequested => "ResetRequested"
  | armed => "Armed"
  | running => "Running"
  | completed => "Completed"
  | aborted => "Aborted"

/-- What a busy-wait is waiting for. -/
inductive Awaited where
  | controllerReset
  | deviceReady
  | engineIdle
  | engineReset
  | transferOut
  | transferIn
  /-- A condition of the caller's own. -/
  | condition (name : String)
deriving DecidableEq, Repr

/-- The name used in messages. -/
def Awaited.name : Awaited → String
  | controllerReset => "controller reset"
  | deviceReady => "device ready"
  | engineIdle => "DMA engine idle"
  | engineReset => "DMA engine reset"
  | transferOut => "DMA write"
  | transferIn => "DMA read"
  | condition name => name

/-- A buffer handed over by the caller. -/
inductive BufferKind where
  | page
  | spare
deriving DecidableEq, Repr

/-- The name used in messages. -/
def BufferKind.name : BufferKind → String
  | page => "page"
  | spare => "oob"

/-- What an index counts. -/
inductive IndexKind where
  | page
  | block
deriving DecidableEq, Repr

/-- The name used in messages. -/
def IndexKind.name : IndexKind → String
  | page => "page"
  | block => "block"

/-- Failure of a controller operation. -/
inductive Error where
  | geometry (error : GeometryError)
  /-- A field has more damage than its code repairs; the page is lost. -/
  | uncorrectable (page field : Nat)
  | timeout (awaited : Awaited)
  | programFailed (page : Nat)
  | eraseFailed (block : Nat)
  /-- A transfer step was asked for in the wrong state. -/
  | dmaState (expected found : DmaState)
  | bufferSize (buffer : BufferKind) (expected found : Nat)
  | outOfRange (kind : IndexKind) (index : Nat)
  | unknownDevice (maker device : UInt8)
  | unsupportedBusWidth
  /-- Too few identification bytes. -/
  | malformedId
deriving DecidableEq, Repr

/-- The text of an error. -/
def Error.message : Error → String
  | geometry error => error.message
  | uncorrectable page field => s!"uncorrectable ECC error in field {field} of page {page}"
  | timeout awaited => s!"device timed out waiting for {awaited.name}"
  | programFailed page => s!"program failed on page {page}"
  | eraseFailed block => s!"erase failed on block {block}"
  | dmaState expected found => s!"DMA engine is {found.name}, expected {expected.name}"
  | bufferSize buffer expected found =>
    s!"{buffer.name} buffer is {found} bytes, expected {expected}"
  | outOfRange kind index => s!"{kind.name} {index} out of range"
  | unknownDevice maker device =>
    "unknown NAND device 0x" ++ hexPadded 2 maker.toNat ++ ":0x" ++ hexPadded 2 device.toNat
  | unsupportedBusWidth => "16-bit NAND bus is not supported"
  | malformedId => "malformed device ID"

end NandFlash
