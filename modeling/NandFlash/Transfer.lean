import NandFlash.Bus
import NandFlash.Ecc.Correction
import NandFlash.Error
import NandFlash.Poll

/-!
# The transfer engine

Pages move through a DMA engine that is driven step by step and watched by polling:

```text
idle -> resetRequested -> armed -> running -> completed -> idle
                                      |                     ^
                                      +----> aborted -------+
```

`Channel` pairs the state of the engine with the bus it is reached by. A step taken in the wrong
state is refused without touching the bus. The complete transfers `Channel.write` and
`Reading.read` bring the engine back to `idle` however they end.
-/

namespace NandFlash

/-- Outcomes of error correction, kept across transfers. -/
structure EccStats where
  /-- Bytes repaired. -/
  corrected : Nat
  /-- Pages lost. -/
  failed : Nat
deriving DecidableEq, Repr, Inhabited

/-- What the engine is set up with before a transfer. -/
structure TransferSetup where
  strength : Strength
  /-- Bytes of the window that take part. -/
  spareSize : Nat
deriving DecidableEq, Repr

/-- The engine and the bus it is reached by. -/
structure Channel (β : Type) where
  state : DmaState
  bus : β

namespace Channel

variable {α β : Type}

/-- An action on the bus. -/
def onBus (action : Action β α) : Action (Channel β) α := fun ⟨state, bus⟩ => do
  let (value, bus) ← action bus
  return (value, ⟨state, bus⟩)

/-- An attempt on the bus. -/
def tryOnBus {ε : Type} (attempt : Attempt ε β α) : Attempt ε (Channel β) α :=
  ExceptT.mk (onBus attempt.run)

/-- Refuse to go on unless the engine is in a given state. -/
def expect (expected : DmaState) : Attempt Error (Channel β) Unit := do
  let found := (← get).state
  if found != expected then
    throw (.dmaState expected found)

/-- Note a new state of the engine. -/
def enter (state : DmaState) : Action (Channel β) Unit :=
  modify fun channel => { channel with state }

variable [Bus β]

/-- Wait for the engine to be idle and reset it. -/
def reset (poll : Poll) : Attempt Error (Channel β) Unit := do
  expect .idle
  perform (enter .resetRequested)
  tryOnBus do
    poll.wait .engineIdle (perform (Bus.allClear Register.dmaControl Bits.dmaBusy))
    perform (Bus.setBits Register.dmaControl (Bits.dmaEnable ||| Bits.dmaReset))
    poll.wait .engineReset (perform (Bus.allClear Register.dmaControl Bits.dmaReset))

/-- The register writes that prepare a transfer of `data`. -/
def prepare (setup : TransferSetup) (data : Bytes) : Action β Unit := do
  Bus.write32 Register.status Bits.transferDone
  Bus.clearBits Register.interrupts Bits.doneInterrupt
  let address ← Bus.dmaAddress data
  Bus.write32 Register.dmaAddress address
  Bus.write32 Register.dmaInterrupts Bits.targetAbort
  Bus.write32 Register.status Bits.readyEdge
  Bus.configureEcc setup.strength.selectBits?
  Bus.write32 Register.spareSize (UInt32.ofNat setup.spareSize)
  Bus.clearBits Register.interrupts Bits.eccInterrupt
  Bus.write32 Register.status Bits.eccEvent
  Bus.replaceBits Register.control Bits.chipSelectMask Bits.chipSelect0

/-- Set the engine up for a transfer of `data`, short of starting it. -/
def arm (setup : TransferSetup) (data : Bytes) : Attempt Error (Channel β) Unit := do
  expect .resetRequested
  perform (onBus (prepare setup data))
  perform (enter .armed)

/-- Clear a marker byte of the window if it is still erased. -/
def clearMarker (offset : Nat) : Action β Unit := do
  if (← Bus.read8 offset) == erasedByte then
    Bus.write8 offset 0

/-- Program `data` and the window, and wait for the end. The page is marked as written. -/
def runWrite (poll : Poll) (data : Bytes) : Attempt Error (Channel β) Unit := do
  expect .armed
  perform (enter .running)
  tryOnBus do
    perform (clearMarker (Register.window + 3))
    perform (clearMarker (Register.window + 2))
    perform (Bus.setBits Register.control Bits.startWrite)
    perform (Bus.dmaToDevice data)
    poll.wait .transferOut (perform (Bus.anySet Register.status Bits.transferDone))
  perform (enter .completed)

/-- Acknowledge the end of a transfer. -/
def acknowledge : Action (Channel β) Unit := do
  onBus (Bus.write32 Register.status Bits.transferDone)
  enter .idle

/-- Leave a finished transfer. -/
def finish : Attempt Error (Channel β) Unit := do
  let found := (← get).state
  if found != .completed && found != .aborted then
    throw (.dmaState .completed found)
  perform acknowledge

/-- Give up a transfer whose page is lost. -/
def abandon : Action (Channel β) Unit := do
  onBus do
    Bus.write32 Register.status Bits.eccEvent
    Bus.write32 Register.dmaControl (Bits.dmaEnable ||| Bits.dmaReset)
    Bus.setBits Register.control Bits.reset
  enter .aborted

/-- Force engine and controller back to a known state. -/
def recover : Action (Channel β) Unit := do
  onBus do
    Bus.write32 Register.dmaControl (Bits.dmaEnable ||| Bits.dmaReset)
    Bus.setBits Register.control Bits.reset
    Bus.write32 Register.status (Bits.transferDone ||| Bits.eccEvent)
  enter .idle

/-- Bring the engine back to `idle` however a transfer ended. -/
def settle : Action (Channel β) Unit := do
  match (← get).state with
  | .idle => return
  | .completed | .aborted => acknowledge
  | .resetRequested | .armed | .running => recover

/-- The steps of a transfer to flash. -/
def writeSteps (poll : Poll) (setup : TransferSetup) (data : Bytes) :
    Attempt Error (Channel β) Unit := do
  reset poll
  arm setup data
  runWrite poll data

/-- A complete transfer to flash. -/
def write (poll : Poll) (setup : TransferSetup) (data : Bytes) :
    Attempt Error (Channel β) Unit := do
  expect .idle
  ExceptT.mk do
    let result ← (writeSteps poll setup data).run
    settle
    return result

end Channel

/-- A transfer from flash: the channel, the buffer being filled, and what correction has come to.
All of it outlives a failure. -/
structure Reading (β : Type) where
  channel : Channel β
  data : Bytes
  stats : EccStats
  /-- Repairs of this transfer, in the order they were made. -/
  reports : List FieldReport

namespace Reading

variable {α β : Type}

/-- An action on the channel. -/
def onChannel (action : Action (Channel β) α) : Action (Reading β) α :=
  fun ⟨channel, data, stats, reports⟩ => do
    let (value, channel) ← action channel
    return (value, ⟨channel, data, stats, reports⟩)

/-- An attempt on the channel. -/
def tryOnChannel {ε : Type} (attempt : Attempt ε (Channel β) α) : Attempt ε (Reading β) α :=
  ExceptT.mk (onChannel attempt.run)

/-- An action on the bus. -/
def onBus (action : Action β α) : Action (Reading β) α :=
  onChannel (Channel.onBus action)

variable [Bus β]

/-- Hand the buffer to the started engine. -/
def receive : Action (Reading β) Unit := fun ⟨⟨state, bus⟩, data, stats, reports⟩ => do
  let (data, bus) ← Bus.dmaFromDevice data bus
  return ((), ⟨⟨state, bus⟩, data, stats, reports⟩)

/-- Repair the buffer and the window as the status words ask. -/
def correctFields (g : Geometry) : Action (Reading β) (Except LostField (List FieldReport)) :=
  fun ⟨⟨state, bus⟩, data, stats, reports⟩ => do
    match ← (Ecc.correct g data).run bus with
    | (.ok (fixed, data), bus) => return (.ok fixed, ⟨⟨state, bus⟩, data, stats, reports⟩)
    | (.error lost, bus) => return (.error lost, ⟨⟨state, bus⟩, data, stats, reports⟩)

/-- Book repairs that have been made. -/
def credit (fixed : List FieldReport) (reading : Reading β) : Reading β :=
  let repaired := (fixed.flatMap (·.corrections)).length
  { reading with
    stats := { reading.stats with corrected := reading.stats.corrected + repaired }
    reports := reading.reports ++ fixed }

/-- Book a lost page. -/
def debit (reading : Reading β) : Reading β :=
  { reading with stats := { reading.stats with failed := reading.stats.failed + 1 } }

/-- Deal with one ECC event: repair and acknowledge, or give the page up. -/
def repair (g : Geometry) (page : Nat) : Attempt Error (Reading β) Unit := do
  match ← perform (correctFields g) with
  | .ok fixed =>
    modify (credit fixed)
    perform (onBus (Bus.write32 Register.status Bits.eccEvent))
  | .error lost =>
    modify debit
    perform (onChannel Channel.abandon)
    throw (.uncorrectable page lost.field)

/-- One look at the status flags, with a repair if one is asked for. Answers whether the transfer
is over: done, and no ECC event pending. -/
def look (g : Geometry) (page : Nat) : Attempt Error (Reading β) Bool := do
  if ← perform (onBus (Bus.anySet Register.status Bits.eccEvent)) then
    repair g page
  let status ← perform (onBus (Bus.read32 Register.status))
  return status &&& Bits.transferDone != 0 && status &&& Bits.eccEvent == 0

/-- Read a page into the buffer, repairing fields as the engine reports them. -/
def runRead (poll : Poll) (g : Geometry) (page : Nat) :
    Attempt Error (Reading β) (List FieldReport) := do
  tryOnChannel (Channel.expect .armed)
  perform (onChannel (Channel.enter .running))
  perform (onBus (Bus.setBits Register.control Bits.startRead))
  perform receive
  if ← perform (onBus (Bus.allClear Register.control Bits.eccCheck)) then
    poll.wait .transferIn (perform (onBus (Bus.anySet Register.status Bits.transferDone)))
  else
    poll.wait .transferIn (look g page)
  perform (onChannel (Channel.enter .completed))
  return (← get).reports

/-- The steps of a transfer from flash. -/
def readSteps (poll : Poll) (setup : TransferSetup) (g : Geometry) (page : Nat) :
    Attempt Error (Reading β) (List FieldReport) := do
  tryOnChannel (Channel.reset poll)
  let data := (← get).data
  tryOnChannel (Channel.arm setup data)
  runRead poll g page

/-- A complete transfer from flash. -/
def read (poll : Poll) (setup : TransferSetup) (g : Geometry) (page : Nat) :
    Attempt Error (Reading β) (List FieldReport) := do
  tryOnChannel (Channel.expect .idle)
  ExceptT.mk do
    let result ← (readSteps poll setup g page).run
    onChannel Channel.settle
    return result

end Reading

end NandFlash
