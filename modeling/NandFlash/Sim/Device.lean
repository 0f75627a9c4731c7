import NandFlash.Bus
import NandFlash.Geometry.PowerOn
import NandFlash.Sim.Chip
import NandFlash.Sim.Engine
import NandFlash.Sim.FlashArray
import NandFlash.Sim.Latches
import NandFlash.Stream.Source

/-!
# The simulated device

A flash interface with one chip attached, as a `Bus`. It covers what a driver relies on: status
flags cleared by writing ones, self-clearing reset bits, the registers for commands, addresses
and data, start bits, the window, program and erase of the array, and the ECC stage. A driver
that breaks the chip's protocol crashes the device.
-/

namespace NandFlash.Sim

/-- What has gone to the command and address registers. -/
structure CycleLog where
  commands : Array UInt8
  addresses : Array UInt32
deriving DecidableEq, Repr

/-- A simulated device. -/
structure Device where
  chip : Chip
  array : FlashArray
  latches : Latches
  engine : Engine
  powerOn : PowerOnWords
  log : CycleLog

namespace Device

/-- Strap pins that leave strength and page size unset. -/
def unsetPins : UInt32 := 0xF0

/-- A freshly powered device with an erased chip. -/
def new (chip : Chip) : Except Crash Device := do
  let rawLen ← word64 chip.rawLen
  return {
    chip
    array := .blank
    latches := .idle rawLen
    engine := .idle
    powerOn := ⟨0, unsetPins⟩
    log := ⟨#[], #[]⟩ }

/-- Raw content of a page. -/
def rawPage (device : Device) (page : Nat) : Bytes :=
  device.array.content device.chip.rawLen page

/-! ## What can be done to a device from outside -/

/-- Set the power-on words. -/
def setPowerOn (device : Device) (words : PowerOnWords) : Device :=
  { device with powerOn := words }

/-- Flip bits of a stored byte. -/
def inject (device : Device) (page offset : Nat) (mask : UInt8) : Device :=
  { device with array := device.array.inject device.chip.rawLen page offset mask }

/-- Make every program and erase in a block fail. -/
def wearOut (device : Device) (block : Nat) : Device :=
  { device with array := device.array.wearOut block }

/-- Mark a block bad the way the factory does. -/
def markFactoryBad (device : Device) (block : Nat) : Except Crash Device := do
  let page ← word32 (block * device.chip.pagesPerBlock)
  return device.inject page device.chip.pageSize 0xFF

/-- Change the controller side. -/
def modifyEngine (device : Device) (change : Engine → Engine) : Device :=
  { device with engine := change device.engine }

/-- Let transfers hang, or stop doing so. -/
def setHang (device : Device) (hang : Bool) : Device :=
  device.modifyEngine fun engine => { engine with hang }

/-- Forget the log. -/
def clearLog (device : Device) : Device :=
  { device with log := ⟨#[], #[]⟩ }

/-- Replace the pages from `page` on, `count` of them, by the bytes of a source. -/
def loadPages (rawLen : Nat) : Nat → Nat → FlashArray → Source →
    Except StreamError Unit × FlashArray × Source
  | 0, _, array, source => (.ok (), array, source)
  | count + 1, page, array, source =>
    match source.fillExact rawLen with
    | (.error error, source) => (.error error, array, source)
    | (.ok content, source) =>
      let array :=
        if content.isErased then array
        else { array with pages := array.pages.insert page content }
      loadPages rawLen count (page + 1) array source

/-- Replace the whole array by a raw image. Loaded pages have no reference copy. -/
def load (source : Source) (device : Device) :
    Except Crash (Except StreamError Unit × Device × Source) := do
  let pages ← device.chip.pages
  let blank := { device.array with pages := ∅, reference := ∅ }
  let (outcome, array, source) := loadPages device.chip.rawLen pages 0 blank source
  return (outcome, { device with array }, source)

/-- Write the pages from `page` on, `count` of them. -/
def savePages (device : Device) : Nat → Nat → Sink → Except StreamError Unit × Sink
  | 0, _, sink => (.ok (), sink)
  | count + 1, page, sink =>
    match sink.write (device.rawPage page) with
    | (.error error, sink) => (.error error, sink)
    | (.ok (), sink) => savePages device count (page + 1) sink

/-- Write the whole array as a raw image. -/
def save (sink : Sink) (device : Device) : Except Crash (Except StreamError Unit × Sink) := do
  return savePages device (← device.chip.pages) 0 sink

/-! ## The command register -/

/-- Change the chip's latches. -/
def modifyLatches (device : Device) (change : Latches → Latches) : Device :=
  { device with latches := change device.latches }

/-- End a program or erase. -/
def report (device : Device) (success : Bool) : Device :=
  device.modifyLatches fun latches =>
    { latches with status := if success then Latches.statusReady else Latches.statusFailed }

/-- Program the collected page. -/
def program (device : Device) : Except Crash Device := do
  let some pending := device.latches.pending
    | return device.report false
  let device := device.modifyLatches fun latches => { latches with pending := none }
  let block ← quotient pending.row device.chip.pagesPerBlock
  if (← device.chip.pages) ≤ pending.row then
    return device.report false
  let isWorn := device.array.failing.contains block
  let device := { device with
    array := device.array.program device.chip.rawLen pending.row pending.buffer
      (pending.ecc && !isWorn) }
  return device.report !isWorn

/-- Erase the block of the latched row. -/
def erase (device : Device) : Except Crash Device := do
  let pagesPerBlock := device.chip.pagesPerBlock
  let block ← quotient device.latches.row pagesPerBlock
  if device.chip.blocks ≤ block ∨ device.array.failing.contains block then
    return device.report false
  let first ← word32 (block * pagesPerBlock)
  discard (word32 ((block + 1) * pagesPerBlock))
  return { device with array := device.array.erase first pagesPerBlock }.report true

/-- A known command for the chip. -/
def execute (device : Device) (command : Command) : Except Crash Device := do
  match command with
  | .read => return device.modifyLatches (·.openPhase .read)
  | .columnRead => return device.modifyLatches (·.openPhase .columnRead)
  | .columnWrite => return device.modifyLatches (·.openPhase .columnWrite)
  | .eraseSetup => return device.modifyLatches (·.openPhase .erase)
  | .readId => return device.modifyLatches (·.showId)
  | .programSetup =>
    let rawLen := device.chip.rawLen
    return device.modifyLatches (·.collect rawLen)
  | .readConfirm =>
    let content := device.rawPage device.latches.row
    return device.modifyLatches (·.load content)
  | .columnReadConfirm => return device.modifyLatches (·.showPage)
  | .program | .programCached => device.program
  | .erase => device.erase
  | .status => return device.modifyLatches (·.showStatus)
  | .reset => return device.modifyLatches (·.reset)
  | .readSpare => .error .spareCommand

/-- A byte to the command register; an unknown one is ignored. -/
def writeCommand (device : Device) (opcode : UInt8) : Except Crash Device :=
  let device := { device with
    log := { device.log with commands := device.log.commands.push opcode } }
  match Command.ofCode? opcode with
  | some command => device.execute command
  | none => .ok device

/-! ## The address register -/

/-- A word to the address register: a byte, and a mark on the last one of a phase. -/
def writeAddress (device : Device) (value : UInt32) : Except Crash Device := do
  let device := { device with
    log := { device.log with addresses := device.log.addresses.push value }
    latches := device.latches.pushAddress value.toUInt8 }
  if value &&& Bits.lastAddress != 0 then
    let rowCycles ← device.chip.rowCycles
    let latches ← device.latches.endAddress rowCycles
    return { device with latches }
  else
    return device

/-! ## Transfers -/

/-- A transfer to flash fills the page being collected. -/
def receive (device : Device) (data : Bytes) : Device :=
  let engine := device.engine
  let page := engine.page.bytes
  let isAuto := engine.register Register.control &&& Bits.spareAutoWrite != 0
  let geometry? := engine.geometry?
  let window := match geometry? with
    | some g => if isAuto then Engine.generateParity g engine.spareSize data engine.window
      else engine.window
    | none => engine.window
  let spare := if isAuto then window.toArray.extract 0 engine.spareSize else #[]
  { device with
    latches := device.latches.receive (data.extract 0 page) page spare geometry?.isSome
    engine := { engine with window }.raise Bits.transferDone }

/-- A transfer from flash fills a buffer from the page register, as far as both reach, and queues
the damage found. -/
def deliver (device : Device) (data : Bytes) : Bytes × Device :=
  let cache := device.latches.cache
  let reference? := device.latches.cacheRow.bind fun row => device.array.reference[row]?
  let filled := data.overlay 0 (cache.extract 0 device.engine.page.bytes)
  let reports := device.engine.findDamage cache reference?
  (filled, device.modifyEngine fun engine => { engine with reports, reading := true }.presentNext)

/-- Serve a started transfer with a buffer to be programmed. A hanging engine serves nothing; a
start bit for the other direction is dropped. -/
def dmaToDevice (data : Bytes) : Action Device Unit := do
  let device ← get
  if !device.engine.hang then
    let served := device.modifyEngine fun engine => { engine with transfer := none }
    set (if device.engine.transfer = some .toFlash then served.receive data else served)

/-- Serve a started transfer with a buffer to be filled. -/
def dmaFromDevice (data : Bytes) : Action Device Bytes := do
  let device ← get
  if device.engine.hang then
    return data
  let served := device.modifyEngine fun engine => { engine with transfer := none }
  if device.engine.transfer = some .fromFlash then
    let (data, device) := served.deliver data
    set device
    return data
  else
    set served
    return data

/-! ## Register accesses -/

/-- A byte from the data register. -/
def readData : Action Device UInt8 := fun device =>
  let (byte, latches) := device.latches.readByte device.chip.id
  .ok (byte, { device with latches })

/-- Read a 32-bit register. -/
def read32 (offset : Nat) : Action Device UInt32 := do
  if offset = Register.status then
    return (← get).engine.register offset ||| Bits.ready
  else if offset = Register.data then
    return (← readData).toUInt32
  else
    let engine := (← get).engine
    match Window.index? offset 4 with
    | some i => return engine.window.word i
    | none => return engine.register offset

/-- Write a 32-bit register. -/
def write32 (offset : Nat) (value : UInt32) : Action Device Unit := fun device => do
  if offset = Register.dmaControl then
    return ((), device.modifyEngine (·.writeDmaControl value))
  else if offset = Register.control then
    return ((), device.modifyEngine (·.writeControl value))
  else if offset = Register.status then
    return ((), device.modifyEngine (·.acknowledge value))
  else if offset = Register.command then
    return ((), ← device.writeCommand value.toUInt8)
  else if offset = Register.address then
    return ((), ← device.writeAddress value)
  else if offset = Register.data then
    return ((), device.modifyLatches (·.writeByte value.toUInt8))
  else
    match Window.index? offset 4 with
    | some i =>
      return ((), device.modifyEngine fun engine =>
        { engine with window := engine.window.setWord i value })
    | none => return ((), device.modifyEngine (·.setRegister offset value))

/-- Read a byte: of the window, or else the low byte of a register. -/
def read8 (offset : Nat) : Action Device UInt8 := do
  match Window.index? offset 1 with
  | some i => return (← get).engine.window.byte i
  | none => return (← read32 offset).toUInt8

/-- Write a byte: of the window, or else a register. -/
def write8 (offset : Nat) (value : UInt8) : Action Device Unit :=
  match Window.index? offset 1 with
  | some i => modify fun device => device.modifyEngine fun engine =>
      { engine with window := engine.window.setByte i value }
  | none => write32 offset value.toUInt32

/-- The address under which every buffer is reached. -/
def bufferAddress : UInt32 := 0x80000000

instance : Bus Device where
  read32 := read32
  write32 := write32
  read8 := read8
  write8 := write8
  dmaAddress _ := return bufferAddress
  dmaToDevice := dmaToDevice
  dmaFromDevice := dmaFromDevice
  delay _ := return

instance : PowerOnSource Device where
  nonvolatile := return (← get).powerOn.nonvolatile
  pins := return (← get).powerOn.pins

end Device

end NandFlash.Sim
