import NandFlash.Buffer
import NandFlash.Controller.Probe

/-!
# Operations of the controller

Page programs and reads go through the transfer engine; spare areas, identification, status and
bad block markers move byte by byte through the data register.

Where an operation changes a buffer of the caller's even when it fails, it returns the buffer
next to its outcome.
-/

namespace NandFlash.Controller

variable {α β : Type}

/-- An action on the channel. -/
def onChannel (action : Action (Channel β) α) : Action (Controller β) α :=
  fun ⟨profile, channel, staging, stats⟩ => do
    let (value, channel) ← action channel
    return (value, ⟨profile, channel, staging, stats⟩)

/-- An attempt on the channel. -/
def tryOnChannel {ε : Type} (attempt : Attempt ε (Channel β) α) : Attempt ε (Controller β) α :=
  ExceptT.mk (onChannel attempt.run)

/-- An action on the bus. -/
def onBus (action : Action β α) : Action (Controller β) α :=
  onChannel (Channel.onBus action)

/-- An attempt on the bus. -/
def tryOnBus {ε : Type} (attempt : Attempt ε β α) : Attempt ε (Controller β) α :=
  ExceptT.mk (onBus attempt.run)

/-- What probing has found out. -/
def getProfile {ε : Type} : Attempt ε (Controller β) Profile :=
  return (← get).profile

/-- The engine setup of every page transfer. -/
def setup (profile : Profile) : TransferSetup :=
  ⟨profile.geometry.strength, profile.geometry.spareSize⟩

/-- Refuse a page beyond the device. -/
def requirePage (page : Nat) : Attempt Error (Controller β) Unit := do
  let pages ← (← getProfile).chip.pages
  unless page < pages do
    throw (.outOfRange .page page)

/-- Refuse a block beyond the device. -/
def requireBlock (block : Nat) : Attempt Error (Controller β) Unit := do
  let blocks ← (← getProfile).chip.blocks
  unless block < blocks do
    throw (.outOfRange .block block)

/-- Refuse a buffer of the wrong size. -/
def requireSize (buffer : BufferKind) (found expected : Nat) :
    Attempt Error (Controller β) Unit := do
  unless found = expected do
    throw (.bufferSize buffer expected found)

variable [Bus β]

/-! ## Commands and the data register -/

/-- Send a command; column and row go out when they are given. The small-page spare command
becomes a read at a column behind the page data. -/
def command (command : Command) (column row : Option Nat) : Attempt Error (Controller β) Unit := do
  let profile ← getProfile
  match command with
  | .readSpare =>
    let column ← word64 (column.getD 0 + profile.geometry.pageBytes)
    tryOnBus (Framing.send profile.poll profile.chip.rowCycles .read (some column) row)
  | _ => tryOnBus (Framing.send profile.poll profile.chip.rowCycles command column row)

/-- Read bytes from the data register. -/
def readBuffer (count : Nat) : Action (Controller β) Bytes :=
  onBus (Framing.readData count)

/-- Write bytes to the data register. -/
def writeBuffer (bytes : Bytes) : Action (Controller β) Unit :=
  onBus (Framing.writeData bytes)

/-- Ask for the identification bytes. -/
def readId : Attempt Error (Controller β) IdBytes := do
  tryOnBus (Framing.readId (← getProfile).poll)

/-- Reset the chip. -/
def reset : Attempt Error (Controller β) Unit :=
  command .reset none none

/-- Ask for the status byte. -/
def status : Attempt Error (Controller β) UInt8 := do
  command .status none none
  perform (onBus Framing.readByte)

/-- The bit of the status byte that says that a program or erase has failed. -/
def statusFail : UInt8 := 0x01

/-- Wait for the ready line and fail with `failure` if the chip says so. -/
def awaitSuccess (failure : Error) : Attempt Error (Controller β) Unit := do
  tryOnBus (Framing.waitReady (← getProfile).poll)
  if (← status) &&& statusFail != 0 then
    throw failure

/-! ## The staging area -/

/-- Fill the staging area and copy it into the window. -/
def stage (fill : StagingArea → StagingArea) : Action (Controller β) Unit :=
  fun ⟨profile, ⟨state, bus⟩, staging, stats⟩ => do
    let staging := fill staging
    let (_, bus) ← staging.store bus
    return ((), ⟨profile, ⟨state, bus⟩, staging, stats⟩)

/-- Copy the window into the staging area, and answer the area. -/
def unstage : Action (Controller β) Bytes :=
  fun ⟨profile, ⟨state, bus⟩, staging, stats⟩ => do
    let (staging, bus) ← staging.load bus
    return (staging.bytes, ⟨profile, ⟨state, bus⟩, staging, stats⟩)

/-! ## Pages -/

/-- Everything of a page program up to the end of its transfer; answers the generated parity. -/
def fillPage (page : Nat) (data spare : Bytes) : Attempt Error (Controller β) Bytes := do
  requirePage page
  let profile ← getProfile
  requireSize .page data.size profile.geometry.pageBytes
  requireSize .spare spare.size profile.geometry.spareSize
  let parityStart := profile.layout.parityStart
  command .programSetup (some 0) (some page)
  let user ← spare.slice 0 parityStart
  perform (stage fun staging => staging.fillErased.overlay user)
  tryOnChannel (Channel.write profile.poll (setup profile) data)
  let staged ← perform unstage
  staged.slice parityStart staged.size

/-- Program what has been transferred. -/
def commitPage (page : Nat) : Attempt Error (Controller β) Unit := do
  command .program none none
  awaitSuccess (.programFailed page)

/-- Program one page with ECC. The spare buffer comes back with the parity that was generated, or
as it was if the transfer failed. -/
def writePage (page : Nat) (data spare : Bytes) :
    Action (Controller β) (Except Error Unit × Bytes) := do
  let parityStart := (← get).profile.layout.parityStart
  match ← (fillPage page data spare).run with
  | .error error => return (.error error, spare)
  | .ok parity =>
    let spare ← spare.replaceFrom parityStart parity
    let outcome ← (commitPage page).run
    return (outcome, spare)

/-- Read the spare area of a page, which also goes into the window. -/
def readSpare (page : Nat) (spareLen : Nat) : Attempt Error (Controller β) Bytes := do
  requirePage page
  requireSize .spare spareLen (← getProfile).geometry.spareSize
  command .readSpare (some 0) (some page)
  let spare ← perform (readBuffer spareLen)
  perform (stage fun staging => staging.overlay spare)
  return spare

/-- Outcome of a page read, with the buffers as they were left. -/
structure PageRead where
  outcome : Except Error (List FieldReport)
  data : Bytes
  spare : Bytes

/-- A complete transfer from flash into `data`. -/
def transferIn (page : Nat) (data : Bytes) :
    Action (Controller β) (Except Error (List FieldReport) × Bytes) :=
  fun ⟨profile, channel, staging, stats⟩ => do
    let (outcome, reading) ←
      (Reading.read profile.poll (setup profile) profile.geometry page).run
        ⟨channel, data, stats, []⟩
    return ((outcome, reading.data), ⟨profile, reading.channel, staging, reading.stats⟩)

/-- Read one page and repair it in place. The spare buffer receives the spare area with its own
repairs. -/
def readPage (page : Nat) (data spare : Bytes) : Action (Controller β) PageRead := do
  let pageBytes := (← get).profile.geometry.pageBytes
  match ← (do requireSize .page data.size pageBytes; readSpare page spare.size).run with
  | .error error => return ⟨.error error, data, spare⟩
  | .ok spare =>
    match ← (command .read (some 0) (some page)).run with
    | .error error => return ⟨.error error, data, spare⟩
    | .ok () =>
      let (outcome, data) ← transferIn page data
      let spare ← spare.replaceFrom 0 (← unstage)
      return ⟨outcome, data, spare⟩

/-! ## Blocks -/

/-- Row of the first page of a block. -/
def firstRow (block : Nat) : Attempt Error (Controller β) Nat := do
  let pagesPerBlock ← (← getProfile).chip.pagesPerBlock
  word32 (block * pagesPerBlock)

/-- Erase a block. -/
def eraseBlock (block : Nat) : Attempt Error (Controller β) Unit := do
  requireBlock block
  let row ← firstRow block
  command .eraseSetup none (some row)
  command .erase none none
  awaitSuccess (.eraseFailed block)

/-- Does the first page of a block carry a bad block marker? -/
def isBad (block : Nat) : Attempt Error (Controller β) Bool := do
  requireBlock block
  let row ← firstRow block
  command .readSpare (some 0) (some row)
  return (← perform (onBus Framing.readByte)) != erasedByte

/-- The bytes of a bad block marker. -/
def badBlockMarker : Bytes := #[0x00, 0x00]

/-- Write a bad block marker. -/
def markBad (block : Nat) : Attempt Error (Controller β) Unit := do
  requireBlock block
  let row ← firstRow block
  let column := (← getProfile).geometry.pageBytes
  command .programSetup (some column) (some row)
  perform (writeBuffer badBlockMarker)
  command .program none none
  awaitSuccess (.programFailed row)

end NandFlash.Controller
