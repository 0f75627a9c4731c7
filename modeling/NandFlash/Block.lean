import NandFlash.Controller.Operations
import NandFlash.Stream.Source

/-!
# The device as blocks

A block is a run of pages that is erased as a whole and may be marked bad. Reads and programs
take a whole number of pages and are checked against the end of the block before anything is
sent to the device.
-/

namespace NandFlash

/-- A request that is refused before the device is asked. -/
inductive Refusal where
  | noSuchBlock (index : Nat)
  /-- A buffer is not a whole number of pages. -/
  | partialPage
  /-- Pages beyond the end of the block. -/
  | beyondBlock (block first stop : Nat)
  | imageTooLarge
  | noSuchBlocks (first stop : Nat)
deriving DecidableEq, Repr

/-- The text of a refusal. -/
def Refusal.message : Refusal → String
  | noSuchBlock index => s!"block {index} out of range"
  | partialPage => "buffer not multiple of page size"
  | beyondBlock block first stop =>
    s!"block {block}, page range {first}..{stop} out of bounds"
  | imageTooLarge => "image does not fit in the device"
  | noSuchBlocks first stop => s!"blocks {first}..{stop} out of range"

/-- Failure of a block or image operation. -/
inductive Failure where
  | device (error : Error)
  /-- The error came up while a page was read. -/
  | reading (page : Nat) (error : Error)
  /-- The error came up while a page was programmed. -/
  | programming (page : Nat) (error : Error)
  | refused (refusal : Refusal)
  | stream (error : StreamError)
deriving DecidableEq, Repr

/-- What was being done when the failure came up, if that is worth saying. -/
def Failure.context? : Failure → Option String
  | reading page _ => some s!"reading page {page}"
  | programming page _ => some s!"programming page {page}"
  | device _ | refused _ | stream _ => none

/-- The failure itself, without its context. -/
def Failure.cause : Failure → String
  | device error | reading _ error | programming _ error => error.message
  | refused refusal => refusal.message
  | stream error => error.message

/-- Dimensions of a device as blocks. -/
structure BlockLayout where
  blocks : Nat
  pagesPerBlock : Nat
  pageBytes : Nat
  /-- Spare bytes per page, as the controller uses them. -/
  spareBytes : Nat
deriving DecidableEq, Repr

/-- Data bytes of a block. -/
def BlockLayout.blockBytes (layout : BlockLayout) : Except Crash Nat :=
  word64 (layout.pagesPerBlock * layout.pageBytes)

/-- Data bytes of blocks `first` to `stop`, exclusive, if the device has them. -/
def BlockLayout.rangeBytes (layout : BlockLayout) (first stop : Nat) : Nat :=
  if stop ≤ layout.blocks then (stop - first) * (layout.pagesPerBlock * layout.pageBytes) else 0

/-- A good block. -/
structure Block where
  index : Nat
deriving DecidableEq, Repr

namespace Controller

variable {α β : Type}

/-- A controller operation as part of a block operation. -/
def device (attempt : Attempt Error (Controller β) α) : Attempt Failure (Controller β) α :=
  attempt.adapt .device

/-- The device as blocks. -/
def blockLayout : Action (Controller β) BlockLayout := do
  let profile := (← get).profile
  let blocks ← profile.chip.blocks
  let pagesPerBlock ← profile.chip.pagesPerBlock
  return ⟨blocks, pagesPerBlock, profile.geometry.pageBytes, profile.geometry.spareSize⟩

/-- Look a block up; a bad one is not handed out. -/
def block? [Bus β] (index : Nat) : Attempt Failure (Controller β) (Option Block) := do
  let layout ← perform blockLayout
  unless index < layout.blocks do
    throw (.refused (.noSuchBlock index))
  if ← device (isBad index) then
    return none
  else
    return some ⟨index⟩

end Controller

namespace Block

variable {β : Type}

/-- The device pages that `bytes` bytes from page `start` of the block on take up. -/
def pagesFor (block : Block) (start bytes : Nat) : Attempt Failure (Controller β) (List Nat) := do
  let layout ← perform Controller.blockLayout
  unless bytes % layout.pageBytes = 0 do
    throw (.refused .partialPage)
  let stop ← word32 (start + bytes / layout.pageBytes % UInt32.size)
  unless stop ≤ layout.pagesPerBlock do
    throw (.refused (.beyondBlock block.index start stop))
  let base ← word32 (block.index * layout.pagesPerBlock)
  discard (word32 (base + stop))
  return List.range' (base + start) (stop - start)

variable [Bus β]

/-- Read pages one by one into the pieces of a buffer, each page with the number of its piece. The
answer holds the pieces that have been tried: all of them, or those up to the first failure. -/
def readPages (g : Geometry) (buffer : Bytes) :
    List (Nat × Nat) → Action (Controller β) (Except Failure Unit × List Bytes)
  | [] => return (.ok (), [])
  | (page, i) :: rest => do
    let result ←
      Controller.readPage page (buffer.piece g.pageBytes i) (Bytes.filled g.spareSize 0)
    match result.outcome with
    | .error error => return (.error (.reading page error), [result.data])
    | .ok _ =>
      let (outcome, pieces) ← readPages g buffer rest
      return (outcome, result.data :: pieces)

/-- Read pages of a block from page `start` on, as many as the buffer holds. The buffer comes
back as far as it was filled. -/
def read (block : Block) (start : Nat) (buffer : Bytes) :
    Action (Controller β) (Except Failure Unit × Bytes) := do
  match ← (block.pagesFor start buffer.size).run with
  | .error failure => return (.error failure, buffer)
  | .ok pages =>
    let (outcome, pieces) ← readPages (← get).profile.geometry buffer pages.zipIdx
    let filled := Bytes.join pieces
    return (outcome, filled ++ buffer.extract filled.size)

/-- Program pages one by one from the pieces of a buffer, each page with the number of its piece.
Erased content is not programmed: it would change nothing and make the page look written. -/
def programPages (g : Geometry) (content : Bytes) :
    List (Nat × Nat) → Attempt Failure (Controller β) Unit
  | [] => return
  | (page, i) :: rest => do
    let data := content.piece g.pageBytes i
    unless data.isErased do
      let (outcome, _) ← perform (Controller.writePage page data (Bytes.erased g.spareSize))
      if let .error error := outcome then
        throw (.programming page error)
    programPages g content rest

/-- Program pages of a block from page `start` on. -/
def program (block : Block) (start : Nat) (content : Bytes) :
    Attempt Failure (Controller β) Unit := do
  let pages ← block.pagesFor start content.size
  programPages (← get).profile.geometry content pages.zipIdx

/-- Erase the block. -/
def erase (block : Block) : Attempt Failure (Controller β) Unit :=
  Controller.device (Controller.eraseBlock block.index)

/-- Mark the block bad. It is erased first; on a worn block that may fail, and the marker is what
matters. -/
def markBad (block : Block) : Attempt Failure (Controller β) Unit := do
  let _ ← perform (Controller.eraseBlock block.index).run
  Controller.device (Controller.markBad block.index)

/-- Count the pages among `count` from page `start` on that are not erased. All pages go through
one buffer, so bytes that a short transfer does not reach are those of the page before. -/
def countUsed (block : Block) : Nat → Nat → Bytes → Attempt Failure (Controller β) Nat
  | 0, _, _ => return 0
  | count + 1, start, buffer => do
    let (outcome, content) ← perform (block.read start buffer)
    ExceptT.mk (pure outcome)
    let rest ← countUsed block count (start + 1) content
    return rest + if content.isErased then 0 else 1

/-- Count the programmed pages of the block. -/
def usedPages (block : Block) : Attempt Failure (Controller β) Nat := do
  let layout ← perform Controller.blockLayout
  block.countUsed layout.pagesPerBlock 0 (Bytes.filled layout.pageBytes 0)

end Block

end NandFlash
