import NandFlash.Block
import NandFlash.Checksum

/-!
# Whole-device images

Scanning for bad blocks, writing an image across good blocks, and dumping blocks as an image. An
image is cut into blocks; on its way into the device it passes over bad blocks, so that the good
blocks in ascending order hold it.
-/

namespace NandFlash

/-- What writing an image has done with each block it came across, in ascending order. -/
structure WriteSummary where
  /-- Erased and programmed. -/
  written : Array Nat
  /-- Already held the right content. -/
  unchanged : Array Nat
  /-- Passed over because they were bad, or went bad on the way. -/
  bad : Array Nat
deriving DecidableEq, Repr

/-- Nothing done yet. -/
def WriteSummary.empty : WriteSummary := ⟨#[], #[], #[]⟩

/-- How a block took a piece of an image. -/
inductive Placement where
  | written
  | unchanged
  /-- The piece has to go into a later block. -/
  | bad
deriving DecidableEq, Repr

/-- Enter one more block. -/
def WriteSummary.add (summary : WriteSummary) (index : Nat) : Placement → WriteSummary
  | .written => { summary with written := summary.written.push index }
  | .unchanged => { summary with unchanged := summary.unchanged.push index }
  | .bad => { summary with bad := summary.bad.push index }

namespace Image

/-! ## Working on a device with something beside it -/

/-- An action on the first of two states. -/
def onFirst {σ τ α : Type} (action : Action σ α) : Action (σ × τ) α := fun (first, second) => do
  let (value, first) ← action first
  return (value, (first, second))

/-- An attempt on the first of two states. -/
def tryOnFirst {ε σ τ α : Type} (attempt : Attempt ε σ α) : Attempt ε (σ × τ) α :=
  ExceptT.mk (onFirst attempt.run)

/-- A stream operation on the second of two states. -/
def onStream {σ τ α : Type} (operation : τ → Except StreamError α × τ) :
    Attempt Failure (σ × τ) α :=
  ExceptT.mk fun (first, second) =>
    let (outcome, second) := operation second
    .ok (outcome.mapError .stream, (first, second))

variable {β : Type} [Bus β]

/-! ## Scanning -/

/-- The bad blocks among `count` from `index` on. -/
def badBlocksFrom : Nat → Nat → Attempt Failure (Controller β) (List Nat)
  | 0, _ => return []
  | count + 1, index => do
    let block? ← Controller.block? index
    let rest ← badBlocksFrom count (index + 1)
    return if block?.isNone then index :: rest else rest

/-- Every block that is marked bad. -/
def badBlocks : Attempt Failure (Controller β) (List Nat) := do
  let layout ← perform Controller.blockLayout
  badBlocksFrom layout.blocks 0

/-! ## Writing an image -/

/-- Attempts to bring a block up to date before it is given up. -/
def writeAttempts : Nat := 3

/-- Does a block hold some content already? A block that cannot be read does not. -/
def holds (block : Block) (content : Bytes) : Action (Controller β) Bool := do
  let (outcome, current) ← block.read 0 (Bytes.filled content.size 0)
  match outcome with
  | .ok () => return current == content
  | .error _ => return false

/-- Erase and program a block, trying up to `attempts` times. -/
def updateWithin (block : Block) (content : Bytes) : Nat → Action (Controller β) Bool
  | 0 => return false
  | attempts + 1 => do
    match ← (do block.erase; block.program 0 content : Attempt Failure (Controller β) Unit).run with
    | .ok () => return true
    | .error _ => updateWithin block content attempts

/-- Put a piece of an image into a good block, or mark the block bad. -/
def place (block : Block) (content : Bytes) : Action (Controller β) Placement := do
  if ← holds block content then
    return .unchanged
  if ← updateWithin block content writeAttempts then
    return .written
  -- The marker may be written even when its program reports failure.
  let _ ← block.markBad.run
  return .bad

/-- Put a piece of an image into a block by index. -/
def placeAt (index : Nat) (content : Bytes) : Attempt Failure (Controller β) Placement := do
  match ← Controller.block? index with
  | none => return .bad
  | some block => perform (place block content)

/-- The next piece of an image, filled up with erased bytes to a whole block; nothing at the end
of the image. -/
def nextPiece (blockBytes : Nat) : Attempt Failure (Controller β × Source) (Option Bytes) := do
  let bytes ← onStream (Source.fill blockBytes)
  if bytes.isEmpty then
    return none
  else
    return some (bytes ++ Bytes.erased (blockBytes - bytes.size))

/-- The piece to be placed next: one that the last block did not take comes before what the source
still holds. -/
def upNext (blockBytes : Nat) :
    Option Bytes → Attempt Failure (Controller β × Source) (Option Bytes)
  | some piece => return some piece
  | none => nextPiece blockBytes

/-- Write the rest of an image to the blocks from `index` on, of which the device has so many
left. -/
def writeFrom (blockBytes : Nat) : Nat → Nat → Option Bytes → WriteSummary →
    Attempt Failure (Controller β × Source) WriteSummary
  | 0, _, waiting, summary => do
    match ← upNext blockBytes waiting with
    | none => return summary
    | some _ => throw (.refused .imageTooLarge)
  | left + 1, index, waiting, summary => do
    match ← upNext blockBytes waiting with
    | none => return summary
    | some piece =>
      let placement ← tryOnFirst (placeAt index piece)
      let waiting := if placement = .bad then some piece else none
      writeFrom blockBytes left (index + 1) waiting (summary.add index placement)

/-- Write an image to consecutive good blocks from block `first` on. Blocks that already match
are left alone, so repeating a completed write changes nothing. -/
def write (first : Nat) : Attempt Failure (Controller β × Source) WriteSummary := do
  let layout ← perform (onFirst Controller.blockLayout)
  let blockBytes ← layout.blockBytes
  writeFrom blockBytes (layout.blocks - first) first none .empty

/-! ## Dumping blocks -/

/-- Stands in for the content of a bad block. -/
def badBlockFill : UInt8 := 0xBD

/-- What a dump holds for a block: the buffer as far as reading leaves it alone. -/
def blockContent (index : Nat) (buffer : Bytes) : Attempt Failure (Controller β) Bytes := do
  match ← Controller.block? index with
  | none => return Bytes.filled buffer.size badBlockFill
  | some block =>
    let (outcome, content) ← perform (block.read 0 buffer)
    ExceptT.mk (pure outcome)
    return content

/-- Dump `count` blocks from `index` on, feeding the checksum register. All blocks go through one
buffer, so bytes that a short transfer does not reach are those of the block before. -/
def dumpFrom : Nat → Nat → Bytes → UInt32 → Attempt Failure (Controller β × Sink) UInt32
  | 0, _, _, register => return register
  | count + 1, index, buffer, register => do
    let content ← tryOnFirst (blockContent index buffer)
    let register := Checksum.update register content
    onStream (Sink.write content)
    dumpFrom count (index + 1) content register

/-- Copy the data of blocks `first` to `stop`, exclusive, to a sink, and answer the checksum of
what has been written. Block offsets are kept; a bad block becomes filler. -/
def dump (first stop : Nat) : Attempt Failure (Controller β × Sink) UInt32 := do
  let layout ← perform (onFirst Controller.blockLayout)
  unless stop ≤ layout.blocks do
    throw (.refused (.noSuchBlocks first stop))
  let blockBytes ← layout.blockBytes
  let buffer := Bytes.filled blockBytes 0
  return Checksum.finish (← dumpFrom (stop - first) first buffer Checksum.start)

end Image

end NandFlash
