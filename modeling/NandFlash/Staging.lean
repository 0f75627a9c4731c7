import NandFlash.Bus

/-!
# Staging the spare area

The window on the spare area is device memory: a page program reads it and the ECC stage patches
it. A caller's buffer is never that window. Bytes move between the two through a staging area of
the controller's own, by `store` and `load`.
-/

namespace NandFlash

/-- The controller's copy of the window. -/
structure StagingArea where
  bytes : Bytes
deriving DecidableEq, Repr

namespace StagingArea

/-- An erased area of `len` bytes. -/
def new (len : Nat) : StagingArea := ⟨Bytes.erased len⟩

/-- Set every byte to the erased state. -/
def fillErased (area : StagingArea) : StagingArea := ⟨Bytes.erased area.bytes.size⟩

/-- Copy a buffer over the start of the area. -/
def overlay (area : StagingArea) (source : Bytes) : StagingArea :=
  ⟨area.bytes.overlay 0 source⟩

variable {β : Type} [Bus β]

/-- Copy the area into the window. -/
def store (area : StagingArea) : Action β Unit :=
  area.bytes.toList.zipIdx.forM fun (byte, i) => Bus.write8 (Register.window + i) byte

/-- Copy the window into the area. -/
def load (area : StagingArea) : Action β StagingArea := do
  let bytes ← (List.range area.bytes.size).mapM fun i => Bus.read8 (Register.window + i)
  return ⟨bytes.toArray⟩

end StagingArea

end NandFlash
