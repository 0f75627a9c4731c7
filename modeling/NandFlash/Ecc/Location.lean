import NandFlash.Crash
import NandFlash.Geometry.Basic

/-!
# Where an error address points

The engine reports errors as offsets into a field's codeword:

```text
0            fieldLen   +3                          fieldLen + paddingLen
+-------------+-----------+-------------+---------------------+
| field data  | 3 metadata |   (unused)  |     parity code     |
+-------------+-----------+-------------+---------------------+
```

Data errors are repaired in the page buffer. Metadata and parity errors are repaired in the
window on the spare area, where the metadata of field `f` starts at `parityLen * (f - 1)` and
its parity follows the parity of the fields before it.
-/

namespace NandFlash

/-- Metadata bytes that each field protects. -/
def metadataLen : Nat := 3

/-- The buffer a repair is made in. -/
inductive Place where
  /-- The page buffer. -/
  | data
  /-- The window on the spare area. -/
  | window
deriving DecidableEq, Repr

/-- The name used in answers. -/
def Place.name : Place → String
  | data => "Data"
  | window => "Window"

/-- One byte of a page. -/
structure Location where
  place : Place
  offset : Nat
deriving DecidableEq, Repr

namespace Geometry

/-- Address of the first parity byte within a codeword. -/
def firstParity (g : Geometry) : Nat :=
  g.fieldLen + g.paddingLen - g.parityLen

/-- The byte that `address` means in the codeword of `field`, counted from 1, when the parity of
the first field starts at `parityBase` in the window. The unused padding means no byte. -/
def locate? (g : Geometry) (field address parityBase : Nat) : Option Location :=
  match field with
  | 0 => none
  | index + 1 =>
    if address < g.fieldLen then
      some ⟨.data, index * g.fieldLen + address⟩
    else if address < g.fieldLen + metadataLen then
      some ⟨.window, address - g.fieldLen + g.parityLen * index⟩
    else if g.firstParity ≤ address ∧ address - g.firstParity < g.parityLen then
      some ⟨.window, parityBase + g.parityLen * index + (address - g.firstParity)⟩
    else
      none

/-- `locate?` on 64-bit offsets. The offset is a sum of products of non-negative terms, so it
leaves its word if and only if some partial result does. -/
def locateWord? (g : Geometry) (field address parityBase : Nat) :
    Except Crash (Option Location) :=
  match g.locate? field address parityBase with
  | none => .ok none
  | some location => do
    discard (word64 location.offset)
    return some location

end Geometry

end NandFlash
