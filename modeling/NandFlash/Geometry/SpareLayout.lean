/-!
# Layout of the spare area

```text
0      4                              size - parity            size
+------+----------------------------------+-----------------------+
| mark |               free               |      parity codes     |
+------+----------------------------------+-----------------------+
```

Bytes 0 and 1 hold the bad block marker, bytes 2 and 3 say that the page has been written;
neither pair is ever handed out as free space.
-/

namespace NandFlash

/-- Bytes reserved for the markers at the start of the spare area. -/
def markerLen : Nat := 4

/-- How a spare area is divided. -/
structure SpareLayout where
  /-- Bytes that belong to the user. -/
  freeLen : Nat
  /-- Bytes of parity, at the end. -/
  parityLen : Nat
deriving DecidableEq, Repr

namespace SpareLayout

/-- Lay out a spare area of `size` bytes with `parity` bytes of parity, if they fit. -/
def fit? (size parity : Nat) : Option SpareLayout :=
  if markerLen + parity ≤ size then some ⟨size - parity - markerLen, parity⟩ else none

/-- Where the free bytes begin. -/
def freeStart (_ : SpareLayout) : Nat := markerLen

/-- Where the parity begins. -/
def parityStart (layout : SpareLayout) : Nat := layout.freeStart + layout.freeLen

/-- Size of the whole area. -/
def size (layout : SpareLayout) : Nat := layout.parityStart + layout.parityLen

theorem fit?_eq_some_iff {size parity : Nat} {layout : SpareLayout} :
    fit? size parity = some layout ↔ layout.size = size ∧ layout.parityLen = parity := by
  obtain ⟨freeLen, parityLen⟩ := layout
  simp only [fit?, SpareLayout.size, parityStart, freeStart]
  split <;> simp <;> omega

theorem fit?_isSome {size parity : Nat} :
    (fit? size parity).isSome = decide (markerLen + parity ≤ size) := by
  unfold fit?
  split <;> simp_all

end SpareLayout

end NandFlash
