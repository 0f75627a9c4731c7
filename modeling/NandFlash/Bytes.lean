/-!
# Byte buffers

Pages, spare areas and register windows are arrays of bytes. Flash erases to all ones, so the
byte `0xFF` doubles as the filler everywhere.
-/

namespace NandFlash

/-- A buffer of bytes. -/
abbrev Bytes := Array UInt8

/-- The erased state of every flash byte. -/
def erasedByte : UInt8 := 0xFF

namespace Bytes

/-- A buffer of `n` equal bytes. -/
def filled (n : Nat) (byte : UInt8) : Bytes := Array.replicate n byte

/-- A buffer of `n` erased bytes. -/
def erased (n : Nat) : Bytes := filled n erasedByte

/-- Is every byte in the erased state? -/
def isErased (bytes : Bytes) : Bool := bytes.all (· == erasedByte)

/-- `source` copied over `target` from offset `start` on; what does not fit is dropped. -/
def overlay (target : Bytes) (start : Nat) (source : Bytes) : Bytes :=
  if start = 0 ∧ source.size = target.size then
    source
  else
    target.extract 0 start ++ source.extract 0 (target.size - start) ++
      target.extract (start + source.size) target.size

/-- Piece `i` of a buffer that is cut into pieces of `length` bytes; the last may be shorter. -/
def piece (length i : Nat) (bytes : Bytes) : Bytes :=
  bytes.extract (i * length) ((i + 1) * length)

/-- The pieces one after the other. -/
def join (pieces : List Bytes) : Bytes := pieces.foldl (· ++ ·) #[]

@[simp] theorem size_filled (n : Nat) (byte : UInt8) : (filled n byte).size = n := by
  simp [filled]

@[simp] theorem size_erased (n : Nat) : (erased n).size = n := by
  simp [erased]

@[simp] theorem size_overlay (target : Bytes) (start : Nat) (source : Bytes) :
    (target.overlay start source).size = target.size := by
  unfold overlay
  split
  · simp_all
  · simp only [Array.size_append, Array.size_extract]
    omega

/-- Inside the stretch that is copied over, a byte comes from the source; elsewhere it stays. -/
theorem getElem?_overlay (target source : Bytes) (start i : Nat) :
    (target.overlay start source)[i]? =
      if start ≤ i ∧ i < start + source.size ∧ i < target.size then source[i - start]?
      else target[i]? := by
  unfold overlay
  split
  · grind
  · simp only [Array.getElem?_append, Array.getElem?_extract, Array.size_append,
      Array.size_extract]
    grind

/-- Bytes that cover the whole target. -/
theorem overlay_zero_of_size_eq {target source : Bytes} (h : source.size = target.size) :
    target.overlay 0 source = source := by
  apply Array.ext_getElem?
  intro i
  rw [getElem?_overlay, Nat.sub_zero]
  by_cases hi : i < source.size
  · rw [if_pos (by omega)]
  · rw [if_neg (by omega), Array.getElem?_eq_none (by omega), Array.getElem?_eq_none (by omega)]

/-- The first of some bytes is stored, then the others. -/
theorem overlay_setIfInBounds (target : Bytes) (start : Nat) (byte : UInt8)
    (rest : List UInt8) :
    Bytes.overlay (target.setIfInBounds start byte) (start + 1) rest.toArray =
      target.overlay start (byte :: rest).toArray := by
  apply Array.ext_getElem?
  intro i
  simp only [Bytes.getElem?_overlay, Array.size_setIfInBounds, Array.getElem?_setIfInBounds,
    List.size_toArray, List.length_cons, List.getElem?_toArray]
  by_cases hi : i = start
  · subst hi
    by_cases hsize : i < target.size
    · rw [if_neg (by omega), if_pos rfl, if_pos hsize, if_pos (by omega), Nat.sub_self,
        List.getElem?_cons_zero]
    · rw [if_neg (by omega), if_pos rfl, if_neg hsize, if_neg (by omega),
        Array.getElem?_eq_none (Nat.le_of_not_lt hsize)]
  · have hpos : start ≤ i → i - start = i - (start + 1) + 1 := by omega
    by_cases hin : start + 1 ≤ i ∧ i < start + 1 + rest.length ∧ i < target.size
    · rw [if_pos hin, if_pos (by omega), hpos (by omega), List.getElem?_cons_succ]
    · rw [if_neg hin, if_neg (Ne.symm hi), if_neg (by omega)]

theorem isErased_iff {bytes : Bytes} :
    bytes.isErased ↔ ∀ i (h : i < bytes.size), bytes[i] = erasedByte := by
  simp [isErased, Array.all_eq_true]

@[simp] theorem isErased_erased (n : Nat) : (erased n).isErased := by
  simp only [isErased_iff, erased, filled, Array.getElem_replicate, implies_true]

@[simp] theorem join_nil : join [] = #[] := rfl

theorem join_cons (piece : Bytes) (pieces : List Bytes) :
    join (piece :: pieces) = piece ++ join pieces := by
  have start_irrelevant : ∀ (pieces : List Bytes) (start : Bytes),
      pieces.foldl (· ++ ·) start = start ++ pieces.foldl (· ++ ·) #[] := by
    intro pieces
    induction pieces with
    | nil => simp
    | cons first rest ih =>
      intro start
      rw [List.foldl_cons, ih, List.foldl_cons, ih (#[] ++ first)]
      simp
  simp only [join, List.foldl_cons]
  rw [start_irrelevant]
  simp

end Bytes

/-! ## Little-endian words -/

/-- Byte `i` of a word, the least significant first. -/
def wordByte (word : UInt32) (i : Nat) : UInt8 :=
  (word >>> (8 * UInt32.ofNat i)).toUInt8

/-- The four bytes of a word, the least significant first. -/
def wordBytes (word : UInt32) : List UInt8 :=
  [wordByte word 0, wordByte word 1, wordByte word 2, wordByte word 3]

/-- The word spelled by four bytes, the least significant first. -/
def wordOfBytes (b0 b1 b2 b3 : UInt8) : UInt32 :=
  b0.toUInt32 ||| b1.toUInt32 <<< 8 ||| b2.toUInt32 <<< 16 ||| b3.toUInt32 <<< 24

/-- Byte `i` is the word's bits from `8 * i` on. -/
theorem toBitVec_wordByte (word : UInt32) (i : Nat) (h : i < 4) :
    (wordByte word i).toBitVec = (word.toBitVec >>> (8 * i)).setWidth 8 := by
  have cases : i = 0 ∨ i = 1 ∨ i = 2 ∨ i = 3 := by omega
  rcases cases with rfl | rfl | rfl | rfl <;> rfl

theorem toBitVec_wordOfBytes (b0 b1 b2 b3 : UInt8) :
    (wordOfBytes b0 b1 b2 b3).toBitVec =
      b0.toBitVec.setWidth 32 ||| b1.toBitVec.setWidth 32 <<< 8 |||
        b2.toBitVec.setWidth 32 <<< 16 ||| b3.toBitVec.setWidth 32 <<< 24 := rfl

/-- A word is what its bytes spell. -/
theorem wordOfBytes_wordByte (word : UInt32) :
    wordOfBytes (wordByte word 0) (wordByte word 1) (wordByte word 2) (wordByte word 3) =
      word := by
  apply UInt32.toBitVec_inj.1
  apply BitVec.eq_of_getLsbD_eq
  intro i _
  simp only [toBitVec_wordOfBytes, toBitVec_wordByte, BitVec.getLsbD_or,
    BitVec.getLsbD_shiftLeft, BitVec.getLsbD_setWidth, BitVec.getLsbD_ushiftRight,
    Nat.reduceLT]
  grind

/-- The bytes of a word are those that spell it. -/
theorem wordByte_wordOfBytes (b0 b1 b2 b3 : UInt8) (i : Nat) (h : i < 4) :
    wordByte (wordOfBytes b0 b1 b2 b3) i = [b0, b1, b2, b3][i] := by
  apply UInt8.toBitVec_inj.1
  apply BitVec.eq_of_getLsbD_eq
  intro k _
  rw [toBitVec_wordByte _ _ h, toBitVec_wordOfBytes]
  simp only [BitVec.getLsbD_or, BitVec.getLsbD_shiftLeft, BitVec.getLsbD_setWidth,
    BitVec.getLsbD_ushiftRight]
  have cases : i = 0 ∨ i = 1 ∨ i = 2 ∨ i = 3 := by omega
  rcases cases with rfl | rfl | rfl | rfl <;> simp <;> grind

end NandFlash
