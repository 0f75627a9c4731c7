import NandFlash.Bytes
import Std.Data.ExtTreeMap
import Std.Data.ExtTreeSet

/-!
# The flash array

The part of a simulated chip that outlives everything: page contents and wear. A page that is not
stored is erased. Next to the pages the array keeps a reference copy of every page programmed
with ECC; the ECC stage finds damage by comparing the two.
-/

namespace NandFlash.Sim

/-- Contents and wear of a chip. -/
structure FlashArray where
  /-- Raw pages, data and spare area. -/
  pages : Std.ExtTreeMap Nat Bytes
  /-- Pages as they were programmed with ECC. -/
  reference : Std.ExtTreeMap Nat Bytes
  /-- Blocks whose programs and erases fail. -/
  failing : Std.ExtTreeSet Nat

namespace FlashArray

/-- A fresh array. -/
def blank : FlashArray := ⟨∅, ∅, ∅⟩

/-- Raw content of a page of `rawLen` bytes. -/
def content (array : FlashArray) (rawLen page : Nat) : Bytes :=
  array.pages[page]?.getD (Bytes.erased rawLen)

/-- Flip the bits of `mask` in one byte of a page; an offset beyond the page flips nothing. -/
def inject (array : FlashArray) (rawLen page offset : Nat) (mask : UInt8) : FlashArray :=
  { array with
    pages := array.pages.alter page fun stored =>
      some ((stored.getD (Bytes.erased rawLen)).modify offset fun byte => byte ^^^ mask) }

/-- Wear a block out. -/
def wearOut (array : FlashArray) (block : Nat) : FlashArray :=
  { array with failing := array.failing.insert block }

/-- Programming clears bits and never sets one. -/
def merge (content buffer : Bytes) : Bytes :=
  Array.zipWith (fun cell byte => cell &&& byte) content buffer

@[simp] theorem size_merge (content buffer : Bytes) :
    (merge content buffer).size = min content.size buffer.size :=
  Array.size_zipWith

theorem getElem?_merge {content buffer : Bytes} {i : Nat} {cell byte : UInt8}
    (hcell : content[i]? = some cell) (hbyte : buffer[i]? = some byte) :
    (merge content buffer)[i]? = some (cell &&& byte) := by
  rw [merge, Array.getElem?_zipWith, hcell, hbyte]

/-- A bit stays set where it is set in both. -/
theorem getD_merge (content buffer : Bytes) (i : Nat) :
    (merge content buffer).getD i 0 = content.getD i 0 &&& buffer.getD i 0 := by
  simp only [merge, Array.getD_eq_getD_getElem?, Array.getElem?_zipWith]
  -- Beyond the end of either, both sides are zero.
  cases content[i]? <;> cases buffer[i]? <;> simp

/-- Program a page. A worn block takes the bits all the same. The content becomes the reference
of the page if ECC was on and the block is sound, and otherwise the page has none. -/
def program (array : FlashArray) (rawLen page : Nat) (buffer : Bytes) (ecc : Bool) : FlashArray :=
  let content := merge (array.content rawLen page) buffer
  { array with
    pages := array.pages.insert page content
    reference :=
      if ecc then array.reference.insert page content else array.reference.erase page }

/-- Erase `count` pages from `first` on. -/
def erase (array : FlashArray) (first count : Nat) : FlashArray :=
  (List.range' first count).foldl
    (fun array page =>
      { array with
        pages := array.pages.erase page
        reference := array.reference.erase page })
    array

/-! ## What each operation does to the contents -/

@[simp] theorem content_blank (rawLen page : Nat) :
    blank.content rawLen page = Bytes.erased rawLen := by
  simp [content, blank]

@[simp] theorem content_wearOut (array : FlashArray) (rawLen page block : Nat) :
    (array.wearOut block).content rawLen page = array.content rawLen page := rfl

theorem content_inject (array : FlashArray) (rawLen page row offset : Nat) (mask : UInt8) :
    (array.inject rawLen row offset mask).content rawLen page =
      if page = row then (array.content rawLen row).modify offset (· ^^^ mask)
      else array.content rawLen page := by
  simp only [content, inject, Std.ExtTreeMap.getElem?_alter]
  grind

theorem content_program (array : FlashArray) (rawLen page row : Nat) (buffer : Bytes)
    (ecc : Bool) :
    (array.program rawLen row buffer ecc).content rawLen page =
      if page = row then merge (array.content rawLen row) buffer
      else array.content rawLen page := by
  simp only [content, program, Std.ExtTreeMap.getElem?_insert]
  grind

theorem content_erase (array : FlashArray) (rawLen first count page : Nat) :
    (array.erase first count).content rawLen page =
      if first ≤ page ∧ page < first + count then Bytes.erased rawLen
      else array.content rawLen page := by
  unfold erase
  induction count generalizing array first with
  | zero =>
    rw [if_neg (by omega)]
    rfl
  | succ count ih =>
    rw [List.range'_succ, List.foldl_cons, ih]
    simp only [content, Std.ExtTreeMap.getElem?_erase]
    grind

end FlashArray

end NandFlash.Sim
