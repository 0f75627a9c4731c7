import Mathlib.Logic.Function.Basic
import Mathlib.Tactic.Common
import NandFlash.Sim.Device

/-!
# The abstract flash

What outlives everything that is done to a device: the content of each page, the reference copy
it may have, and the blocks that fail. How the array stores them does not matter; two arrays with
the same `flash` cannot be told apart.
-/

namespace NandFlash.Sim

/-- Contents, reference copies and wear. -/
@[ext]
structure Flash where
  content : Nat → Bytes
  reference : Nat → Option Bytes
  isFailing : Nat → Bool

namespace Flash

/-- Program a page. With `ecc` its new content becomes its reference, and otherwise it has none. -/
def program (flash : Flash) (row : Nat) (buffer : Bytes) (ecc : Bool) : Flash :=
  let content := FlashArray.merge (flash.content row) buffer
  { flash with
    content := Function.update flash.content row content
    reference := Function.update flash.reference row (if ecc then some content else none) }

/-- A byte of the page keeps the bits that are set in the byte that is programmed. -/
theorem getD_program (flash : Flash) (row : Nat) (buffer : Bytes) (ecc : Bool) (i : Nat) :
    ((flash.program row buffer ecc).content row).getD i 0 =
      (flash.content row).getD i 0 &&& buffer.getD i 0 := by
  simp only [program, Function.update_self, FlashArray.getD_merge]

/-- Erase `count` pages of `rawLen` bytes from `first` on. -/
def erase (flash : Flash) (rawLen first count : Nat) : Flash :=
  { flash with
    content := fun page =>
      if first ≤ page ∧ page < first + count then Bytes.erased rawLen else flash.content page
    reference := fun page =>
      if first ≤ page ∧ page < first + count then none else flash.reference page }

/-- Flip the bits of `mask` in one byte of a page. -/
def inject (flash : Flash) (row offset : Nat) (mask : UInt8) : Flash :=
  { flash with
    content := Function.update flash.content row
      ((flash.content row).modify offset fun byte => byte ^^^ mask) }

/-- Wear a block out. -/
def wearOut (flash : Flash) (block : Nat) : Flash :=
  { flash with isFailing := Function.update flash.isFailing block true }

end Flash

/-! ## The flash of an array -/

namespace FlashArray

/-- What an array of pages of `rawLen` bytes amounts to. -/
def flash (array : FlashArray) (rawLen : Nat) : Flash where
  content := array.content rawLen
  reference page := array.reference[page]?
  isFailing := array.failing.contains

variable (array : FlashArray) (rawLen : Nat)

/-- Programming the array programs its flash. -/
theorem flash_program (row : Nat) (buffer : Bytes) (ecc : Bool) :
    (array.program rawLen row buffer ecc).flash rawLen =
      (array.flash rawLen).program row buffer ecc := by
  ext page : 2
  · simp only [flash, Flash.program, content_program, Function.update_apply]
  · simp only [flash, Flash.program, program, Function.update_apply]
    cases ecc with
    | true =>
      simp only [if_true, Std.ExtTreeMap.getElem?_insert]
      grind
    | false =>
      simp only [Bool.false_eq_true, if_false, Std.ExtTreeMap.getElem?_erase]
      grind
  · rfl

/-- Erasing pages drops their reference copies. -/
theorem reference_erase (first count page : Nat) :
    (array.erase first count).reference[page]? =
      if first ≤ page ∧ page < first + count then none else array.reference[page]? := by
  unfold erase
  induction count generalizing array first with
  | zero =>
    rw [if_neg (by omega)]
    rfl
  | succ count ih =>
    rw [List.range'_succ, List.foldl_cons, ih]
    simp only [Std.ExtTreeMap.getElem?_erase]
    grind

/-- Erasing does not mend a block that fails. -/
theorem failing_erase (first count : Nat) :
    (array.erase first count).failing = array.failing := by
  unfold erase
  induction count generalizing array first with
  | zero => rfl
  | succ count ih => rw [List.range'_succ, List.foldl_cons, ih]

/-- Erasing in the array erases in its flash. -/
theorem flash_erase (first count : Nat) :
    (array.erase first count).flash rawLen = (array.flash rawLen).erase rawLen first count := by
  ext page : 2
  · exact array.content_erase rawLen first count page
  · exact array.reference_erase first count page
  · simp only [flash, failing_erase, Flash.erase]

/-- A flip in the array is one in its flash. -/
theorem flash_inject (row offset : Nat) (mask : UInt8) :
    (array.inject rawLen row offset mask).flash rawLen =
      (array.flash rawLen).inject row offset mask := by
  ext page : 2
  · simp only [flash, Flash.inject, content_inject, Function.update_apply]
  · rfl
  · rfl

/-- A block of the array wears out in its flash. -/
theorem flash_wearOut (block : Nat) :
    (array.wearOut block).flash rawLen = (array.flash rawLen).wearOut block := by
  ext page : 2
  · rfl
  · rfl
  · simp only [flash, Flash.wearOut, wearOut, Std.ExtTreeSet.contains_insert,
      Function.update_apply]
    by_cases h : page = block
    · simp [h]
    · simp [h, Ne.symm h]

end FlashArray

/-- The flash of a device. -/
def Device.flash (device : Device) : Flash := device.array.flash device.chip.rawLen

/-! ## Program and erase -/

namespace Chip

/-- Program a row, and say whether that went well. -/
def programRow (chip : Chip) (flash : Flash) (row : Nat) (buffer : Bytes) (ecc : Bool) :
    Except Crash (Bool × Flash) := do
  let block ← quotient row chip.pagesPerBlock
  if (← chip.pages) ≤ row then
    return (false, flash)
  let isSound := !flash.isFailing block
  return (isSound, flash.program row buffer (ecc && isSound))

/-- Erase the block of a row, and say whether that went well. -/
def eraseRow (chip : Chip) (flash : Flash) (row : Nat) : Except Crash (Bool × Flash) := do
  let block ← quotient row chip.pagesPerBlock
  if chip.blocks ≤ block ∨ flash.isFailing block then
    return (false, flash)
  let first ← word32 (block * chip.pagesPerBlock)
  discard (word32 ((block + 1) * chip.pagesPerBlock))
  return (true, flash.erase chip.rawLen first chip.pagesPerBlock)

end Chip

end NandFlash.Sim
