import Mathlib.Tactic.Common
import NandFlash.Register

/-!
# Bits of a register

A driver changes a register by keeping some of its bits and setting others, and a device looks at
it through masks. What a mask shows after a change depends on how the three constants lie to each
other, which `decide` settles.
-/

namespace NandFlash

/-- A word with the bits of `keep` as they were and those of `put` set. -/
def adjust (keep put word : UInt32) : UInt32 := (word &&& keep) ||| put

namespace Bits

variable {keep put m n seen word : UInt32}

theorem adjust_neg_one (put word : UInt32) : adjust (-1) put word = word ||| put := by
  rw [adjust, UInt32.and_neg_one]

theorem adjust_zero (keep word : UInt32) : adjust keep 0 word = word &&& keep := by
  rw [adjust, UInt32.or_zero]

/-- Two changes in a row are one. -/
theorem adjust_adjust (keep₁ put₁ keep₂ put₂ word : UInt32) :
    adjust keep₂ put₂ (adjust keep₁ put₁ word) =
      adjust (keep₁ &&& keep₂) ((put₁ &&& keep₂) ||| put₂) word := by
  apply UInt32.toBitVec_inj.1
  apply BitVec.eq_of_getLsbD_eq
  intro i _
  simp only [adjust, UInt32.toBitVec_and, UInt32.toBitVec_or, BitVec.getLsbD_and,
    BitVec.getLsbD_or]
  grind

/-- Bits that are set need not be kept. -/
theorem adjust_and_not (keep put word : UInt32) :
    adjust (keep &&& ~~~put) put word = adjust keep put word := by
  apply UInt32.toBitVec_inj.1
  apply BitVec.eq_of_getLsbD_eq
  intro i hi
  simp only [adjust, UInt32.toBitVec_and, UInt32.toBitVec_or, UInt32.toBitVec_not,
    BitVec.getLsbD_and, BitVec.getLsbD_or, BitVec.getLsbD_not, hi, decide_true, Bool.true_and]
  grind

theorem adjust_and (keep put m word : UInt32) :
    adjust keep put word &&& m = (word &&& (keep &&& m)) ||| (put &&& m) := by
  rw [adjust, ← UInt32.and_assoc]
  apply UInt32.toBitVec_inj.1
  simp only [UInt32.toBitVec_and, UInt32.toBitVec_or]
  exact BitVec.and_or_distrib_right

/-- Through a mask within what is kept and apart from what is set, a word looks as before. -/
theorem adjust_and_keep (hkeep : keep &&& m = m) (hput : put &&& m = 0) :
    adjust keep put word &&& m = word &&& m := by
  rw [adjust_and, hkeep, hput, UInt32.or_zero]

/-- Through a mask apart from what is kept, only what has been set is seen. -/
theorem adjust_and_put (hkeep : keep &&& m = 0) (hput : put &&& m = seen) :
    adjust keep put word &&& m = seen := by
  rw [adjust_and, hkeep, hput, UInt32.and_zero, UInt32.zero_or]

/-- Bits that have been set are seen. -/
theorem or_and_self (word m : UInt32) : (word ||| m) &&& m = m := by
  apply UInt32.toBitVec_inj.1
  apply BitVec.eq_of_getLsbD_eq
  intro i _
  simp only [UInt32.toBitVec_and, UInt32.toBitVec_or, BitVec.getLsbD_and, BitVec.getLsbD_or]
  cases m.toBitVec.getLsbD i <;> simp

/-- A smaller mask shows what the larger one does, as far as it goes. -/
theorem and_eq_of_le (h : word &&& m = seen) (hn : m &&& n = n) : word &&& n = seen &&& n := by
  rw [← h, UInt32.and_assoc, hn]

theorem and_eq_zero_of_le (h : word &&& m = 0) (hn : m &&& n = n) : word &&& n = 0 := by
  rw [and_eq_of_le h hn, UInt32.zero_and]

/-- Nothing is lost by clearing bits that are clear. -/
theorem and_not_of_and_eq_zero (h : word &&& m = 0) : word &&& ~~~m = word := by
  have hsplit : word = (word &&& ~~~m) ||| (word &&& m) := by
    apply UInt32.toBitVec_inj.1
    apply BitVec.eq_of_getLsbD_eq
    intro i hi
    simp only [UInt32.toBitVec_and, UInt32.toBitVec_or, UInt32.toBitVec_not, BitVec.getLsbD_and,
      BitVec.getLsbD_or, BitVec.getLsbD_not, hi, decide_true, Bool.true_and]
    cases word.toBitVec.getLsbD i <;> cases m.toBitVec.getLsbD i <;> rfl
  rw [h, UInt32.or_zero] at hsplit
  exact hsplit.symm

end Bits

end NandFlash
