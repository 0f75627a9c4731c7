import Mathlib.Data.List.Sort
import NandFlash.Image

/-!
# Summaries of a write

A write enters one block after the other into its summary. So the three lists of a summary are
ascending, no block is in two of them, and together they are a range of blocks.
-/

namespace NandFlash

namespace Placement

/-- The blocks, counted from `index` on, whose placement is accepted. -/
def blocks (accepts : Placement → Bool) : Nat → List Placement → List Nat
  | _, [] => []
  | index, placement :: placements =>
    if accepts placement then index :: blocks accepts (index + 1) placements
    else blocks accepts (index + 1) placements

variable {accepts : Placement → Bool} {index i : Nat} {placements : List Placement}

theorem mem_blocks_cons {placement : Placement} :
    i ∈ blocks accepts index (placement :: placements) ↔
      i = index ∧ accepts placement ∨ i ∈ blocks accepts (index + 1) placements := by
  rw [blocks]
  cases accepts placement <;> simp

theorem mem_blocks : i ∈ blocks accepts index placements ↔
    index ≤ i ∧ ∃ placement, placements[i - index]? = some placement ∧ accepts placement := by
  induction placements generalizing index with
  | nil => simp [blocks]
  | cons placement placements ih =>
    rw [mem_blocks_cons, ih]
    by_cases hi : i = index
    · simp [hi]
    · by_cases hle : index + 1 ≤ i
      · rw [show i - index = i - (index + 1) + 1 by omega, List.getElem?_cons_succ]
        simp only [hi, hle, false_and, false_or, true_and, show index ≤ i by omega]
      · simp only [hi, hle, false_and, false_or, show ¬index ≤ i by omega]

theorem pairwise_blocks : (blocks accepts index placements).Pairwise (· < ·) := by
  induction placements generalizing index with
  | nil => exact List.Pairwise.nil
  | cons placement placements ih =>
    rw [blocks]
    split
    · exact List.pairwise_cons.2 ⟨fun i hi => (mem_blocks.1 hi).1, ih⟩
    · exact ih

/-- Every block is of one kind. -/
theorem length_blocks (index : Nat) (placements : List Placement) :
    (blocks (· == .written) index placements).length +
      (blocks (· == .unchanged) index placements).length +
        (blocks (· == .bad) index placements).length = placements.length := by
  induction placements generalizing index with
  | nil => rfl
  | cons placement placements ih =>
    have hrest := ih (index + 1)
    cases placement <;> simp [blocks] <;> omega

end Placement

namespace WriteSummary

open Placement

/-- The blocks of a summary that are of one kind. -/
def of (summary : WriteSummary) : Placement → Array Nat
  | .written => summary.written
  | .unchanged => summary.unchanged
  | .bad => summary.bad

/-- The blocks that hold the pieces of the image, in ascending order. -/
def holders (summary : WriteSummary) : List Nat :=
  summary.written.toList.merge summary.unchanged.toList

/-- Enter the blocks from `index` on. -/
def addAll (summary : WriteSummary) : Nat → List Placement → WriteSummary
  | _, [] => summary
  | index, placement :: placements => (summary.add index placement).addAll (index + 1) placements

/-- The three lists are ascending, and they make a range of blocks up between them. -/
structure Tiles (summary : WriteSummary) (start stop : Nat) : Prop where
  ascending : ∀ kind, (summary.of kind).toList.Pairwise (· < ·)
  disjoint : ∀ kind other, kind ≠ other → ∀ i ∈ summary.of kind, i ∉ summary.of other
  covers : ∀ i, (∃ kind, i ∈ summary.of kind) ↔ start ≤ i ∧ i < stop

variable {summary : WriteSummary} {index : Nat} {kind : Placement} {placements : List Placement}

theorem of_add (summary : WriteSummary) (index : Nat) (placement kind : Placement) :
    (summary.add index placement).of kind =
      if placement = kind then (summary.of kind).push index else summary.of kind := by
  cases placement <;> cases kind <;> rfl

theorem of_addAll (summary : WriteSummary) (index : Nat) (placements : List Placement)
    (kind : Placement) : (summary.addAll index placements).of kind =
      summary.of kind ++ (blocks (· == kind) index placements).toArray := by
  induction placements generalizing summary index with
  | nil => simp [addAll, blocks]
  | cons placement placements ih =>
    rw [addAll, ih, of_add, blocks]
    by_cases h : placement = kind <;> simp [h]

/-- What a write enters from the start. -/
theorem of_addAll_empty (index : Nat) (placements : List Placement) (kind : Placement) :
    (empty.addAll index placements).of kind =
      (blocks (· == kind) index placements).toArray := by
  rw [of_addAll]
  cases kind <;> exact Array.empty_append

theorem mem_of_addAll_iff {i : Nat} : i ∈ (empty.addAll index placements).of kind ↔
    i ∈ blocks (· == kind) index placements := by
  rw [of_addAll_empty, List.mem_toArray]

theorem mem_of_addAll {i : Nat} : i ∈ (empty.addAll index placements).of kind ↔
    index ≤ i ∧ placements[i - index]? = some kind := by
  rw [mem_of_addAll_iff, mem_blocks]
  simp

theorem size_addAll (index : Nat) (placements : List Placement) :
    (empty.addAll index placements).written.size + (empty.addAll index placements).unchanged.size +
      (empty.addAll index placements).bad.size = placements.length := by
  have hsize : ∀ kind, ((empty.addAll index placements).of kind).size =
      (blocks (· == kind) index placements).length := by
    intro kind
    rw [of_addAll_empty, List.size_toArray]
  rw [← length_blocks index placements, ← hsize, ← hsize, ← hsize]
  rfl

theorem tiles_addAll (index : Nat) (placements : List Placement) :
    (empty.addAll index placements).Tiles index (index + placements.length) := by
  refine ⟨fun kind => ?_, fun kind other hne i hi hi' => ?_, fun i => ?_⟩
  · rw [of_addAll_empty]
    exact pairwise_blocks
  · rw [mem_of_addAll] at hi hi'
    exact hne (Option.some.inj (hi.2.symm.trans hi'.2))
  · simp only [mem_of_addAll, exists_and_left, and_congr_right_iff]
    intro hle
    rw [← Option.isSome_iff_exists, isSome_getElem?]
    omega

/-- The holders are the blocks that have not been passed over. -/
theorem holders_addAll (index : Nat) (placements : List Placement) :
    (empty.addAll index placements).holders = blocks (· != .bad) index placements := by
  have hwritten : (empty.addAll index placements).written.toList =
      blocks (· == .written) index placements :=
    congrArg Array.toList (of_addAll_empty index placements .written)
  have hunchanged : (empty.addAll index placements).unchanged.toList =
      blocks (· == .unchanged) index placements :=
    congrArg Array.toList (of_addAll_empty index placements .unchanged)
  have hascending : ∀ accepts, (blocks accepts index placements).Pairwise (· ≤ ·) :=
    fun _ => pairwise_blocks.imp Nat.le_of_lt
  rw [holders, hwritten, hunchanged]
  -- Both lists ascend, so they are equal if they have the same members.
  refine List.Perm.eq_of_pairwise (fun _ _ _ _ => Nat.le_antisymm)
    ((hascending _).merge (hascending _)) (hascending _) ?_
  refine (List.merge_perm_append _).trans ((List.perm_ext_iff_of_nodup ?_ ?_).2 fun i => ?_)
  · refine List.nodup_append.2 ⟨pairwise_blocks.imp Nat.ne_of_lt, pairwise_blocks.imp Nat.ne_of_lt,
      fun i hi j hj hij => ?_⟩
    subst hij
    obtain ⟨-, kind, hkind, haccepts⟩ := mem_blocks.1 hi
    obtain ⟨-, other, hother, haccepts'⟩ := mem_blocks.1 hj
    cases hkind.symm.trans hother
    simp_all
  · exact pairwise_blocks.imp Nat.ne_of_lt
  · simp only [List.mem_append, mem_blocks, ← and_or_left, ← exists_or]
    refine and_congr_right fun _ => exists_congr fun kind => and_congr_right fun _ => ?_
    cases kind <;> decide

end WriteSummary

end NandFlash
