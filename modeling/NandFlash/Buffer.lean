import NandFlash.Bytes
import NandFlash.Crash

/-!
# Accesses to buffers

A buffer keeps the size that it was made with. An index or a stretch outside of it is a defect that
ends the run, and each access decides that for itself: a run that returns has left no buffer.
-/

namespace NandFlash

/-! ## Single entries -/

namespace Buffer

variable {α : Type} {n : Nat}

/-- The entry at an index. -/
def get (buffer : Vector α n) (i : Nat) : Except Crash α :=
  if h : i < n then .ok buffer[i] else .error .bounds

/-- Store some entries one after the other, the first of them at an index. -/
def put (buffer : Vector α n) (i : Nat) : List α → Except Crash (Vector α n)
  | [] => .ok buffer
  | a :: rest => if h : i < n then put (buffer.set i a) (i + 1) rest else .error .bounds

theorem get_eq_ok {buffer : Vector α n} {i : Nat} {a : α} (h : buffer[i]? = some a) :
    get buffer i = .ok a := by
  obtain ⟨hi, rfl⟩ := Vector.getElem?_eq_some_iff.1 h
  exact dif_pos hi

/-- Entries that fit are stored: inside their stretch a buffer has them, and elsewhere what it had
before. -/
theorem put_eq_ok (buffer : Vector α n) (start : Nat) {entries : List α}
    (h : start + entries.length ≤ n) :
    ∃ filled, put buffer start entries = .ok filled ∧ ∀ i : Nat,
      filled[i]? = if start ≤ i ∧ i < start + entries.length then entries[i - start]?
        else buffer[i]? := by
  induction entries generalizing buffer start with
  | nil => exact ⟨buffer, rfl, fun i => (if_neg (by rw [List.length_nil]; omega)).symm⟩
  | cons a rest ih =>
    rw [List.length_cons] at h
    have hstart : start < n := by omega
    obtain ⟨filled, hput, hfilled⟩ := ih (buffer.set start a) (start + 1) (by omega)
    refine ⟨filled, by rw [put, dif_pos hstart, hput], fun i => ?_⟩
    rw [hfilled, List.length_cons, Vector.getElem?_set]
    -- The first entry is at `start`, and the others follow it.
    by_cases hi : start = i
    · subst hi
      rw [if_neg (by omega), if_pos rfl, if_pos (by omega), Nat.sub_self, List.getElem?_cons_zero]
    · by_cases hin : start + 1 ≤ i ∧ i < start + 1 + rest.length
      · rw [if_pos hin, if_pos (by omega), show i - start = i - (start + 1) + 1 by omega,
          List.getElem?_cons_succ]
      · rw [if_neg hin, if_neg hi, if_neg (by omega)]

end Buffer

/-! ## Stretches of bytes -/

namespace Bytes

/-- The bytes from `start` to `stop`, exclusive. -/
def slice (bytes : Bytes) (start stop : Nat) : Except Crash Bytes :=
  if start ≤ stop ∧ stop ≤ bytes.size then .ok (bytes.extract start stop) else .error .bounds

/-- The buffer with its bytes from `start` on replaced by as many others. -/
def replaceFrom (bytes : Bytes) (start : Nat) (source : Bytes) : Except Crash Bytes :=
  if start + source.size = bytes.size then .ok (bytes.extract 0 start ++ source)
  else .error .bounds

theorem slice_eq_ok {bytes : Bytes} {start stop : Nat} (hstart : start ≤ stop)
    (hstop : stop ≤ bytes.size) : bytes.slice start stop = .ok (bytes.extract start stop) :=
  if_pos ⟨hstart, hstop⟩

theorem replaceFrom_eq_ok {bytes source : Bytes} {start : Nat}
    (h : start + source.size = bytes.size) :
    bytes.replaceFrom start source = .ok (bytes.extract 0 start ++ source) :=
  if_pos h

/-- All of a buffer is replaced. -/
theorem replaceFrom_zero {bytes source : Bytes} (h : source.size = bytes.size) :
    bytes.replaceFrom 0 source = .ok source := by
  rw [replaceFrom_eq_ok (by omega), Array.extract_zero, Array.empty_append]

end Bytes

end NandFlash
