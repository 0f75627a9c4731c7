import NandFlash.Command
import NandFlash.Text

/-!
# Crashes and stateful actions

Three endings of an operation are kept apart. It may return a value; it may fail with a domain
error, after which the device goes on in the state it was left in; or it may crash, which ends
the run and leaves no state at all. `Action` has the first and the last, `Attempt` all three.

Fixed-width arithmetic is part of the behaviour: a sum or product that leaves its word is a
crash. `word32` and `word64` are the only two places where that is decided.
-/

namespace NandFlash

/-- A defect that ends the run on the spot. -/
inductive Crash where
  /-- A number left its word, or a division by zero. -/
  | arithmetic
  /-- A byte range lies outside its buffer. -/
  | bounds
  /-- The small-page spare command reached a chip that does not have it. -/
  | spareCommand
  /-- Address bytes came without a command to belong to. -/
  | strayAddress
  /-- An address phase ended with the wrong number of bytes. -/
  | addressCycles (command : Command)
  /-- A register access outside the mapped block. -/
  | outsideBlock (offset : Nat)
deriving DecidableEq, Repr

/-- What a crash says about itself, if anything. -/
def Crash.message? : Crash → Option String
  | arithmetic | bounds => none
  | spareCommand => some "sim: READOOB reached the bus"
  | strayAddress => some "sim: address phase without a command (None)"
  | addressCycles command =>
    some ("sim: wrong number of address cycles for Some(" ++ command.mnemonic ++ ")")
  | outsideBlock offset => some ("register 0x" ++ hexDigits offset ++ " outside block")

/-- A step on a state `σ` that returns a value or crashes. -/
abbrev Action (σ : Type) := StateT σ (Except Crash)

/-- A step on a state `σ` that may also fail with an error of type `ε`, keeping the state. -/
abbrev Attempt (ε σ : Type) := ExceptT ε (Action σ)

/-- An action that has no errors of its own, as part of one that may fail. -/
def perform {ε σ α : Type} (action : Action σ α) : Attempt ε σ α :=
  ExceptT.lift action

/-- End the run. -/
def crash {σ α : Type} (defect : Crash) : Action σ α :=
  fun _ => .error defect

/-- A number as a 32-bit word; one that does not fit is a crash. -/
def word32 (n : Nat) : Except Crash Nat :=
  if n < UInt32.size then .ok n else .error .arithmetic

/-- A number as a 64-bit word; one that does not fit is a crash. -/
def word64 (n : Nat) : Except Crash Nat :=
  if n < UInt64.size then .ok n else .error .arithmetic

/-- A quotient; division by zero is a crash. -/
def quotient (a b : Nat) : Except Crash Nat :=
  if b = 0 then .error .arithmetic else .ok (a / b)

theorem word32_eq_ok {n m : Nat} : word32 n = .ok m ↔ n < UInt32.size ∧ m = n := by
  unfold word32
  by_cases h : n < UInt32.size
  · simp [h, eq_comm]
  · simp [h]

theorem word64_eq_ok {n m : Nat} : word64 n = .ok m ↔ n < UInt64.size ∧ m = n := by
  unfold word64
  by_cases h : n < UInt64.size
  · simp [h, eq_comm]
  · simp [h]

end NandFlash
