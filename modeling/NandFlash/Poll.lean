import NandFlash.Crash
import NandFlash.Error

/-!
# Busy-waiting

A wait asks a condition again and again. Its turns are counted in a 32-bit word, and a limit, if
there is one, ends the wait once the count goes beyond it. A count that no longer fits its word
is a crash; it also bounds the loops, which recurse on the turns the counter has left.
-/

namespace NandFlash

/-- Bound on busy-waits; without a limit a wait goes on as long as its counter does. -/
structure Poll where
  limit : Option Nat
deriving DecidableEq, Repr

namespace Poll

/-- The most turns the counter can count. -/
def maxTurns : Nat := UInt32.size - 1

/-- Is a count of turns beyond the limit? -/
def isOver (poll : Poll) (turns : Nat) : Bool :=
  match poll.limit with
  | some limit => limit < turns
  | none => false

/-- One turn of a wait that keeps its own count. -/
def turn (poll : Poll) (awaited : Awaited) : Attempt Error Nat Unit := do
  let turns ← word32 ((← get) + 1)
  set turns
  if poll.isOver turns then
    throw (.timeout awaited)

/-- Wait with `left` turns left in the counter. -/
def waitWithin {σ : Type} (poll : Poll) (awaited : Awaited) (ready : Attempt Error σ Bool) :
    Nat → Attempt Error σ Unit
  | 0 => do
    unless ← ready do
      perform (crash .arithmetic)
  | left + 1 => do
    unless ← ready do
      if poll.isOver (maxTurns - left) then
        throw (.timeout awaited)
      waitWithin poll awaited ready left

/-- Ask `ready` until it holds; an error of `ready` itself ends the wait. -/
def wait {σ : Type} (poll : Poll) (awaited : Awaited) (ready : Attempt Error σ Bool) :
    Attempt Error σ Unit :=
  poll.waitWithin awaited ready maxTurns

end Poll

end NandFlash
