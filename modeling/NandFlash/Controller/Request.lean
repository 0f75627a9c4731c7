import NandFlash.Controller.Operations

/-!
# Requests

The operations of a controller as data, so that sequences of them can be spoken of. A reply holds
everything the caller gets to see: the outcome, the buffers as they were left, and the
statistics.
-/

namespace NandFlash

/-- One operation with its arguments. Buffers that are only filled are given for their length. -/
inductive Request where
  | readPage (page : Nat) (data spare : Bytes)
  | writePage (page : Nat) (data spare : Bytes)
  | readSpare (page : Nat) (spare : Bytes)
  | eraseBlock (block : Nat)
  | isBad (block : Nat)
  | markBad (block : Nat)
  | readId
  | reset
deriving DecidableEq, Repr

/-- What a successful operation answers. -/
inductive Answer where
  | done
  | repaired (reports : List FieldReport)
  | marked (isBad : Bool)
  | id (bytes : IdBytes)
deriving DecidableEq, Repr

/-- What the caller sees of an operation. An operation without a buffer leaves it empty. -/
structure Reply where
  outcome : Except Error Answer
  data : Bytes
  spare : Bytes
  stats : EccStats

namespace Request

/-- The page buffer handed over. -/
def data : Request → Bytes
  | readPage _ data _ | writePage _ data _ => data
  | readSpare .. | eraseBlock _ | isBad _ | markBad _ | readId | reset => #[]

/-- The spare buffer handed over. -/
def spare : Request → Bytes
  | readPage _ _ spare | writePage _ _ spare | readSpare _ spare => spare
  | eraseBlock _ | isBad _ | markBad _ | readId | reset => #[]

end Request

namespace Controller

variable {β : Type} [Bus β]

/-- Carry out a request: the outcome and the two buffers. -/
def dispatch : Request → Action (Controller β) (Except Error Answer × Bytes × Bytes)
  | .readPage page data spare => do
    let result ← readPage page data spare
    return (result.outcome.map .repaired, result.data, result.spare)
  | .writePage page data spare => do
    let (outcome, spare) ← writePage page data spare
    return (outcome.map fun _ => .done, data, spare)
  | .readSpare page spare => do
    match ← (readSpare page spare.size).run with
    | .ok filled => return (.ok .done, #[], filled)
    | .error error => return (.error error, #[], spare)
  | .eraseBlock block => return ((← (eraseBlock block).run).map fun _ => .done, #[], #[])
  | .isBad block => return ((← (isBad block).run).map .marked, #[], #[])
  | .markBad block => return ((← (markBad block).run).map fun _ => .done, #[], #[])
  | .readId => return ((← readId.run).map .id, #[], #[])
  | .reset => return ((← reset.run).map fun _ => .done, #[], #[])

/-- Serve a request. -/
def serve (request : Request) : Action (Controller β) Reply := do
  let (outcome, data, spare) ← dispatch request
  return ⟨outcome, data, spare, (← get).stats⟩

end Controller

end NandFlash
