import NandFlash.Bytes

/-!
# Byte sources and sinks

A source hands out the bytes of an image call by call. How much one call delivers is the source's
business: a delivery may be short, and a call may be interrupted and has to be repeated. A source
may also break once it has handed out some number of bytes. A sink takes bytes until a limit.
-/

namespace NandFlash

/-- Failure of a source or sink. -/
inductive StreamError where
  /-- The source ended in the middle of what was asked for. -/
  | unexpectedEnd
  /-- The other end went away. -/
  | broken
deriving DecidableEq, Repr

/-- The text of a stream failure. -/
def StreamError.message : StreamError → String
  | unexpectedEnd => "failed to fill whole buffer"
  | broken => "broken pipe"

/-- How one call to a source goes. -/
inductive Delivery where
  /-- At most so many bytes are delivered. -/
  | upTo (limit : Nat)
  /-- Nothing is delivered, and the call has to be repeated. -/
  | interrupted
deriving DecidableEq, Repr

/-- A source of bytes. -/
structure Source where
  content : Bytes
  /-- Bytes handed out so far. -/
  taken : Nat
  /-- How the next calls go; later ones deliver all that is asked for. -/
  plan : List Delivery
  /-- The source breaks once so many bytes have been handed out. -/
  breakAt : Option Nat
deriving DecidableEq, Repr

namespace Source

/-- A source that delivers all that is asked for. -/
def ofBytes (content : Bytes) : Source := ⟨content, 0, [], none⟩

/-- The call plan of a source that delivers at most `chunk` bytes a time, with every `every`-th
call interrupted. It covers as many calls as `size` bytes can take. -/
def pace (size : Nat) (chunk : Option Nat) (every : Nat) : List Delivery :=
  match chunk, every with
  | none, 0 => []
  | _, _ =>
    let limit := chunk.getD (size + 1)
    (List.range (2 * (size / limit + size + 16))).map fun i =>
      if every ≠ 0 ∧ (i + 1) % every = 0 then .interrupted else .upTo limit

/-- Has the source broken after handing out `taken` bytes? -/
def isBroken (breakAt : Option Nat) (taken : Nat) : Bool :=
  match breakAt with
  | some limit => limit ≤ taken
  | none => false

/-- Where a series of calls has come to. -/
structure Progress where
  error : Option StreamError
  taken : Nat
  plan : List Delivery

/-- Call until `want` bytes have been handed out, the content of `size` bytes is exhausted, or
the source breaks. -/
def advance (size : Nat) (breakAt : Option Nat) : List Delivery → Nat → Nat → Progress
  | plan, 0, taken => ⟨none, taken, plan⟩
  | [], want, taken =>
    let n := min want (size - taken)
    if isBroken breakAt taken then
      ⟨some .broken, taken, []⟩
    else if 0 < n ∧ n < want ∧ isBroken breakAt (taken + n) then
      ⟨some .broken, taken + n, []⟩
    else
      ⟨none, taken + n, []⟩
  | .interrupted :: plan, want, taken => advance size breakAt plan want taken
  | .upTo limit :: plan, want, taken =>
    let n := min (min want limit) (size - taken)
    if isBroken breakAt taken then
      ⟨some .broken, taken, plan⟩
    else if n = 0 then
      ⟨none, taken, plan⟩
    else
      advance size breakAt plan (want - n) (taken + n)

/-- Take up to `want` bytes, fewer only at the end. Bytes handed out before a failure are lost. -/
def fill (want : Nat) (source : Source) : Except StreamError Bytes × Source :=
  let progress := advance source.content.size source.breakAt source.plan want source.taken
  let after := { source with taken := progress.taken, plan := progress.plan }
  match progress.error with
  | some error => (.error error, after)
  | none => (.ok (source.content.extract source.taken progress.taken), after)

/-- Take exactly `want` bytes. -/
def fillExact (want : Nat) (source : Source) : Except StreamError Bytes × Source :=
  match source.fill want with
  | (.ok bytes, source) =>
    if bytes.size = want then (.ok bytes, source) else (.error .unexpectedEnd, source)
  | failed => failed

end Source

/-- A sink of bytes. -/
structure Sink where
  written : Bytes
  /-- A write that would go beyond this many bytes is refused. -/
  limit : Option Nat
deriving DecidableEq, Repr

namespace Sink

/-- A sink that takes everything, with room for `size` bytes from the start. -/
def unlimited (size : Nat) : Sink := ⟨Array.emptyWithCapacity size, none⟩

/-- Write a buffer, all of it or nothing. -/
def write (bytes : Bytes) (sink : Sink) : Except StreamError Unit × Sink :=
  let isFull : Bool := match sink.limit with
    | some limit => limit < sink.written.size + bytes.size
    | none => false
  if isFull then
    (.error .broken, sink)
  else
    (.ok (), ⟨sink.written ++ bytes, sink.limit⟩)

end Sink

end NandFlash
