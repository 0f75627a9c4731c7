import Mathlib.Tactic.Common
import NandFlash.Bus
import NandFlash.Proofs.Program

/-!
# Programs on any bus

`Bus.Answers` is all that is asked of a bus here: its accesses return. What they return is up to
the device, and may be different every time. A clock on the state of the bus makes the number of
accesses visible.

`Keeps` and `Ends` speak about an action and an attempt on such a bus, or on a state around it:
they return within a number of accesses, an invariant still holds, and the value is as wanted.
-/

namespace NandFlash

variable {α β ε σ : Type}

/-- Nothing is asked of a state or of a value. -/
def Any : α → Prop := fun _ => True

/-- Whenever `inv` holds the action returns, at the expense of at most `cost`, with a value that
satisfies `post`, and `inv` still holds. -/
def Keeps (clock : σ → Nat) (cost : Nat) (inv : σ → Prop) (m : Action σ α) (post : α → Prop) :
    Prop :=
  Within clock cost inv m fun a s => inv s ∧ post a

/-- The same for an attempt, which may also end with an error. -/
def Ends (clock : σ → Nat) (cost : Nat) (inv : σ → Prop) (m : Attempt ε σ α) (post : α → Prop) :
    Prop :=
  Keeps clock cost inv m.run (Ending post Any)

variable {clock : σ → Nat} {cost k n : Nat} {inv : σ → Prop} {mid : α → Prop} {post : β → Prop}

namespace Keeps

/-- Returning costs nothing. -/
theorem pure {post : α → Prop} {a : α} (h : post a) : Keeps clock cost inv (pure a) post :=
  Within.pure fun _ hs => ⟨hs, h⟩

/-- More may be granted, and less may be known. -/
theorem mono {m : Action σ α} {post : α → Prop} (h : Keeps clock k inv m mid) (hcost : k ≤ cost)
    (hpost : ∀ a, mid a → post a) : Keeps clock cost inv m post :=
  Within.mono h hcost (fun _ hs => hs) fun a _ ht => ⟨ht.1, hpost a ht.2⟩

/-- More may be granted. -/
theorem le {m : Action σ α} (h : Keeps clock k inv m mid) (hcost : k ≤ cost) :
    Keeps clock cost inv m mid :=
  h.mono hcost fun _ ha => ha

/-- Only the invariant, as a triple. -/
theorem state {m : Action σ α} (h : Keeps clock cost inv m mid) :
    Within clock cost inv m fun _ => inv :=
  Within.mono h (Nat.le_refl _) (fun _ hs => hs) fun _ _ ht => ht.1

/-- The costs of two steps add up. -/
theorem bind {m : Action σ α} {f : α → Action σ β} (hm : Keeps clock k inv m mid)
    (hf : ∀ a, mid a → Keeps clock n inv (f a) post) :
    Keeps clock (k + n) inv (m >>= f) post :=
  Within.bind hm fun a s hs => hf a hs.2 s hs.1

/-- A computation without a state costs nothing. -/
theorem lift {x : Except Crash α} {a : α} (hx : x = .ok a) :
    Keeps clock 0 inv (liftM x : Action σ α) fun b => b = a :=
  fun s hs => ⟨a, s, run_action_lift hx, Nat.le_add_right _ _, hs, rfl⟩

/-- A state that is looked at satisfies the invariant. -/
theorem get_bind {f : σ → Action σ β} (h : ∀ s, inv s → Keeps clock cost inv (f s) post) :
    Keeps clock cost inv (get >>= f) post :=
  fun s hs => h s hs s hs

/-- A loop costs as much as its steps do together. -/
theorem forM {γ : Type} {xs : List γ} {f : γ → Action σ PUnit}
    (h : ∀ x, Keeps clock cost inv (f x) Any) :
    Keeps clock (cost * xs.length) inv (xs.forM f) Any := by
  induction xs with
  | nil => exact pure trivial
  | cons x xs ih =>
    rw [List.length_cons, Nat.mul_succ, Nat.add_comm]
    exact (h x).bind fun _ _ => ih

/-- A loop that hands a value through; `keep` holds of the value all the way. -/
theorem foldlM {γ : Type} {keep : α → Prop} {xs : List γ} {f : α → γ → Action σ α}
    (h : ∀ x ∈ xs, ∀ a, keep a → Keeps clock k inv (f a x) keep) {a : α} (ha : keep a) :
    Keeps clock (k * xs.length) inv (xs.foldlM f a) keep := by
  induction xs generalizing a with
  | nil => exact pure ha
  | cons x xs ih =>
    rw [List.foldlM_cons, List.length_cons, Nat.mul_succ, Nat.add_comm]
    refine (h x List.mem_cons_self a ha).bind fun b hb => ?_
    exact ih (fun y hy => h y (List.mem_cons_of_mem _ hy)) hb

end Keeps

/-- A list with a value for each element of `xs`, all of them satisfying `post`. -/
structure Collected {γ : Type} (xs : List γ) (post : α → Prop) (as : List α) : Prop where
  length_eq : as.length = xs.length
  forall_mem : ∀ a ∈ as, post a

namespace Collected

variable {γ : Type} {post : α → Prop}

/-- Nothing has been collected from no items. -/
theorem nil : Collected ([] : List γ) post [] :=
  ⟨rfl, fun _ hmem => by cases hmem⟩

/-- One more value has been collected. -/
theorem cons {x : γ} {xs : List γ} {a : α} {as : List α} (ha : post a)
    (has : Collected xs post as) : Collected (x :: xs) post (a :: as) := by
  refine ⟨by rw [List.length_cons, List.length_cons, has.length_eq], fun b hb => ?_⟩
  rcases List.mem_cons.1 hb with rfl | hb
  · exact ha
  · exact has.forall_mem b hb

end Collected

/-- A loop that collects a value for each element. -/
theorem Keeps.mapM {γ : Type} {P : α → Prop} {xs : List γ} {f : γ → Action σ α}
    (h : ∀ x, Keeps clock cost inv (f x) P) :
    Keeps clock (cost * xs.length) inv (xs.mapM f) (Collected xs P) := by
  induction xs with
  | nil => exact pure .nil
  | cons x xs ih =>
    rw [List.mapM_cons, List.length_cons, Nat.mul_succ, Nat.add_comm]
    exact (h x).bind fun a ha => ih.bind (n := 0) fun as has => pure (.cons ha has)

namespace Ends

/-- An attempt that returns a value costs nothing. -/
theorem pure {post : α → Prop} {a : α} (h : post a) :
    Ends clock cost inv (pure a : Attempt ε σ α) post :=
  Keeps.pure h

/-- Nor does one that fails. -/
theorem throw {e : ε} : Ends clock cost inv (throw e : Attempt ε σ α) mid :=
  Keeps.pure trivial

/-- A computation without a state that comes to a value. -/
theorem lift {x : Except Crash α} {a : α} (hx : x = .ok a) :
    Ends clock 0 inv (liftM x : Attempt ε σ α) fun b => b = a :=
  fun s hs => ⟨.ok a, s, run_lift hx, Nat.le_add_right _ _, hs, rfl⟩

/-- An action in an attempt ends with its value. -/
theorem perform {m : Action σ α} (h : Keeps clock cost inv m mid) :
    Ends clock cost inv (perform m : Attempt ε σ α) mid := by
  intro s hs
  obtain ⟨a, t, hrun, hclock, ht⟩ := h s hs
  exact ⟨.ok a, t, run_perform hrun, hclock, ht⟩

/-- More may be granted, and less may be known of the value. -/
theorem mono {m : Attempt ε σ α} {post : α → Prop} (h : Ends clock k inv m mid)
    (hcost : k ≤ cost) (hpost : ∀ a, mid a → post a) : Ends clock cost inv m post := by
  refine Keeps.mono h hcost fun r hr => ?_
  cases r with
  | ok a => exact hpost a hr
  | error e => trivial

/-- More may be granted. -/
theorem le {m : Attempt ε σ α} (h : Ends clock k inv m mid) (hcost : k ≤ cost) :
    Ends clock cost inv m mid :=
  h.mono hcost fun _ ha => ha

/-- An action that keeps the invariant whatever its outcome is an attempt that ends. -/
theorem of_keeps {m : Attempt ε σ α} (h : Keeps clock cost inv m.run Any) :
    Ends clock cost inv m Any :=
  Keeps.mono h (Nat.le_refl _) fun r _ => by cases r <;> trivial

/-- The costs of two attempts add up, and the second one may not be reached. -/
theorem bind {m : Attempt ε σ α} {f : α → Attempt ε σ β} (hm : Ends clock k inv m mid)
    (hf : ∀ a, mid a → Ends clock n inv (f a) post) :
    Ends clock (k + n) inv (m >>= f) post := by
  rw [Ends, ExceptT.run_bind]
  refine Keeps.bind hm fun r hr => ?_
  cases r with
  | ok a => exact hf a hr
  | error e => exact Keeps.pure trivial

/-- A loop that collects a value for each element, unless it stops at one with an error. -/
theorem mapM {γ : Type} {P : α → Prop} {xs : List γ} {f : γ → Attempt ε σ α}
    (h : ∀ x ∈ xs, Ends clock cost inv (f x) P) :
    Ends clock (cost * xs.length) inv (xs.mapM f) (Collected xs P) := by
  induction xs with
  | nil => exact pure .nil
  | cons x xs ih =>
    rw [List.mapM_cons, List.length_cons, Nat.mul_succ, Nat.add_comm]
    refine (h x List.mem_cons_self).bind fun a ha => ?_
    have hrest := ih fun y hy => h y (List.mem_cons_of_mem _ hy)
    exact hrest.bind (n := 0) fun as has => pure (.cons ha has)

/-- A wait with a limit that its counter can reach ends, whatever the answers are. -/
theorem wait {poll : Poll} {limit : Nat} {awaited : Awaited} {ready : Attempt Error σ Bool}
    (hpoll : poll.Reaches limit) (h : Ends clock cost inv ready Any) :
    Ends clock (cost * (limit + 1)) inv (poll.wait awaited ready) Any := by
  have hready : Within clock cost inv ready.run
      (Ending (fun isReady s => if isReady then inv s else inv s) fun _ => inv) := by
    refine Within.mono h (Nat.le_refl _) (fun _ hs => hs) fun r _ ht => ?_
    cases r with
    | ok isReady => cases isReady <;> exact ht.1
    | error e => exact ht.1
  refine Within.mono (Within.wait hpoll hready fun _ hs => hs) (Nat.le_refl _) (fun _ hs => hs)
    fun r _ ht => ?_
  cases r <;> exact ⟨ht, trivial⟩

end Ends

/-! ## Waits that are given up -/

/-- A wait has taken too long. -/
def Error.IsTimeout (e : Error) : Prop := ∃ awaited, e = .timeout awaited

/-- A wait for one of these has taken too long. -/
def Error.IsTimeoutOf (waits : List Awaited) (e : Error) : Prop :=
  ∃ awaited ∈ waits, e = .timeout awaited

/-- A timeout of one of these waits is a timeout. -/
theorem Error.IsTimeoutOf.isTimeout {waits : List Awaited} {e : Error} (h : e.IsTimeoutOf waits) :
    e.IsTimeout :=
  let ⟨awaited, _, he⟩ := h
  ⟨awaited, he⟩

/-- More waits may be allowed for. -/
theorem Error.IsTimeoutOf.mono {waits more : List Awaited} {e : Error} (h : e.IsTimeoutOf waits)
    (hsubset : waits ⊆ more) : e.IsTimeoutOf more :=
  let ⟨awaited, hmem, he⟩ := h
  ⟨awaited, hsubset hmem, he⟩

/-- A wait for a condition without errors of its own fails only by taking too long. -/
theorem Keeps.wait {poll : Poll} {limit : Nat} {awaited : Awaited} {condition : Action σ Bool}
    (hpoll : poll.Reaches limit) (h : Keeps clock cost inv condition Any) :
    Within clock (cost * (limit + 1)) inv (poll.wait awaited (perform condition)).run
      (Ending (fun _ => inv) fun e s => inv s ∧ e = .timeout awaited) := by
  refine Within.wait_perform hpoll (Within.mono h (Nat.le_refl _) (fun _ hs => hs) ?_)
  intro isReady _ ht
  cases isReady <;> exact ht.1

/-! ## The accesses of a bus -/

namespace Bus

variable [Bus β]

/-- A register that can be read and written at any time. -/
structure HasRegister (clock : β → Nat) (inv : β → Prop) (offset : Nat) : Prop where
  read32 : Keeps clock 1 inv (Bus.read32 offset) Any
  write32 : ∀ value, Keeps clock 1 inv (Bus.write32 offset value) Any

namespace HasRegister

variable {clock : β → Nat} {inv : β → Prop} {offset : Nat} (h : HasRegister clock inv offset)

include h

/-- A register is changed with two accesses. -/
theorem modify32 (change : UInt32 → UInt32) :
    Keeps clock 2 inv (Bus.modify32 offset change) Any :=
  h.read32.bind fun value _ => h.write32 (change value)

/-- Bits are set with two. -/
theorem setBits (bits : UInt32) : Keeps clock 2 inv (Bus.setBits offset bits) Any :=
  h.modify32 _

/-- They are cleared with two. -/
theorem clearBits (bits : UInt32) : Keeps clock 2 inv (Bus.clearBits offset bits) Any :=
  h.modify32 _

/-- And they are replaced with two. -/
theorem replaceBits (mask bits : UInt32) :
    Keeps clock 2 inv (Bus.replaceBits offset mask bits) Any :=
  h.modify32 _

/-- Flags are looked at with one. -/
theorem anySet (bits : UInt32) : Keeps clock 1 inv (Bus.anySet offset bits) Any :=
  h.read32.bind (n := 0) fun _ _ => .pure trivial

/-- The same, if all of them have to be clear. -/
theorem allClear (bits : UInt32) : Keeps clock 1 inv (Bus.allClear offset bits) Any :=
  h.read32.bind (n := 0) fun _ _ => .pure trivial

end HasRegister

/-- A strength is configured with two accesses for each of the two changes. -/
theorem HasRegister.configureEcc {clock : β → Nat} {inv : β → Prop}
    (h : HasRegister clock inv Register.control) (strengthBits : Option UInt32) :
    Keeps clock 4 inv (Bus.configureEcc strengthBits) Any := by
  cases strengthBits with
  | none => exact (h.clearBits _).le (by omega)
  | some bits => exact (h.replaceBits _ _).bind fun _ _ => h.setBits _

/-- Every access returns, whatever it answers, and moves the clock on by at most one. A buffer
that is filled keeps its length. -/
structure Answers (clock : β → Nat) : Prop where
  read32 : ∀ offset, Keeps clock 1 Any (Bus.read32 offset) Any
  write32 : ∀ offset value, Keeps clock 1 Any (Bus.write32 offset value) Any
  read8 : ∀ offset, Keeps clock 1 Any (Bus.read8 offset) Any
  write8 : ∀ offset value, Keeps clock 1 Any (Bus.write8 offset value) Any
  dmaAddress : ∀ data, Keeps clock 1 Any (Bus.dmaAddress data) Any
  dmaToDevice : ∀ data, Keeps clock 1 Any (Bus.dmaToDevice data) Any
  dmaFromDevice : ∀ data, Keeps clock 1 Any (Bus.dmaFromDevice data) fun filled =>
    filled.size = data.size
  delay : ∀ nanoseconds, Keeps clock 1 Any (Bus.delay nanoseconds) Any

/-- On a bus that answers, any register does. -/
theorem Answers.register {clock : β → Nat} (h : Answers clock) (offset : Nat) :
    HasRegister clock Any offset :=
  ⟨h.read32 offset, h.write32 offset⟩

/-- The registers for commands, addresses and data of the chip. -/
def IsChipPort (offset : Nat) : Prop := Register.command ≤ offset ∧ offset ≤ Register.data

instance (offset : Nat) : Decidable (IsChipPort offset) := instDecidableAnd

/-- What the transfer engine asks of a bus: the accesses it makes return, whatever they answer,
and keep `inv`. It never goes to the ports of the chip, so these may have rules of their own. -/
structure Serves (clock : β → Nat) (inv : β → Prop) : Prop where
  register : ∀ {offset}, ¬IsChipPort offset → HasRegister clock inv offset
  read8 : ∀ i, Keeps clock 1 inv (Bus.read8 (Register.window + i)) Any
  write8 : ∀ i value, Keeps clock 1 inv (Bus.write8 (Register.window + i) value) Any
  dmaAddress : ∀ data, Keeps clock 1 inv (Bus.dmaAddress data) Any
  dmaToDevice : ∀ data, Keeps clock 1 inv (Bus.dmaToDevice data) Any
  dmaFromDevice : ∀ data, Keeps clock 1 inv (Bus.dmaFromDevice data) fun filled =>
    filled.size = data.size

/-- A bus that answers serves every transfer. -/
theorem Answers.serves {clock : β → Nat} (h : Answers clock) : Serves clock Any where
  register _ := h.register _
  read8 _ := h.read8 _
  write8 _ := h.write8 _
  dmaAddress := h.dmaAddress
  dmaToDevice := h.dmaToDevice
  dmaFromDevice := h.dmaFromDevice

end Bus

end NandFlash
