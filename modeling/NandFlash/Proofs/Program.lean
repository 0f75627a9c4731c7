import Mathlib.Tactic.Common
import NandFlash.Poll

/-!
# Reasoning about actions and attempts

Three ways to speak about a run. The `run_*` lemmas execute a program step by step from a known
state. `Within` is a total triple with a budget: from every state that satisfies the precondition
the action returns, and a clock on the state moves on by no more than the budget. `Follows`
measures a run by a computation without its state: the two crash alike, or else the value of the
computation tells how the run has ended.
-/

namespace NandFlash

variable {σ τ α β ε : Type}

/-! ## Computations that succeed -/

/-- A computation that succeeds has succeeded in its first step. -/
theorem exists_of_bind_eq_ok {ε α β : Type} {x : Except ε α} {f : α → Except ε β} {b : β}
    (h : (x >>= f) = .ok b) : ∃ a, x = .ok a ∧ f a = .ok b := by
  cases x with
  | error e => cases h
  | ok a => exact ⟨a, rfl, h⟩

/-- A reworked result comes from a result. -/
theorem exists_of_map_eq_ok {ε α β : Type} {x : Except ε α} {f : α → β} {b : β}
    (h : x.map f = .ok b) : ∃ a, x = .ok a ∧ f a = b := by
  cases x with
  | error e => cases h
  | ok a => exact ⟨a, rfl, Except.ok.inj h⟩

/-! ## Execution step by step -/

/-- A step that succeeds hands on its value and its state. -/
theorem run_bind {m : Action σ α} {f : α → Action σ β} {s t : σ} {a : α}
    (h : m.run s = .ok (a, t)) : (m >>= f).run s = (f a).run t := by
  rw [StateT.run_bind, h]
  rfl

/-- The same, to execute a program from its first step on. -/
theorem run_step {m : Action σ α} {f : α → Action σ β} {s t : σ} {a : α}
    {r : Except Crash (β × σ)} (hm : m.run s = .ok (a, t)) (hf : (f a).run t = r) :
    (m >>= f).run s = r := by
  rw [run_bind hm, hf]

/-- A step that crashes ends the run. -/
theorem run_bind_crash {m : Action σ α} {f : α → Action σ β} {s : σ} {defect : Crash}
    (h : m.run s = .error defect) : (m >>= f).run s = .error defect := by
  rw [StateT.run_bind, h]
  rfl

/-- A computation without a state that comes to a value, as an action. -/
theorem run_action_lift {x : Except Crash α} {a : α} {s : σ} (hx : x = .ok a) :
    (liftM x : Action σ α).run s = .ok (a, s) := by
  subst hx
  rfl

/-- An action in an attempt succeeds if it returns. -/
theorem run_perform {m : Action σ α} {s t : σ} {a : α} (h : m.run s = .ok (a, t)) :
    (perform m : Attempt ε σ α).run.run s = .ok (.ok a, t) := by
  rw [perform, ExceptT.run_lift, StateT.run_map, h]
  rfl

/-- It crashes if the action does. -/
theorem run_perform_crash {m : Action σ α} {s : σ} {defect : Crash}
    (h : m.run s = .error defect) :
    (perform m : Attempt ε σ α).run.run s = .error defect := by
  rw [perform, ExceptT.run_lift, StateT.run_map, h]
  rfl

/-- An attempt that succeeds hands on its value and its state. -/
theorem run_attempt_bind {m : Attempt ε σ α} {f : α → Attempt ε σ β} {s t : σ} {a : α}
    (h : m.run.run s = .ok (.ok a, t)) : (m >>= f).run.run s = (f a).run.run t := by
  rw [ExceptT.run_bind, run_bind h]

/-- The same, for a run whose rest is known. -/
theorem run_attempt_step {m : Attempt ε σ α} {f : α → Attempt ε σ β} {s t : σ} {a : α}
    {r : Except Crash (Except ε β × σ)} (hm : m.run.run s = .ok (.ok a, t))
    (hf : (f a).run.run t = r) : (m >>= f).run.run s = r := by
  rw [run_attempt_bind hm, hf]

/-- An attempt that fails ends the run, in the state that it has left. -/
theorem run_attempt_bind_error {m : Attempt ε σ α} {f : α → Attempt ε σ β} {s t : σ} {e : ε}
    (h : m.run.run s = .ok (.error e, t)) : (m >>= f).run.run s = .ok (.error e, t) := by
  rw [ExceptT.run_bind, run_bind h]
  rfl

/-- One that crashes ends it too. -/
theorem run_attempt_bind_crash {m : Attempt ε σ α} {f : α → Attempt ε σ β} {s : σ}
    {defect : Crash} (h : m.run.run s = .error defect) :
    (m >>= f).run.run s = .error defect := by
  rw [ExceptT.run_bind, run_bind_crash h]

/-- A wait is over at once if the answer is yes, whatever its counter says. -/
theorem run_waitWithin {poll : Poll} {awaited : Awaited} {ready : Attempt Error σ Bool} {s t : σ}
    (h : ready.run.run s = .ok (.ok true, t)) (left : Nat) :
    (poll.waitWithin awaited ready left).run.run s = .ok (.ok (), t) := by
  cases left with
  | zero => rw [Poll.waitWithin, run_attempt_bind h]; rfl
  | succ left => rw [Poll.waitWithin, run_attempt_bind h]; rfl

/-- A wait is over at once if the first look says so. -/
theorem run_wait {poll : Poll} {awaited : Awaited} {ready : Attempt Error σ Bool} {s t : σ}
    (h : ready.run.run s = .ok (.ok true, t)) :
    (poll.wait awaited ready).run.run s = .ok (.ok (), t) :=
  run_waitWithin h Poll.maxTurns

/-- A computation without a state runs as it is. -/
theorem run_lift {x : Except Crash α} {a : α} {s : σ} (hx : x = .ok a) :
    (liftM x : Attempt ε σ α).run.run s = .ok (.ok a, s) := by
  subst hx
  rfl

/-- Questions that change nothing are answered one after the other. -/
theorem run_mapM {ι : Type} {l : List ι} {m : ι → Action σ α} {f : ι → α} {s : σ}
    (h : ∀ i ∈ l, (m i).run s = .ok (f i, s)) : (l.mapM m).run s = .ok (l.map f, s) := by
  induction l with
  | nil => rfl
  | cons i l ih =>
    rw [List.mapM_cons]
    refine run_step (h i (List.mem_cons_self ..)) ?_
    rw [run_bind (ih fun j hj => h j (List.mem_cons_of_mem _ hj))]
    rfl

/-- Attempts that leave the state alone answer one after the other. -/
theorem run_attempt_mapM {ι : Type} {l : List ι} {m : ι → Attempt ε σ α} {f : ι → α} {s : σ}
    (h : ∀ i ∈ l, (m i).run.run s = .ok (.ok (f i), s)) :
    (l.mapM m).run.run s = .ok (.ok (l.map f), s) := by
  induction l with
  | nil => rfl
  | cons i l ih =>
    rw [List.mapM_cons]
    refine run_attempt_step (h i (List.mem_cons_self ..)) ?_
    rw [run_attempt_bind (ih fun j hj => h j (List.mem_cons_of_mem _ hj))]
    rfl

/-- The first error ends a row of attempts. -/
theorem run_attempt_mapM_error {ι : Type} {before after : List ι} {i : ι}
    {m : ι → Attempt ε σ α} {f : ι → α} {s : σ} {e : ε}
    (hbefore : ∀ j ∈ before, (m j).run.run s = .ok (.ok (f j), s))
    (hi : (m i).run.run s = .ok (.error e, s)) :
    ((before ++ i :: after).mapM m).run.run s = .ok (.error e, s) := by
  rw [List.mapM_append, run_attempt_bind (run_attempt_mapM hbefore), List.mapM_cons]
  exact run_attempt_bind_error (run_attempt_bind_error hi)

/-! ## Outcomes of an attempt -/

/-- A condition on how an attempt ends, made of one for values and one for errors. -/
def Ending {ρ : Type} (ok : α → ρ) (fail : ε → ρ) : Except ε α → ρ
  | .ok a => ok a
  | .error e => fail e

/-! ## Total triples with a budget -/

/-- The limit of a poll, within reach of its counter. -/
structure Poll.Reaches (poll : Poll) (limit : Nat) : Prop where
  limit_eq : poll.limit = some limit
  limit_lt : limit < Poll.maxTurns

/-- From every state with `pre` the action returns, with a value and a state that satisfy `post`,
and the clock has moved on by at most `cost`. -/
def Within (clock : σ → Nat) (cost : Nat) (pre : σ → Prop) (m : Action σ α)
    (post : α → σ → Prop) : Prop :=
  ∀ s, pre s → ∃ a t, m.run s = .ok (a, t) ∧ clock t ≤ clock s + cost ∧ post a t

namespace Within

variable {clock : σ → Nat} {cost k n : Nat} {pre : σ → Prop} {mid : α → σ → Prop}
  {post : β → σ → Prop}

/-- Returning costs nothing. -/
theorem pure {post : α → σ → Prop} {a : α} (h : ∀ s, pre s → post a s) :
    Within clock cost pre (pure a) post :=
  fun s hs => ⟨a, s, rfl, Nat.le_add_right _ _, h s hs⟩

/-- Weaken all parts of a triple at once. -/
theorem mono {m : Action σ α} {pre' : σ → Prop} {post : α → σ → Prop}
    (h : Within clock k pre' m mid) (hcost : k ≤ cost) (hpre : ∀ s, pre s → pre' s)
    (hpost : ∀ a s, mid a s → post a s) : Within clock cost pre m post := by
  intro s hs
  obtain ⟨a, t, hrun, hclock, hmid⟩ := h s (hpre s hs)
  exact ⟨a, t, hrun, by omega, hpost a t hmid⟩

/-- More may be granted than is needed. -/
theorem le {m : Action σ α} (h : Within clock k pre m mid) (hcost : k ≤ cost) :
    Within clock cost pre m mid :=
  h.mono hcost (fun _ hs => hs) fun _ _ ht => ht

/-- The costs of two steps add up. -/
theorem bind {m : Action σ α} {f : α → Action σ β} (hm : Within clock k pre m mid)
    (hf : ∀ a, Within clock n (mid a) (f a) post) :
    Within clock (k + n) pre (m >>= f) post := by
  intro s hs
  obtain ⟨a, t, hrun, hclock, hmid⟩ := hm s hs
  obtain ⟨b, u, hrun', hclock', hpost⟩ := hf a t hmid
  exact ⟨b, u, by rw [run_bind hrun, hrun'], by omega, hpost⟩

/-- The binding rule for attempts: an error of the first part is one of the whole. -/
theorem attempt_bind {m : Attempt ε σ α} {f : α → Attempt ε σ β} {fail : ε → σ → Prop}
    (hm : Within clock k pre m.run (Ending mid fail))
    (hf : ∀ a, Within clock n (mid a) (f a).run (Ending post fail)) :
    Within clock (k + n) pre (m >>= f).run (Ending post fail) := by
  intro s hs
  obtain ⟨r, t, hrun, hclock, hmid⟩ := hm s hs
  cases r with
  | error e => exact ⟨.error e, t, run_attempt_bind_error hrun, by omega, hmid⟩
  | ok a =>
    obtain ⟨b, u, hrun', hclock', hpost⟩ := hf a t hmid
    exact ⟨b, u, by rw [run_attempt_bind hrun, hrun'], by omega, hpost⟩

/-- An action in an attempt does not fail. -/
theorem perform {m : Action σ α} {fail : ε → σ → Prop} (hm : Within clock cost pre m mid) :
    Within clock cost pre (perform m : Attempt ε σ α).run (Ending mid fail) := by
  intro s hs
  obtain ⟨a, t, hrun, hclock, hmid⟩ := hm s hs
  exact ⟨.ok a, t, run_perform hrun, hclock, hmid⟩

/-- Returning from an attempt costs nothing. -/
theorem attempt_pure {post : α → σ → Prop} {fail : ε → σ → Prop} {a : α}
    (h : ∀ s, pre s → post a s) :
    Within clock cost pre (Pure.pure a : Attempt ε σ α).run (Ending post fail) :=
  fun s hs => ⟨.ok a, s, rfl, Nat.le_add_right _ _, h s hs⟩

/-- A computation without a state that comes to a value in every state there can be. -/
theorem attempt_lift {x : Except Crash α} {fail : ε → σ → Prop}
    (h : ∀ s, pre s → ∃ a, x = .ok a ∧ mid a s) :
    Within clock 0 pre (liftM x : Attempt ε σ α).run (Ending mid fail) := by
  intro s hs
  obtain ⟨a, hx, hmid⟩ := h s hs
  exact ⟨.ok a, s, run_lift hx, Nat.le_add_right _ _, hmid⟩

/-- Failing costs nothing. -/
theorem throw {fail : ε → σ → Prop} {e : ε} (h : ∀ s, pre s → fail e s) :
    Within clock cost pre (throw e : Attempt ε σ α).run (Ending mid fail) :=
  fun s hs => ⟨.error e, s, rfl, Nat.le_add_right _ _, h s hs⟩

/-- Weaken what is known of an attempt's end. -/
theorem attempt_mono {m : Attempt ε σ α} {post : α → σ → Prop} {fail fail' : ε → σ → Prop}
    (h : Within clock cost pre m.run (Ending mid fail)) (hok : ∀ a s, mid a s → post a s)
    (hfail : ∀ e s, fail e s → fail' e s) : Within clock cost pre m.run (Ending post fail') := by
  refine h.mono (Nat.le_refl _) (fun _ hs => hs) fun r s hend => ?_
  cases r with
  | ok a => exact hok a s hend
  | error e => exact hfail e s hend

/-- An attempt, and then an action however it has ended. -/
theorem afterwards {m : Attempt ε σ α} {leave : Action σ PUnit} {mid post : σ → Prop}
    {result : Except ε α → Prop} (hm : Within clock k pre m.run fun r s => mid s ∧ result r)
    (hleave : Within clock n mid leave fun _ => post) :
    Within clock (k + n) pre (do let r ← m.run; leave; return r) fun r s =>
      post s ∧ result r := by
  intro s hs
  obtain ⟨r, t, hrun, hclock, hmid, hresult⟩ := hm s hs
  obtain ⟨_, u, hrun', hclock', hpost⟩ := hleave t hmid
  refine ⟨r, u, run_step hrun ?_, by omega, hpost, hresult⟩
  rw [run_bind hrun']
  rfl

variable {inv : σ → Prop}

/-! ### Waits -/

/-- With a limit that its counter can reach, a wait asks at most `limit + 1` times. `inv` holds
while it goes on, and if it times out. -/
theorem wait {poll : Poll} {limit : Nat} {awaited : Awaited} {ready : Attempt Error σ Bool}
    {done : σ → Prop} {fail : Error → σ → Prop} (hpoll : poll.Reaches limit)
    (hready : Within clock cost inv ready.run
      (Ending (fun isReady s => if isReady then done s else inv s) fail))
    (htimeout : ∀ s, inv s → fail (.timeout awaited) s) :
    Within clock (cost * (limit + 1)) inv (poll.wait awaited ready).run
      (Ending (fun _ => done) fail) := by
  obtain ⟨hlimit, hcounter⟩ := hpoll
  -- With `left` turns left the counter stands at `maxTurns - left`.
  have hwithin : ∀ left turns, left + turns = Poll.maxTurns → turns ≤ limit →
      Within clock (cost * (limit + 1 - turns)) inv (poll.waitWithin awaited ready left).run
        (Ending (fun _ => done) fail) := by
    intro left
    induction left with
    | zero => intro turns _ _; omega
    | succ left ih =>
      intro turns hsum hturns
      have hcost : limit + 1 - turns = 1 + (limit - turns) := by omega
      rw [hcost, Nat.mul_add, Nat.mul_one]
      refine hready.attempt_bind fun isReady => ?_
      cases isReady with
      | true => exact attempt_pure fun s hs => by simpa using hs
      | false =>
        have hcount : Poll.maxTurns - left = turns + 1 := by omega
        simp only [Bool.false_eq_true, if_false, Poll.isOver, hlimit, hcount, decide_eq_true_eq]
        by_cases hover : limit < turns + 1
        · simp only [hover, if_true]
          intro s hs
          exact ⟨.error (.timeout awaited), s, rfl, Nat.le_add_right _ _, htimeout s hs⟩
        · simp only [hover, if_false]
          have hrest := ih (turns + 1) (by omega) (by omega)
          intro s hs
          obtain ⟨r, t, hrun, hclock, hend⟩ := hrest s hs
          refine ⟨r, t, hrun, ?_, hend⟩
          rwa [show limit + 1 - (turns + 1) = limit - turns by omega] at hclock
  exact hwithin Poll.maxTurns 0 rfl (Nat.zero_le _)

/-- The same for a condition without errors of its own. -/
theorem wait_perform {poll : Poll} {limit : Nat} {awaited : Awaited} {condition : Action σ Bool}
    {done : σ → Prop} (hpoll : poll.Reaches limit)
    (h : Within clock cost inv condition fun isReady s => if isReady then done s else inv s) :
    Within clock (cost * (limit + 1)) inv (poll.wait awaited (NandFlash.perform condition)).run
      (Ending (fun _ => done) fun e s => inv s ∧ e = .timeout awaited) :=
  wait hpoll (perform h) fun _ hs => ⟨hs, rfl⟩

end Within

/-! ## Runs that follow a computation -/

/-- A run follows a computation `x`: it crashes as `x` does, or returns with what `post` says in
terms of the value of `x`. -/
def Follows {γ : Type} (x : Except Crash γ) (post : γ → α → σ → Prop)
    (run : Except Crash (α × σ)) : Prop :=
  match x, run with
  | .ok c, .ok (a, s) => post c a s
  | .error defect, .error defect' => defect' = defect
  | _, _ => False

namespace Follows

variable {γ δ : Type} {x : Except Crash γ} {f : γ → Except Crash δ}
  {post : δ → β → σ → Prop} {s t : σ}

/-- A run that succeeds follows the value that it satisfies. -/
theorem of_ok {c : δ} {b : β} {run : Except Crash (β × σ)} (hrun : run = .ok (b, s))
    (h : post c b s) : Follows (.ok c) post run := by
  rw [hrun]
  exact h

/-- A run that crashes follows the same crash. -/
theorem of_error {defect : Crash} {run : Except Crash (β × σ)} (hrun : run = .error defect) :
    Follows (.error defect) post run := by
  rw [hrun]
  rfl

/-- A run whose computation comes to a value returns. -/
theorem exists_of_ok {c : δ} {run : Except Crash (β × σ)} (h : Follows (.ok c) post run) :
    ∃ b s, run = .ok (b, s) ∧ post c b s := by
  cases run with
  | error defect => exact h.elim
  | ok result => exact ⟨result.1, result.2, rfl, h⟩

/-- What follows a crash crashes. -/
theorem run_eq_error {defect : Crash} {run : Except Crash (β × σ)}
    (h : Follows (.error defect) post run) : run = .error defect := by
  cases run with
  | error defect' => exact congrArg Except.error h
  | ok result => exact h.elim

/-- A run that returns has a computation that comes to a value. -/
theorem exists_of_run {y : Except Crash δ} {b : β} (h : Follows y post (.ok (b, s))) :
    ∃ c, y = .ok c ∧ post c b s := by
  cases y with
  | error defect => exact h.elim
  | ok c => exact ⟨c, rfl, h⟩

/-- A run may be known to do less. -/
theorem mono {y : Except Crash δ} {mid : δ → β → σ → Prop} {run : Except Crash (β × σ)}
    (h : Follows y mid run) (hpost : ∀ c b s, mid c b s → post c b s) : Follows y post run := by
  revert h
  cases y <;> cases run <;> simp only [Follows, imp_self]
  exact hpost _ _ _

/-- What follows a reworked value follows the value. -/
theorem of_map {y : Except Crash γ} {g : γ → δ} {run : Except Crash (β × σ)}
    (h : Follows (y.map g) post run) : Follows y (fun c => post (g c)) run := by
  cases y <;> cases run <;> exact h

/-- Runs follow computations step by step. -/
theorem bind {mid : γ → α → σ → Prop} {m : Action σ α} {k : α → Action σ β}
    (hm : Follows x mid (m.run s))
    (hk : ∀ c a t, mid c a t → Follows (f c) post ((k a).run t)) :
    Follows (x >>= f) post ((m >>= k).run s) := by
  cases hs : m.run s with
  | error defect =>
    rw [hs] at hm
    cases x with
    | error defect' => exact of_error ((run_bind_crash hs).trans (congrArg _ hm))
    | ok c => exact hm.elim
  | ok r =>
    obtain ⟨a, t⟩ := r
    rw [hs] at hm
    cases x with
    | error defect => exact hm.elim
    | ok c =>
      rw [run_bind hs]
      exact hk c a t hm

/-- A step whose end is known needs no counterpart in the computation. -/
theorem step {y : Except Crash δ} {m : Action σ α} {k : α → Action σ β} {a : α}
    (hm : m.run s = .ok (a, t)) (hk : Follows y post ((k a).run t)) :
    Follows y post ((m >>= k).run s) := by
  rw [run_bind hm]
  exact hk

/-- What the computation does after its last crash has no counterpart in the run. -/
theorem finish_left {mid : γ → β → σ → Prop} {run : Except Crash (β × σ)} (h : Follows x mid run)
    (hf : ∀ c b s, mid c b s → ∃ d, f c = .ok d ∧ post d b s) : Follows (x >>= f) post run := by
  cases x <;> cases run
  · exact h
  · exact h.elim
  · exact h.elim
  · obtain ⟨d, hd, hpost⟩ := hf _ _ _ h
    show Follows (f _) post _
    rw [hd]
    exact hpost

/-- What comes after the last crash has no counterpart in the computation. -/
theorem finish {y : Except Crash δ} {mid : δ → α → σ → Prop} {m : Action σ α}
    {k : α → Action σ β} (hm : Follows y mid (m.run s))
    (hk : ∀ c a t, mid c a t → ∃ b u, (k a).run t = .ok (b, u) ∧ post c b u) :
    Follows y post ((m >>= k).run s) := by
  rw [← bind_pure y]
  refine hm.bind fun c a t h => ?_
  obtain ⟨b, u, hrun, hpost⟩ := hk c a t h
  exact of_ok hrun hpost

section

variable {post : δ → Except ε β → σ → Prop}

/-- The binding rule for attempts whose first part succeeds unless it crashes. -/
theorem attempt_bind {mid : γ → α → σ → Prop} {m : Attempt ε σ α} {k : α → Attempt ε σ β}
    (hm : Follows x (fun c r t => ∃ a, r = .ok a ∧ mid c a t) (m.run.run s))
    (hk : ∀ c a t, mid c a t → Follows (f c) post ((k a).run.run t)) :
    Follows (x >>= f) post ((m >>= k).run.run s) := by
  rw [ExceptT.run_bind]
  refine hm.bind fun c r t h => ?_
  obtain ⟨a, rfl, hmid⟩ := h
  exact hk c a t hmid

/-- An error of the first part is one of the whole. -/
theorem attempt_error {y : Except Crash δ} {m : Attempt ε σ α} {k : α → Attempt ε σ β}
    (hm : Follows y (fun c r t => ∃ e, r = .error e ∧ post c (.error e) t) (m.run.run s)) :
    Follows y post ((m >>= k).run.run s) := by
  rw [ExceptT.run_bind]
  refine hm.finish fun c r t h => ?_
  obtain ⟨e, rfl, hpost⟩ := h
  exact ⟨_, t, rfl, hpost⟩

/-- A first step that has nothing to follow may be taken off. -/
theorem attempt_step {y : Except Crash δ} {m : Attempt ε σ α} {k : α → Attempt ε σ β} {a : α}
    (hm : m.run.run s = .ok (.ok a, t)) (hk : Follows y post ((k a).run.run t)) :
    Follows y post ((m >>= k).run.run s) := by
  rw [run_attempt_bind hm]
  exact hk

/-- So may a last one. -/
theorem attempt_finish {y : Except Crash δ} {mid : δ → α → σ → Prop} {m : Attempt ε σ α}
    {k : α → Attempt ε σ β} (hm : Follows y (fun c r t => ∃ a, r = .ok a ∧ mid c a t) (m.run.run s))
    (hk : ∀ c a t, mid c a t → ∃ r u, (k a).run.run t = .ok (r, u) ∧ post c r u) :
    Follows y post ((m >>= k).run.run s) := by
  rw [ExceptT.run_bind]
  refine hm.finish fun c r t h => ?_
  obtain ⟨a, rfl, hmid⟩ := h
  exact hk c a t hmid

/-- An action in an attempt follows what it follows by itself. -/
theorem perform {x : Except Crash γ} {mid : γ → α → σ → Prop} {m : Action σ α}
    (hm : Follows x mid (m.run s)) :
    Follows x (fun c r t => ∃ a, r = .ok a ∧ mid c a t)
      ((perform m : Attempt ε σ α).run.run s) := by
  cases hs : m.run s with
  | error defect =>
    rw [hs] at hm
    cases x with
    | error defect' => exact of_error ((run_perform_crash hs).trans (congrArg _ hm))
    | ok c => exact hm.elim
  | ok r =>
    obtain ⟨a, t⟩ := r
    rw [hs] at hm
    cases x with
    | error defect => exact hm.elim
    | ok c => exact of_ok (run_perform hs) ⟨a, rfl, hm⟩

end

end Follows

/-! ## Waiting in vain -/

/-- What becomes of a wait whose condition never holds: it is given up, unless its counter runs
over before. -/
def Poll.exhaust (poll : Poll) (awaited : Awaited) : Except Crash Error :=
  match poll.limit with
  | some limit => if limit < Poll.maxTurns then .ok (.timeout awaited) else .error .arithmetic
  | none => .error .arithmetic

/-- With a limit that can be reached, waiting in vain is a timeout. -/
theorem Poll.Reaches.exhaust_eq {poll : Poll} {limit : Nat} (h : poll.Reaches limit)
    (awaited : Awaited) : poll.exhaust awaited = .ok (.timeout awaited) := by
  rw [Poll.exhaust, h.limit_eq]
  exact if_pos h.limit_lt

section

variable {poll : Poll} {awaited : Awaited} {ready : Attempt Error σ Bool} {s : σ}
  (h : ready.run.run s = .ok (.ok false, s))

include h

/-- The counter runs over when no turns are left. -/
theorem run_waitWithin_zero :
    (poll.waitWithin awaited ready 0).run.run s = .error .arithmetic := by
  rw [Poll.waitWithin, run_attempt_bind h]
  rfl

/-- A turn in vain ends the wait at the limit, and else leaves it to the next turn. -/
theorem run_waitWithin_succ (left : Nat) : (poll.waitWithin awaited ready (left + 1)).run.run s =
    if poll.isOver (Poll.maxTurns - left) then .ok (.error (.timeout awaited), s)
    else (poll.waitWithin awaited ready left).run.run s := by
  rw [Poll.waitWithin, run_attempt_bind h]
  cases poll.isOver (Poll.maxTurns - left) <;> rfl

/-- Without a limit it is the counter that ends a wait in vain. -/
theorem run_waitWithin_unlimited (hlimit : poll.limit = none) (left : Nat) :
    (poll.waitWithin awaited ready left).run.run s = .error .arithmetic := by
  induction left with
  | zero => exact run_waitWithin_zero h
  | succ left ih =>
    rw [run_waitWithin_succ h, Poll.isOver, hlimit, if_neg Bool.false_ne_true, ih]

/-- With `left` turns left the counter stands at `maxTurns - left`. As long as that is not beyond
the limit, it is the smaller of the two bounds that ends a wait in vain. -/
theorem run_waitWithin_limited {limit : Nat} (hlimit : poll.limit = some limit) {left : Nat}
    (hcount : Poll.maxTurns - left ≤ limit) : (poll.waitWithin awaited ready left).run.run s =
      if limit < Poll.maxTurns then .ok (.error (.timeout awaited), s)
      else .error .arithmetic := by
  induction left with
  | zero => rw [run_waitWithin_zero h, if_neg (by omega)]
  | succ left ih =>
    rw [run_waitWithin_succ h, Poll.isOver, hlimit]
    by_cases hover : limit < Poll.maxTurns - left
    · rw [if_pos (decide_eq_true hover), if_pos (by omega)]
    · rw [if_neg (fun h => hover (of_decide_eq_true h)), ih (by omega)]

/-- A wait in vain ends as its poll says, and leaves the state alone. -/
theorem follows_wait_never : Follows (poll.exhaust awaited) (fun e r t => r = .error e ∧ t = s)
    ((poll.wait awaited ready).run.run s) := by
  unfold Poll.exhaust Poll.wait
  cases hlimit : poll.limit with
  | none => exact Follows.of_error (run_waitWithin_unlimited h hlimit _)
  | some limit =>
    rw [run_waitWithin_limited h hlimit (by omega)]
    by_cases hreached : limit < Poll.maxTurns
    · simp only [hreached, if_true]
      exact ⟨rfl, rfl⟩
    · simp only [hreached, if_false]
      exact rfl

end

/-! ## Two runs side by side -/

/-- Two runs have ended alike: in the same crash, or with the same value in related states. -/
def SameEnd (post : α → σ → σ → Prop) : Except Crash (α × σ) → Except Crash (α × σ) → Prop
  | .ok (a, s), .ok (b, t) => a = b ∧ post a s t
  | .error defect, .error defect' => defect = defect'
  | _, _ => False

/-- Two runs that follow the same computation end alike. -/
theorem Follows.sameEnd {γ : Type} {x : Except Crash γ} {left right : γ → α → σ → Prop}
    {post : α → σ → σ → Prop} {run run' : Except Crash (α × σ)} (h : Follows x left run)
    (h' : Follows x right run')
    (hpost : ∀ c a b s t, left c a s → right c b t → a = b ∧ post a s t) :
    SameEnd post run run' := by
  match x, run, run' with
  | .ok c, .ok (a, s), .ok (b, t) => exact hpost c a b s t h h'
  | .error defect, .error _, .error _ => exact h.trans h'.symm
  | .ok _, .error _, _ | .error _, .ok _, _ => exact h.elim
  | .ok _, .ok _, .error _ | .error _, .error _, .ok _ => exact h'.elim

/-! ## Taking a run apart -/

/-- A run that returns has returned from its first step. -/
theorem exists_of_run_bind {m : Action σ α} {f : α → Action σ β} {s u : σ} {b : β}
    (h : (m >>= f).run s = .ok (b, u)) :
    ∃ a t, m.run s = .ok (a, t) ∧ (f a).run t = .ok (b, u) := by
  obtain ⟨⟨a, t⟩, hm, hf⟩ := exists_of_bind_eq_ok h
  exact ⟨a, t, hm, hf⟩

/-- The first of two attempts has failed, or else the second one has been made. -/
theorem cases_of_run_attempt_bind {m : Attempt ε σ α} {f : α → Attempt ε σ β} {s u : σ}
    {r : Except ε β} (h : (m >>= f).run.run s = .ok (r, u)) :
    (∃ e, m.run.run s = .ok (.error e, u) ∧ r = .error e) ∨
      ∃ a t, m.run.run s = .ok (.ok a, t) ∧ (f a).run.run t = .ok (r, u) := by
  rw [ExceptT.run_bind] at h
  obtain ⟨outcome, t, hm, hf⟩ := exists_of_run_bind h
  cases outcome with
  | error e =>
    cases hf
    exact .inl ⟨e, hm, rfl⟩
  | ok a => exact .inr ⟨a, t, hm, hf⟩

/-- An action in an attempt that returns has returned by itself. -/
theorem exists_of_run_perform {m : Action σ α} {s t : σ} {r : Except ε α}
    (h : (perform m : Attempt ε σ α).run.run s = .ok (r, t)) :
    ∃ a, r = .ok a ∧ m.run s = .ok (a, t) := by
  rw [perform, ExceptT.run_lift, StateT.run_map] at h
  obtain ⟨⟨a, u⟩, hm, hf⟩ := exists_of_map_eq_ok h
  cases hf
  exact ⟨a, rfl, hm⟩

/-- The same, with more behind it. -/
theorem exists_of_run_perform_bind {m : Action σ α} {f : α → Attempt ε σ β} {s u : σ}
    {r : Except ε β} (h : ((perform m : Attempt ε σ α) >>= f).run.run s = .ok (r, u)) :
    ∃ a t, m.run s = .ok (a, t) ∧ (f a).run.run t = .ok (r, u) := by
  cases hm : m.run s with
  | error defect =>
    rw [run_attempt_bind_crash (run_perform_crash hm)] at h
    cases h
  | ok result =>
    obtain ⟨a, t⟩ := result
    rw [run_attempt_bind (run_perform hm)] at h
    exact ⟨a, t, rfl, h⟩

/-- Reworking a value leaves the state as the attempt has left it. -/
theorem exists_of_run_bind_pure {m : Attempt ε σ α} {f : α → β} {s u : σ} {r : Except ε β}
    (h : (m >>= fun a => pure (f a)).run.run s = .ok (r, u)) :
    ∃ outcome, m.run.run s = .ok (outcome, u) := by
  rcases cases_of_run_attempt_bind h with ⟨e, hm, -⟩ | ⟨a, t, hm, hf⟩
  · exact ⟨_, hm⟩
  · cases hf
    exact ⟨_, hm⟩

/-- Adapting an error changes nothing but the error. -/
theorem exists_of_run_adapt {ε' : Type} {m : Attempt ε σ α} {f : ε → ε'} {s t : σ}
    {r : Except ε' α} (h : (m.adapt f).run.run s = .ok (r, t)) :
    ∃ outcome, r = outcome.mapError f ∧ m.run.run s = .ok (outcome, t) := by
  have hmap : (StateT.run (Except.mapError f <$> m.run) s) = .ok (r, t) := h
  rw [StateT.run_map] at hmap
  obtain ⟨⟨outcome, u⟩, hm, hf⟩ := exists_of_map_eq_ok hmap
  cases hf
  exact ⟨outcome, rfl, hm⟩

/-- A computation without a state leaves the state alone. -/
theorem exists_of_run_lift_bind {x : Except Crash α} {f : α → Attempt ε σ β} {s u : σ}
    {r : Except ε β} (h : ((liftM x : Attempt ε σ α) >>= f).run.run s = .ok (r, u)) :
    ∃ a, x = .ok a ∧ (f a).run.run s = .ok (r, u) := by
  cases x with
  | error defect => cases h
  | ok a => exact ⟨a, rfl, h⟩

end NandFlash
