import NandFlash.Proofs.AnyBus.Access

/-!
# Two runs side by side

The driver can be put on any bus, and so it can be run twice: on a device, and on something that
watches the device. `Parallel` compares two such runs, started in related states. They return the
same value and end in related states, or both end in the same crash. Which crashes are tolerated is
a parameter: with `Never` the runs return, with `Any` nothing is said about runs that do not.

`InStep` is the case of a relation that is kept, and `TryInStep` the same for attempts.
-/

namespace NandFlash

variable {σ τ α β ε : Type}

/-- What no value satisfies. -/
def Never : α → Prop := fun _ => False

/-- From states related by `pre`, two runs return the same value, in states related by `post`, or
both end in the same crash, which `may` happen. -/
def Parallel (may : Crash → Prop) (pre : σ → τ → Prop) (m : Action σ α) (m' : Action τ α)
    (post : α → σ → τ → Prop) : Prop :=
  ∀ s t, pre s t →
    (∃ a s' t', m.run s = .ok (a, s') ∧ m'.run t = .ok (a, t') ∧ post a s' t') ∨
      ∃ defect, may defect ∧ m.run s = .error defect ∧ m'.run t = .error defect

/-- Two runs that keep a relation between their states, with a value that satisfies `post`. -/
def InStep (may : Crash → Prop) (inv : σ → τ → Prop) (m : Action σ α) (m' : Action τ α)
    (post : α → Prop) : Prop :=
  Parallel may inv m m' fun a s t => inv s t ∧ post a

/-- The same for attempts, which may also both end with the same error. -/
def TryInStep (may : Crash → Prop) (inv : σ → τ → Prop) (m : Attempt ε σ α) (m' : Attempt ε τ α)
    (post : α → Prop) : Prop :=
  InStep may inv m.run m'.run (Ending post Any)

variable {may : Crash → Prop}

namespace Parallel

variable {pre : σ → τ → Prop} {mid : α → σ → τ → Prop} {post : β → σ → τ → Prop}

theorem pure {post : α → σ → τ → Prop} {a : α} (h : ∀ s t, pre s t → post a s t) :
    Parallel may pre (pure a) (pure a) post :=
  fun s t hst => .inl ⟨a, s, t, rfl, rfl, h s t hst⟩

theorem bind {m : Action σ α} {m' : Action τ α} {f : α → Action σ β} {f' : α → Action τ β}
    (hm : Parallel may pre m m' mid) (hf : ∀ a, Parallel may (mid a) (f a) (f' a) post) :
    Parallel may pre (m >>= f) (m' >>= f') post := by
  intro s t hst
  rcases hm s t hst with ⟨a, s', t', hrun, hrun', hmid⟩ | ⟨defect, hmay, hrun, hrun'⟩
  · rw [run_bind hrun, run_bind hrun']
    exact hf a s' t' hmid
  · exact .inr ⟨defect, hmay, run_bind_crash hrun, run_bind_crash hrun'⟩

theorem mono {m : Action σ α} {m' : Action τ α} {pre' : σ → τ → Prop} {post : α → σ → τ → Prop}
    (h : Parallel may pre' m m' mid) (hpre : ∀ s t, pre s t → pre' s t)
    (hpost : ∀ a s t, mid a s t → post a s t) : Parallel may pre m m' post := by
  intro s t hst
  rcases h s t (hpre s t hst) with ⟨a, s', t', hrun, hrun', hmid⟩ | hcrash
  · exact .inl ⟨a, s', t', hrun, hrun', hpost a s' t' hmid⟩
  · exact .inr hcrash

/-- The binding rule for attempts: an error of the first part is one of the whole. -/
theorem attempt_bind {m : Attempt ε σ α} {m' : Attempt ε τ α} {f : α → Attempt ε σ β}
    {f' : α → Attempt ε τ β} {fail : ε → σ → τ → Prop}
    (hm : Parallel may pre m.run m'.run (Ending mid fail))
    (hf : ∀ a, Parallel may (mid a) (f a).run (f' a).run (Ending post fail)) :
    Parallel may pre (m >>= f).run (m' >>= f').run (Ending post fail) := by
  rw [ExceptT.run_bind, ExceptT.run_bind]
  refine hm.bind fun r => ?_
  cases r with
  | ok a => exact hf a
  | error e => exact pure fun _ _ h => h

theorem perform {m : Action σ α} {m' : Action τ α} {fail : ε → σ → τ → Prop}
    (h : Parallel may pre m m' mid) :
    Parallel may pre (perform m : Attempt ε σ α).run (perform m' : Attempt ε τ α).run
      (Ending mid fail) := by
  intro s t hst
  rcases h s t hst with ⟨a, s', t', hrun, hrun', hmid⟩ | ⟨defect, hmay, hrun, hrun'⟩
  · exact .inl ⟨.ok a, s', t', run_perform hrun, run_perform hrun', hmid⟩
  · exact .inr ⟨defect, hmay, run_perform_crash hrun, run_perform_crash hrun'⟩

/-- What is known of the values of the first run is known of both. -/
theorem and_of_run {m : Action σ α} {m' : Action τ α} {P : α → Prop}
    (h : Parallel may pre m m' mid)
    (hvalue : ∀ s t a s', pre s t → m.run s = .ok (a, s') → P a) :
    Parallel may pre m m' fun a s t => mid a s t ∧ P a := by
  intro s t hst
  rcases h s t hst with ⟨a, s', t', hrun, hrun', hmid⟩ | hcrash
  · exact .inl ⟨a, s', t', hrun, hrun', hmid, hvalue s t a s' hst hrun⟩
  · exact .inr hcrash

/-- A relation that is kept, as a step of two runs. -/
theorem inStep {m : Action σ α} {m' : Action τ α} (h : Parallel may pre m m' fun _ => pre) :
    InStep may pre m m' Any :=
  h.mono (fun _ _ hst => hst) fun _ _ _ hst => ⟨hst, trivial⟩

/-- If no crash is tolerated, both runs return. -/
theorem exists_run {m : Action σ α} {m' : Action τ α} (h : Parallel Never pre m m' mid)
    {s : σ} {t : τ} (hst : pre s t) :
    ∃ a s' t', m.run s = .ok (a, s') ∧ m'.run t = .ok (a, t') ∧ mid a s' t' := by
  rcases h s t hst with hreturn | ⟨defect, hmay, -⟩
  · exact hreturn
  · exact hmay.elim

/-- A run that returns takes the other one with it. -/
theorem exists_of_run {m : Action σ α} {m' : Action τ α} (h : Parallel may pre m m' mid) {s s' : σ}
    {t : τ} {a : α} (hst : pre s t) (hrun : m.run s = .ok (a, s')) :
    ∃ t', m'.run t = .ok (a, t') ∧ mid a s' t' := by
  rcases h s t hst with ⟨b, s'', t', hrun', hrun'', hmid⟩ | ⟨defect, -, hrun', -⟩
  · rw [hrun'] at hrun
    cases hrun
    exact ⟨t', hrun'', hmid⟩
  · rw [hrun'] at hrun
    cases hrun

end Parallel

/-- A state beside itself, with a property. -/
def Twice (P : σ → Prop) (s t : σ) : Prop := t = s ∧ P s

/-- One run beside itself crashes with itself, or returns what it does from a state with `pre`. -/
theorem Parallel.twice {m : Action σ α} {pre : σ → Prop} {post : α → σ → Prop}
    (h : ∀ s a t, pre s → m.run s = .ok (a, t) → post a t) :
    Parallel Any (Twice pre) m m fun a => Twice (post a) := by
  rintro s t ⟨rfl, hs⟩
  cases hrun : m.run t with
  | ok result => exact .inl ⟨result.1, result.2, result.2, rfl, rfl, rfl, h _ _ _ hs hrun⟩
  | error defect => exact .inr ⟨defect, trivial, rfl, rfl⟩

variable {inv : σ → τ → Prop} {mid : α → Prop} {post : β → Prop}

namespace InStep

theorem pure {post : α → Prop} {a : α} (h : post a) : InStep may inv (pure a) (pure a) post :=
  Parallel.pure fun _ _ hst => ⟨hst, h⟩

theorem bind {m : Action σ α} {m' : Action τ α} {f : α → Action σ β} {f' : α → Action τ β}
    (hm : InStep may inv m m' mid) (hf : ∀ a, mid a → InStep may inv (f a) (f' a) post) :
    InStep may inv (m >>= f) (m' >>= f') post :=
  Parallel.bind hm fun a s t hst => hf a hst.2 s t hst.1

/-- The binding rule where nothing is asked of the first value. -/
theorem next {m : Action σ α} {m' : Action τ α} {f : α → Action σ β} {f' : α → Action τ β}
    (hm : InStep may inv m m' Any) (hf : ∀ a, InStep may inv (f a) (f' a) post) :
    InStep may inv (m >>= f) (m' >>= f') post :=
  hm.bind fun a _ => hf a

theorem mono {m : Action σ α} {m' : Action τ α} {post : α → Prop} (h : InStep may inv m m' mid)
    (hpost : ∀ a, mid a → post a) : InStep may inv m m' post :=
  Parallel.mono h (fun _ _ hst => hst) fun a _ _ hst => ⟨hst.1, hpost a hst.2⟩

/-- Only the relation, as a comparison of two runs. -/
theorem parallel {m : Action σ α} {m' : Action τ α} (h : InStep may inv m m' mid) :
    Parallel may inv m m' fun _ => inv :=
  Parallel.mono h (fun _ _ hst => hst) fun _ _ _ hst => hst.1

/-- A computation without a state that comes to a value. -/
theorem lift {x : Except Crash α} {a : α} (hx : x = .ok a) :
    InStep may inv (liftM x : Action σ α) (liftM x : Action τ α) fun b => b = a :=
  fun s t hst => .inl ⟨a, s, t, run_action_lift hx, run_action_lift hx, hst, rfl⟩

/-- States that are looked at are related. -/
theorem get_bind {f : σ → Action σ β} {f' : τ → Action τ β}
    (h : ∀ s t, inv s t → InStep may inv (f s) (f' t) post) :
    InStep may inv (get >>= f) (get >>= f') post :=
  fun s t hst => h s t hst s t hst

theorem forM {γ : Type} {xs : List γ} {f : γ → Action σ PUnit} {f' : γ → Action τ PUnit}
    (h : ∀ x, InStep may inv (f x) (f' x) Any) : InStep may inv (xs.forM f) (xs.forM f') Any := by
  induction xs with
  | nil => exact pure trivial
  | cons x xs ih => exact (h x).bind fun _ _ => ih

/-- A loop that hands a value through; `keep` holds of the value all the way. -/
theorem foldlM {γ : Type} {keep : α → Prop} {xs : List γ} {f : α → γ → Action σ α}
    {f' : α → γ → Action τ α}
    (h : ∀ x ∈ xs, ∀ a, keep a → InStep may inv (f a x) (f' a x) keep) {a : α} (ha : keep a) :
    InStep may inv (xs.foldlM f a) (xs.foldlM f' a) keep := by
  induction xs generalizing a with
  | nil => exact pure ha
  | cons x xs ih =>
    rw [List.foldlM_cons, List.foldlM_cons]
    refine (h x List.mem_cons_self a ha).bind fun b hb => ?_
    exact ih (fun y hy => h y (List.mem_cons_of_mem _ hy)) hb

/-- A loop that collects a value for each element. -/
theorem mapM {γ : Type} {P : α → Prop} {xs : List γ} {f : γ → Action σ α} {f' : γ → Action τ α}
    (h : ∀ x, InStep may inv (f x) (f' x) P) :
    InStep may inv (xs.mapM f) (xs.mapM f') (Collected xs P) := by
  induction xs with
  | nil => exact pure .nil
  | cons x xs ih =>
    rw [List.mapM_cons, List.mapM_cons]
    exact (h x).bind fun a ha => ih.bind fun as has => pure (.cons ha has)

end InStep

namespace TryInStep

theorem pure {post : α → Prop} {a : α} (h : post a) :
    TryInStep may inv (pure a : Attempt ε σ α) (pure a : Attempt ε τ α) post :=
  InStep.pure h

theorem throw {e : ε} :
    TryInStep may inv (throw e : Attempt ε σ α) (throw e : Attempt ε τ α) mid :=
  InStep.pure trivial

theorem perform {m : Action σ α} {m' : Action τ α} (h : InStep may inv m m' mid) :
    TryInStep may inv (perform m : Attempt ε σ α) (perform m' : Attempt ε τ α) mid :=
  Parallel.mono h.perform (fun _ _ hst => hst) fun r s t hend => by
    cases r with
    | ok a => exact hend
    | error e => exact ⟨(hend : inv s t), trivial⟩

/-- A computation without a state that comes to a value. -/
theorem lift {x : Except Crash α} {a : α} (hx : x = .ok a) :
    TryInStep may inv (liftM x : Attempt ε σ α) (liftM x : Attempt ε τ α) fun b => b = a :=
  fun s t hst => .inl ⟨.ok a, s, t, run_lift hx, run_lift hx, hst, rfl⟩

theorem mono {m : Attempt ε σ α} {m' : Attempt ε τ α} {post : α → Prop}
    (h : TryInStep may inv m m' mid) (hpost : ∀ a, mid a → post a) : TryInStep may inv m m' post :=
  InStep.mono h fun r hr => by
    cases r with
    | ok a => exact hpost a hr
    | error e => trivial

theorem of_inStep {m : Attempt ε σ α} {m' : Attempt ε τ α}
    (h : InStep may inv m.run m'.run Any) : TryInStep may inv m m' Any :=
  InStep.mono h fun r _ => by cases r <;> trivial

theorem bind {m : Attempt ε σ α} {m' : Attempt ε τ α} {f : α → Attempt ε σ β}
    {f' : α → Attempt ε τ β} (hm : TryInStep may inv m m' mid)
    (hf : ∀ a, mid a → TryInStep may inv (f a) (f' a) post) :
    TryInStep may inv (m >>= f) (m' >>= f') post := by
  rw [TryInStep, ExceptT.run_bind, ExceptT.run_bind]
  refine InStep.bind hm fun r hr => ?_
  cases r with
  | ok a => exact hf a hr
  | error e => exact InStep.pure trivial

/-- The binding rule where nothing is asked of the first value. -/
theorem next {m : Attempt ε σ α} {m' : Attempt ε τ α} {f : α → Attempt ε σ β}
    {f' : α → Attempt ε τ β} (hm : TryInStep may inv m m' Any)
    (hf : ∀ a, TryInStep may inv (f a) (f' a) post) :
    TryInStep may inv (m >>= f) (m' >>= f') post :=
  hm.bind fun a _ => hf a

/-- States that are looked at are related. -/
theorem get_bind {f : σ → Attempt ε σ β} {f' : τ → Attempt ε τ β}
    (h : ∀ s t, inv s t → TryInStep may inv (f s) (f' t) post) :
    TryInStep may inv (get >>= f) (get >>= f') post :=
  fun s t hst => h s t hst s t hst

/-- A loop that collects a value for each element, unless it stops at one with an error. -/
theorem mapM {γ : Type} {P : α → Prop} {xs : List γ} {f : γ → Attempt ε σ α}
    {f' : γ → Attempt ε τ α} (h : ∀ x ∈ xs, TryInStep may inv (f x) (f' x) P) :
    TryInStep may inv (xs.mapM f) (xs.mapM f') (Collected xs P) := by
  induction xs with
  | nil => exact pure .nil
  | cons x xs ih =>
    rw [List.mapM_cons, List.mapM_cons]
    refine (h x List.mem_cons_self).bind fun a ha => ?_
    have hrest := ih fun y hy => h y (List.mem_cons_of_mem _ hy)
    exact hrest.bind fun as has => pure (.cons ha has)

end TryInStep

/-- An attempt that keeps a relation, as a comparison of two runs. -/
theorem TryInStep.parallel {m : Attempt ε σ α} {m' : Attempt ε τ α}
    (h : TryInStep may inv m m' mid) :
    Parallel may inv m.run m'.run (Ending (fun a s t => inv s t ∧ mid a) fun _ => inv) := by
  refine Parallel.mono h (fun _ _ hst => hst) fun r s t hend => ?_
  cases r with
  | ok a => exact hend
  | error e => exact hend.1

/-- The same where nothing is asked of the value. -/
theorem TryInStep.parallel_any {m : Attempt ε σ α} {m' : Attempt ε τ α}
    (h : TryInStep may inv m m' Any) :
    Parallel may inv m.run m'.run (Ending (fun _ => inv) fun _ => inv) := by
  refine Parallel.mono h (fun _ _ hst => hst) fun r s t hend => ?_
  cases r <;> exact hend.1

/-- Two attempts that leave related states behind are in step, however they end. -/
theorem TryInStep.of_parallel {m : Attempt ε σ α} {m' : Attempt ε τ α}
    (h : Parallel may inv m.run m'.run (Ending (fun _ => inv) fun _ => inv)) :
    TryInStep may inv m m' Any := by
  refine Parallel.mono h (fun _ _ hst => hst) fun r s t hend => ?_
  cases r <;> exact ⟨hend, trivial⟩

/-! ## Waits -/

/-- Either a wait is given up in time, or it is no matter if its counter runs over. -/
def Patient (may : Crash → Prop) (poll : Poll) : Prop :=
  may .arithmetic ∨ ∃ limit, poll.Reaches limit

/-- A wait keeps what each of its turns keeps, however many turns it takes. -/
theorem TryInStep.wait {poll : Poll} {awaited : Awaited} {ready : Attempt Error σ Bool}
    {ready' : Attempt Error τ Bool} (hpoll : Patient may poll)
    (h : TryInStep may inv ready ready' Any) :
    TryInStep may inv (poll.wait awaited ready) (poll.wait awaited ready') Any := by
  -- The counter stands at `maxTurns - left`, and within the limit if there is one within reach.
  have hwithin : ∀ left, left ≤ Poll.maxTurns →
      (may .arithmetic ∨ ∃ limit, poll.Reaches limit ∧ Poll.maxTurns - left ≤ limit) →
      TryInStep may inv (poll.waitWithin awaited ready left)
        (poll.waitWithin awaited ready' left) Any := by
    intro left
    induction left with
    | zero =>
      intro _ hcount
      unfold Poll.waitWithin
      refine h.bind fun isReady _ => ?_
      cases isReady with
      | true => exact TryInStep.pure trivial
      | false =>
        rcases hcount with hmay | ⟨limit, hreaches, hle⟩
        · exact fun s t _ => .inr ⟨.arithmetic, hmay, rfl, rfl⟩
        · have hlt := hreaches.limit_lt
          omega
    | succ left ih =>
      intro hleft hcount
      unfold Poll.waitWithin
      refine h.bind fun isReady _ => ?_
      cases isReady with
      | true => exact TryInStep.pure trivial
      | false =>
        by_cases hover : poll.isOver (Poll.maxTurns - left) = true
        · simp only [hover]
          exact TryInStep.throw
        · simp only [hover]
          refine ih (by omega) ?_
          rcases hcount with hmay | ⟨limit, hreaches, -⟩
          · exact .inl hmay
          · simp only [Poll.isOver, hreaches.limit_eq, decide_eq_true_eq] at hover
            exact .inr ⟨limit, hreaches, by omega⟩
  refine hwithin Poll.maxTurns (Nat.le_refl _) ?_
  rcases hpoll with hmay | ⟨limit, hreaches⟩
  · exact .inl hmay
  · exact .inr ⟨limit, hreaches, by omega⟩

end NandFlash
