import NandFlash.Proofs.SideBySide.Operations
import NandFlash.Proofs.Stream

/-!
# The whole surface side by side

Blocks and images are worked on through requests alone. Two controllers that no request tells apart
are therefore not told apart by anything that is built on requests, and this is shown once and for
all relations between two controllers. `Operation` collects what can be asked of a controller, from
a single request to the write of a whole image, and `carryOut` says what the caller sees of it.
-/

namespace NandFlash

variable {σ τ ρ α β γ δ ε ε' : Type} {may : Crash → Prop}

/-! ## Further rules -/

namespace InStep

variable {inv : σ → τ → Prop}

/-- A computation without a state, whatever it comes to. -/
theorem lift_any {x : Except Crash α} :
    InStep Any inv (liftM x : Action σ α) (liftM x : Action τ α) Any := by
  intro s t hst
  cases x with
  | ok a => exact .inl ⟨a, s, t, rfl, rfl, hst, trivial⟩
  | error defect => exact .inr ⟨defect, trivial, rfl, rfl⟩

/-- If a second part always returns, a crash of both is one of the first part. -/
theorem run_eq_error_of_bind {m : Action σ α} {f : α → Action σ δ} {s : σ} {defect : Crash}
    (hf : ∀ a s, ∃ d, (f a).run s = .ok (d, s)) (h : (m >>= f).run s = .error defect) :
    m.run s = .error defect := by
  cases hm : m.run s with
  | error defect' =>
    rw [run_bind_crash hm] at h
    cases h
    rfl
  | ok result =>
    obtain ⟨d, hd⟩ := hf result.1 result.2
    cases (run_step hm hd).symm.trans h

/-- A first part that can be told from what is made of its value is in step if the whole is. -/
theorem of_bind {m : Action σ α} {m' : Action τ α} {f : α → Action σ δ} {f' : α → Action τ δ}
    (hf : ∀ a s, ∃ d, (f a).run s = .ok (d, s)) (hf' : ∀ a t, ∃ d, (f' a).run t = .ok (d, t))
    (htell : ∀ a b s t d, (f a).run s = .ok (d, s) → (f' b).run t = .ok (d, t) → a = b)
    (h : InStep may inv (m >>= f) (m' >>= f') Any) : InStep may inv m m' Any := by
  intro s t hst
  rcases h s t hst with ⟨d, s', t', hrun, hrun', hinv, -⟩ | ⟨defect, hmay, hrun, hrun'⟩
  · obtain ⟨a, u, hm, hd⟩ := exists_of_run_bind hrun
    obtain ⟨b, v, hm', hd'⟩ := exists_of_run_bind hrun'
    obtain ⟨e, he⟩ := hf a u
    obtain ⟨e', he'⟩ := hf' b v
    cases he.symm.trans hd
    cases he'.symm.trans hd'
    cases htell a b _ _ d he he'
    exact .inl ⟨a, _, _, hm, hm', hinv, trivial⟩
  · exact .inr ⟨defect, hmay, run_eq_error_of_bind hf hrun, run_eq_error_of_bind hf' hrun'⟩

/-- The same for a value that is only reworked. -/
theorem of_bind_pure {m : Action σ α} {m' : Action τ α} {f : α → δ} (hf : Function.Injective f)
    (h : InStep may inv (m >>= fun a => Pure.pure (f a)) (m' >>= fun a => Pure.pure (f a)) Any) :
    InStep may inv m m' Any := by
  refine of_bind (fun _ _ => ⟨_, rfl⟩) (fun _ _ => ⟨_, rfl⟩) (fun a b _ _ d ha hb => hf ?_) h
  have hleft : f a = d := congrArg Prod.fst (Except.ok.inj ha)
  have hright : f b = d := congrArg Prod.fst (Except.ok.inj hb)
  exact hleft.trans hright.symm

end InStep

namespace TryInStep

variable {inv : σ → τ → Prop} {post : α → Prop}

theorem lift_any {x : Except Crash α} :
    TryInStep Any inv (liftM x : Attempt ε σ α) (liftM x : Attempt ε τ α) Any := by
  intro s t hst
  cases x with
  | ok a => exact .inl ⟨.ok a, s, t, rfl, rfl, hst, trivial⟩
  | error defect => exact .inr ⟨defect, trivial, rfl, rfl⟩

/-- An attempt whose value is thrown away is in step if the attempt is. -/
theorem discard {m : Attempt ε σ α} {m' : Attempt ε τ α} (h : TryInStep may inv m m' Any) :
    TryInStep may inv (Functor.discard m) (Functor.discard m') Any := by
  show TryInStep may inv ((fun _ => PUnit.unit) <$> m) ((fun _ => PUnit.unit) <$> m') Any
  rw [map_eq_pure_bind, map_eq_pure_bind]
  exact h.next fun _ => TryInStep.pure trivial

theorem inStep {m : Attempt ε σ α} {m' : Attempt ε τ α} (h : TryInStep may inv m m' post) :
    InStep may inv m.run m'.run Any :=
  InStep.mono h fun _ _ => trivial

/-- Nothing is done after an error. -/
theorem throw_bind {e : ε} {f : δ → Attempt ε σ α} {f' : δ → Attempt ε τ α} :
    TryInStep may inv (MonadExcept.throw e >>= f) (MonadExcept.throw e >>= f') post := by
  have hthrow : TryInStep may inv (MonadExcept.throw e : Attempt ε σ δ)
      (MonadExcept.throw e : Attempt ε τ δ) fun _ => False := TryInStep.throw
  exact hthrow.bind fun _ hfalse => hfalse.elim

/-- What is done under a condition, without which neither run goes on. -/
theorem ite_throw (p : Prop) [Decidable p] (e : ε) {f : PUnit → Attempt ε σ α}
    {f' : PUnit → Attempt ε τ α} (h : TryInStep may inv (f ⟨⟩) (f' ⟨⟩) post) :
    TryInStep may inv (if p then f ⟨⟩ else MonadExcept.throw e >>= f)
      (if p then f' ⟨⟩ else MonadExcept.throw e >>= f') post := by
  by_cases hp : p
  · rw [if_pos hp, if_pos hp]
    exact h
  · rw [if_neg hp, if_neg hp]
    exact throw_bind

/-- An outcome that is known already. -/
theorem outcome (r : Except ε α) :
    TryInStep may inv (ExceptT.mk (Pure.pure r) : Attempt ε σ α)
      (ExceptT.mk (Pure.pure r) : Attempt ε τ α) Any := by
  cases r with
  | ok a => exact TryInStep.pure trivial
  | error e => exact TryInStep.throw

/-- Errors that are renamed are as equal as before. -/
theorem adapt {m : Attempt ε σ α} {m' : Attempt ε τ α} (f : ε → ε')
    (h : TryInStep may inv m m' Any) : TryInStep may inv (m.adapt f) (m'.adapt f) Any := by
  have hmap : InStep may inv (Except.mapError f <$> m.run) (Except.mapError f <$> m'.run) Any := by
    rw [map_eq_pure_bind, map_eq_pure_bind]
    exact InStep.bind h fun _ _ => .pure trivial
  exact .of_inStep hmap

end TryInStep

/-! ## Something beside the state -/

/-- Related states, with the same thing beside them. -/
structure Beside (inv : σ → τ → Prop) (s : σ × ρ) (t : τ × ρ) : Prop where
  first : inv s.1 t.1
  second_eq : t.2 = s.2

namespace Image

variable {inv : σ → τ → Prop} {post : α → Prop}

/-- What is in step on the states is in step beside a stream. -/
theorem inStep_onFirst {m : Action σ α} {m' : Action τ α} (h : InStep may inv m m' post) :
    InStep may (Beside inv : σ × ρ → τ × ρ → Prop) (onFirst m) (onFirst m') post := by
  rintro ⟨s, r⟩ ⟨t, r'⟩ ⟨hst, hsecond⟩
  change r' = r at hsecond
  subst hsecond
  rcases h s t hst with ⟨a, s', t', hrun, hrun', hinv, hpost⟩ | ⟨defect, hmay, hrun, hrun'⟩
  · exact .inl ⟨a, _, _, run_onFirst hrun r', run_onFirst hrun' r', ⟨hinv, rfl⟩, hpost⟩
  · refine .inr ⟨defect, hmay, ?_, ?_⟩
    · exact congrArg (· >>= _) hrun
    · exact congrArg (· >>= _) hrun'

/-- The same for an attempt. -/
theorem inStep_tryOnFirst {m : Attempt ε σ α} {m' : Attempt ε τ α}
    (h : TryInStep may inv m m' post) :
    TryInStep may (Beside inv : σ × ρ → τ × ρ → Prop) (tryOnFirst m) (tryOnFirst m') post :=
  inStep_onFirst h

/-- An access to the stream takes no notice of the states. -/
theorem inStep_onStream {operation : ρ → Except StreamError α × ρ} :
    TryInStep may (Beside inv) (onStream operation : Attempt Failure (σ × ρ) α)
      (onStream operation : Attempt Failure (τ × ρ) α) Any := by
  refine .of_inStep ?_
  rintro ⟨s, r⟩ ⟨t, r'⟩ ⟨hst, hsecond⟩
  change r' = r at hsecond
  subst hsecond
  exact .inl ⟨_, _, _, run_onStream rfl s, run_onStream rfl t, ⟨hst, rfl⟩, trivial⟩

/-- Where the next piece of an image comes from does not concern the controller. -/
theorem inStep_upNext {inv : Controller β → Controller γ → Prop} (blockBytes : Nat)
    (waiting : Option Bytes) :
    TryInStep may (Beside inv) (upNext blockBytes waiting) (upNext blockBytes waiting) Any := by
  cases waiting with
  | some piece => exact .pure trivial
  | none =>
    refine inStep_onStream.next fun bytes => ?_
    by_cases hempty : bytes.isEmpty
    · rw [if_pos hempty, if_pos hempty]
      exact .pure trivial
    · rw [if_neg hempty, if_neg hempty]
      exact .pure trivial

/-- An attempt with a stream beside the state: its outcome, and the stream as it is left. -/
def withStream (stream : ρ) (attempt : Attempt ε (σ × ρ) α) : Action σ (Except ε α × ρ) :=
  fun s => do
    let (outcome, (s, stream)) ← attempt.run (s, stream)
    return ((outcome, stream), s)

/-- A stream that is handed over at the start comes back the same at the end. -/
theorem inStep_withStream {m : Attempt ε (σ × ρ) α} {m' : Attempt ε (τ × ρ) α}
    (h : TryInStep may (Beside inv) m m' Any) (stream : ρ) :
    InStep may inv (withStream stream m) (withStream stream m') Any := by
  intro s t hst
  rcases h (s, stream) (t, stream) ⟨hst, rfl⟩ with
    ⟨outcome, ⟨s', stream'⟩, ⟨t', stream''⟩, hrun, hrun', ⟨hinv, hstream⟩, -⟩ |
    ⟨defect, hmay, hrun, hrun'⟩
  · cases hstream
    exact .inl ⟨(outcome, stream'), s', t', congrArg (· >>= _) hrun, congrArg (· >>= _) hrun', hinv,
      trivial⟩
  · exact .inr ⟨defect, hmay, congrArg (· >>= _) hrun, congrArg (· >>= _) hrun'⟩

end Image

/-! ## Loops over pages -/

namespace Block

variable [Bus β] [Bus γ] {inv : Controller β → Controller γ → Prop} {pages : List (Nat × Nat)}

/-- Pages that are read in step one by one are so together, by induction on the pages. -/
theorem inStep_readPages (g : Geometry) (buffer : Bytes)
    (hpage : ∀ entry ∈ pages, ∀ data spare, InStep may inv
      (Controller.readPage entry.1 data spare) (Controller.readPage entry.1 data spare) Any) :
    InStep may inv (readPages g buffer pages) (readPages g buffer pages) Any := by
  induction pages with
  | nil => exact .pure trivial
  | cons entry pages ih =>
    rw [List.forall_mem_cons] at hpage
    refine (hpage.1 _ _).next fun result => ?_
    rcases result with ⟨_ | _, data, spare⟩
    · exact .pure trivial
    · exact (ih hpage.2).next fun _ => .pure trivial

/-- The same for programs; a piece that is erased is passed over by both. -/
theorem inStep_programPages (g : Geometry) (content : Bytes)
    (hpage : ∀ entry ∈ pages, ∀ data spare, InStep may inv
      (Controller.writePage entry.1 data spare) (Controller.writePage entry.1 data spare) Any) :
    TryInStep may inv (programPages g content pages) (programPages g content pages) Any := by
  induction pages with
  | nil => exact .pure trivial
  | cons entry pages ih =>
    rw [List.forall_mem_cons] at hpage
    by_cases herased : (content.piece g.pageBytes entry.2).isErased = true
    · simp only [programPages, herased, if_true]
      exact ih hpage.2
    · simp only [programPages, herased]
      refine (TryInStep.perform (hpage.1 _ _)).next fun result => ?_
      rcases result with ⟨_ | _, spare⟩
      · exact .throw_bind
      · exact ih hpage.2

end Block

namespace Controller

variable [Bus β] [Bus γ]

/-- An outcome can be told from the answer that is made of it. -/
theorem injective_answer {answer : α → Answer} (h : Function.Injective answer) (data spare : Bytes) :
    Function.Injective fun outcome : Except Error α => (outcome.map answer, data, spare) := by
  intro outcome outcome' heq
  have hmap : outcome.map answer = outcome'.map answer := congrArg Prod.fst heq
  match outcome, outcome' with
  | .ok a, .ok b => exact congrArg Except.ok (h (Except.ok.inj hmap))
  | .error _, .error _ => exact congrArg Except.error (Except.error.inj hmap)
  | .ok _, .error _ | .error _, .ok _ => cases hmap

/-- A relation between two controllers that no request tells apart: it has the same reply on both,
and keeps the relation. -/
structure Unison (inv : Controller β → Controller γ → Prop) : Prop where
  profile_eq : ∀ {controller other}, inv controller other → other.profile = controller.profile
  stats_eq : ∀ {controller other}, inv controller other → other.stats = controller.stats
  serve : ∀ request, InStep Any inv (serve request) (serve request) Any

namespace Unison

variable {inv : Controller β → Controller γ → Prop} (h : Unison inv)

include h

/-! ### Parts of a reply -/

/-- What is dispatched is a reply without its statistics. -/
theorem dispatch (request : Request) :
    InStep Any inv (dispatch request) (Controller.dispatch request) Any := by
  -- What is dispatched is the reply but for the statistics.
  refine InStep.of_bind (fun _ _ => ⟨_, rfl⟩) (fun _ _ => ⟨_, rfl⟩) ?_ (h.serve request)
  rintro ⟨outcome, data, spare⟩ ⟨outcome', data', spare'⟩ controller other reply hrun hrun'
  cases hrun
  injection congrArg Prod.fst (Except.ok.inj hrun') with houtcome hdata hspare
  exact Prod.ext houtcome.symm (Prod.ext hdata.symm hspare.symm)

/-- A page is read alike, into buffers of whatever sizes. -/
theorem readPage (page : Nat) (data spare : Bytes) :
    InStep Any inv (readPage page data spare) (Controller.readPage page data spare) Any := by
  refine InStep.of_bind_pure ?_ (h.dispatch (.readPage page data spare))
  rintro ⟨outcome, data, spare⟩ ⟨outcome', data', spare'⟩ heq
  cases outcome <;> cases outcome' <;> cases heq <;> rfl

/-- A page is programmed alike, or refused alike. -/
theorem writePage (page : Nat) (data spare : Bytes) :
    InStep Any inv (writePage page data spare) (Controller.writePage page data spare) Any := by
  refine InStep.of_bind (fun _ _ => ⟨_, rfl⟩) (fun _ _ => ⟨_, rfl⟩) ?_
    (h.dispatch (.writePage page data spare))
  rintro ⟨outcome, spare⟩ ⟨outcome', spare'⟩ s t d hs ht
  cases hs
  cases outcome <;> cases outcome' <;> cases ht <;> rfl

/-- A block is erased alike, or refused alike. -/
theorem eraseBlock (block : Nat) :
    TryInStep Any inv (eraseBlock block) (Controller.eraseBlock block) Any := by
  refine .of_inStep (InStep.of_bind_pure ?_ (h.dispatch (.eraseBlock block)))
  exact injective_answer (fun _ _ _ => rfl) #[] #[]

/-- The marker of a block is found by both or by neither. -/
theorem isBad (block : Nat) : TryInStep Any inv (isBad block) (Controller.isBad block) Any := by
  refine .of_inStep (InStep.of_bind_pure ?_ (h.dispatch (.isBad block)))
  exact injective_answer (fun _ _ hmarked => Answer.marked.inj hmarked) #[] #[]

/-- A block is marked alike. -/
theorem markBad (block : Nat) :
    TryInStep Any inv (markBad block) (Controller.markBad block) Any := by
  refine .of_inStep (InStep.of_bind_pure ?_ (h.dispatch (.markBad block)))
  exact injective_answer (fun _ _ _ => rfl) #[] #[]

/-! ### Blocks -/

/-- The layout is worked out from the profile, which they share. -/
theorem blockLayout :
    InStep Any inv (blockLayout (β := β)) (Controller.blockLayout (β := γ)) Any := by
  refine InStep.get_bind fun controller other hinv => ?_
  rw [h.profile_eq hinv]
  exact InStep.lift_any.next fun _ => InStep.lift_any.next fun _ => .pure trivial

/-- A block is looked up by its index and its marker. -/
theorem block? (index : Nat) :
    TryInStep Any inv (block? index) (Controller.block? index) Any := by
  refine (TryInStep.perform h.blockLayout).next fun layout => ?_
  refine TryInStep.ite_throw _ _ ?_
  refine ((h.isBad index).adapt Failure.device).next fun isBad => ?_
  cases isBad <;> exact .pure trivial

/-- Which pages a range comes to is a matter of the layout. -/
theorem pagesFor (block : Block) (start bytes : Nat) :
    TryInStep Any inv (block.pagesFor (β := β) start bytes) (block.pagesFor (β := γ) start bytes)
      Any := by
  refine (TryInStep.perform h.blockLayout).next fun layout => ?_
  refine TryInStep.ite_throw _ _ ?_
  refine TryInStep.lift_any.next fun stop => ?_
  refine TryInStep.ite_throw _ _ ?_
  exact TryInStep.lift_any.next fun _ => TryInStep.lift_any.discard.next fun _ => .pure trivial

theorem readPages (g : Geometry) (buffer : Bytes) (pages : List (Nat × Nat)) :
    InStep Any inv (Block.readPages g buffer pages) (Block.readPages g buffer pages) Any :=
  Block.inStep_readPages g buffer fun entry _ => h.readPage entry.1

/-- A buffer is filled alike, page by page. -/
theorem read (block : Block) (start : Nat) (buffer : Bytes) :
    InStep Any inv (block.read start buffer) (block.read start buffer) Any := by
  refine InStep.bind (h.pagesFor block start buffer.size) fun outcome _ => ?_
  cases outcome with
  | error failure => exact .pure trivial
  | ok pages =>
    refine InStep.get_bind fun controller other hinv => ?_
    rw [h.profile_eq hinv]
    exact (h.readPages _ buffer _).next fun _ => .pure trivial

theorem programPages (g : Geometry) (content : Bytes) (pages : List (Nat × Nat)) :
    TryInStep Any inv (Block.programPages g content pages) (Block.programPages g content pages)
      Any :=
  Block.inStep_programPages g content fun entry _ => h.writePage entry.1

/-- A content is programmed alike, page by page. -/
theorem program (block : Block) (start : Nat) (content : Bytes) :
    TryInStep Any inv (block.program start content) (block.program start content) Any := by
  refine (h.pagesFor block start content.size).next fun pages => ?_
  refine TryInStep.get_bind fun controller other hinv => ?_
  rw [h.profile_eq hinv]
  exact h.programPages _ content _

theorem erase (block : Block) :
    TryInStep Any inv (block.erase (β := β)) (block.erase (β := γ)) Any :=
  (h.eraseBlock block.index).adapt Failure.device

theorem blockMarkBad (block : Block) :
    TryInStep Any inv (block.markBad (β := β)) (block.markBad (β := γ)) Any := by
  refine (TryInStep.perform (h.eraseBlock block.index).inStep).next fun _ => ?_
  exact (h.markBad block.index).adapt Failure.device

/-- The pages in use are counted alike; by induction on the pages that are left. -/
theorem countUsed (block : Block) (count start : Nat) (buffer : Bytes) :
    TryInStep Any inv (block.countUsed count start buffer) (block.countUsed count start buffer)
      Any := by
  induction count generalizing start buffer with
  | zero => exact .pure trivial
  | succ count ih =>
    refine (TryInStep.perform (h.read block start buffer)).next fun result => ?_
    obtain ⟨outcome, content⟩ := result
    refine (TryInStep.outcome outcome).next fun _ => ?_
    exact (ih (start + 1) content).next fun _ => .pure trivial

/-- As many pages of a block are in use for the one as for the other. -/
theorem usedPages (block : Block) :
    TryInStep Any inv (block.usedPages (β := β)) (block.usedPages (β := γ)) Any := by
  refine (TryInStep.perform h.blockLayout).next fun layout => ?_
  exact h.countUsed block _ _ _

/-! ### Images -/

/-- The marked blocks are collected alike; by induction on the blocks that are left. -/
theorem badBlocksFrom (count index : Nat) :
    TryInStep Any inv (Image.badBlocksFrom (β := β) count index)
      (Image.badBlocksFrom (β := γ) count index) Any := by
  induction count generalizing index with
  | zero => exact .pure trivial
  | succ count ih =>
    exact (h.block? index).next fun _ => (ih (index + 1)).next fun _ => .pure trivial

theorem badBlocks :
    TryInStep Any inv (Image.badBlocks (β := β)) (Image.badBlocks (β := γ)) Any :=
  (TryInStep.perform h.blockLayout).next fun layout => h.badBlocksFrom layout.blocks 0

/-- A block holds a content for both, or for neither. -/
theorem holds (block : Block) (content : Bytes) :
    InStep Any inv (Image.holds block content) (Image.holds block content) Any := by
  refine (h.read block 0 (Bytes.filled content.size 0)).next fun result => ?_
  rcases result with ⟨_ | _, current⟩ <;> exact .pure trivial

/-- As many attempts are made at a block; by induction on those that are left. -/
theorem updateWithin (block : Block) (content : Bytes) (attempts : Nat) :
    InStep Any inv (Image.updateWithin block content attempts)
      (Image.updateWithin block content attempts) Any := by
  induction attempts with
  | zero => exact .pure trivial
  | succ attempts ih =>
    refine InStep.bind ((h.erase block).next fun _ => h.program block 0 content) fun outcome _ => ?_
    cases outcome with
    | ok => exact .pure trivial
    | error failure => exact ih

/-- A piece is placed in a block by both, or the block is marked by both. -/
theorem place (block : Block) (content : Bytes) :
    InStep Any inv (Image.place block content) (Image.place block content) Any := by
  refine (h.holds block content).next fun isHeld => ?_
  cases isHeld with
  | true => exact .pure trivial
  | false =>
    refine (h.updateWithin block content Image.writeAttempts).next fun isWritten => ?_
    cases isWritten with
    | true => exact .pure trivial
    | false => exact (h.blockMarkBad block).inStep.next fun _ => .pure trivial

/-- A piece goes to a block by its index, unless that block is marked. -/
theorem placeAt (index : Nat) (content : Bytes) :
    TryInStep Any inv (Image.placeAt (β := β) index content)
      (Image.placeAt (β := γ) index content) Any := by
  refine (h.block? index).next fun found => ?_
  cases found with
  | none => exact .pure trivial
  | some block => exact .perform (h.place block content)

/-- The content of a block comes out alike, unless the block is marked. -/
theorem blockContent (index : Nat) (buffer : Bytes) :
    TryInStep Any inv (Image.blockContent (β := β) index buffer)
      (Image.blockContent (β := γ) index buffer) Any := by
  refine (h.block? index).next fun found => ?_
  cases found with
  | none => exact .pure trivial
  | some block =>
    refine (TryInStep.perform (h.read block 0 buffer)).next fun result => ?_
    obtain ⟨outcome, content⟩ := result
    exact (TryInStep.outcome outcome).next fun _ => .pure trivial

/-- Block by block, by induction on the blocks that are left. -/
theorem writeFrom (blockBytes left index : Nat) (waiting : Option Bytes) (summary : WriteSummary) :
    TryInStep Any (Beside inv) (Image.writeFrom blockBytes left index waiting summary)
      (Image.writeFrom blockBytes left index waiting summary) Any := by
  induction left generalizing index waiting summary with
  | zero =>
    refine (Image.inStep_upNext blockBytes waiting).next fun next => ?_
    cases next with
    | none => exact .pure trivial
    | some piece => exact .throw
  | succ left ih =>
    refine (Image.inStep_upNext blockBytes waiting).next fun next => ?_
    cases next with
    | none => exact .pure trivial
    | some piece =>
      refine (Image.inStep_tryOnFirst (h.placeAt index piece)).next fun placement => ?_
      exact ih _ _ _

/-- An image is written alike, with the same left over from its source. -/
theorem write (first : Nat) :
    TryInStep Any (Beside inv) (Image.write first) (Image.write first) Any := by
  refine (TryInStep.perform (Image.inStep_onFirst h.blockLayout)).next fun layout => ?_
  exact TryInStep.lift_any.next fun blockBytes => h.writeFrom _ _ _ _ _

/-- The blocks reach the sink alike; by induction on the blocks that are left. -/
theorem dumpFrom (count index : Nat) (buffer : Bytes) (register : UInt32) :
    TryInStep Any (Beside inv) (Image.dumpFrom count index buffer register)
      (Image.dumpFrom count index buffer register) Any := by
  induction count generalizing index buffer register with
  | zero => exact .pure trivial
  | succ count ih =>
    refine (Image.inStep_tryOnFirst (h.blockContent index buffer)).next fun content => ?_
    exact Image.inStep_onStream.next fun _ => ih _ _ _

/-- A dump leaves the same sink and the same checksum. -/
theorem dump (first stop : Nat) :
    TryInStep Any (Beside inv) (Image.dump first stop) (Image.dump first stop) Any := by
  refine (TryInStep.perform (Image.inStep_onFirst h.blockLayout)).next fun layout => ?_
  refine TryInStep.ite_throw _ _ ?_
  refine TryInStep.lift_any.next fun blockBytes => ?_
  exact (h.dumpFrom _ _ _ _).next fun _ => .pure trivial

end Unison

end Controller

/-! ## Operations -/

/-- What can be asked of a device through its controller: a request, work on a block, or work on the
device as a whole. -/
inductive Operation where
  | request (request : Request)
  | layout
  | lookUp (index : Nat)
  | read (block : Block) (start : Nat) (buffer : Bytes)
  | program (block : Block) (start : Nat) (content : Bytes)
  | erase (block : Block)
  | markBad (block : Block)
  | usedPages (block : Block)
  | badBlocks
  | writeImage (first : Nat) (source : Source)
  | dump (first stop : Nat) (sink : Sink)

/-- What an operation comes to: its outcome, and what has become of the buffers or of the stream
that it was given. -/
inductive Finding where
  | reply (reply : Reply)
  | layout (layout : BlockLayout)
  | block (outcome : Except Failure (Option Block))
  | buffer (outcome : Except Failure Unit) (buffer : Bytes)
  | done (outcome : Except Failure Unit)
  | count (outcome : Except Failure Nat)
  | blocks (outcome : Except Failure (List Nat))
  | summary (outcome : Except Failure WriteSummary) (source : Source)
  | checksum (outcome : Except Failure UInt32) (sink : Sink)

namespace Controller

variable [Bus β] [Bus γ]

/-- What an operation comes to. -/
def find : Operation → Action (Controller β) Finding
  | .request request => return .reply (← serve request)
  | .layout => return .layout (← blockLayout)
  | .lookUp index => return .block (← (block? index).run)
  | .read block start buffer => do
    let (outcome, buffer) ← block.read start buffer
    return .buffer outcome buffer
  | .program block start content => return .done (← (block.program start content).run)
  | .erase block => return .done (← block.erase.run)
  | .markBad block => return .done (← block.markBad.run)
  | .usedPages block => return .count (← block.usedPages.run)
  | .badBlocks => return .blocks (← Image.badBlocks.run)
  | .writeImage first source => do
    let (outcome, source) ← Image.withStream source (Image.write first)
    return .summary outcome source
  | .dump first stop sink => do
    let (outcome, sink) ← Image.withStream sink (Image.dump first stop)
    return .checksum outcome sink

/-- Carry out an operation: what it comes to, and the statistics after it. -/
def carryOut (operation : Operation) : Action (Controller β) (Finding × EccStats) := do
  let finding ← find operation
  return (finding, (← get).stats)

namespace Unison

variable {inv : Controller β → Controller γ → Prop} (h : Unison inv)

include h

/-- Whatever is asked of the two comes to the same. -/
theorem find (operation : Operation) :
    InStep Any inv (find operation) (Controller.find operation) Any := by
  cases operation with
  | request request => exact (h.serve request).next fun _ => .pure trivial
  | layout => exact h.blockLayout.next fun _ => .pure trivial
  | lookUp index => exact (h.block? index).inStep.next fun _ => .pure trivial
  | read block start buffer => exact (h.read block start buffer).next fun _ => .pure trivial
  | program block start content =>
    exact (h.program block start content).inStep.next fun _ => .pure trivial
  | erase block => exact (h.erase block).inStep.next fun _ => .pure trivial
  | markBad block => exact (h.blockMarkBad block).inStep.next fun _ => .pure trivial
  | usedPages block => exact (h.usedPages block).inStep.next fun _ => .pure trivial
  | badBlocks => exact h.badBlocks.inStep.next fun _ => .pure trivial
  | writeImage first source =>
    exact (Image.inStep_withStream (h.write first) source).next fun _ => .pure trivial
  | dump first stop sink =>
    exact (Image.inStep_withStream (h.dump first stop) sink).next fun _ => .pure trivial

/-- One operation: both controllers come to the same, with the same statistics. -/
theorem carryOut (operation : Operation) :
    InStep Any inv (carryOut operation) (Controller.carryOut operation) Any := by
  refine (h.find operation).next fun finding => ?_
  refine InStep.get_bind fun controller other hinv => ?_
  rw [h.stats_eq hinv]
  exact .pure trivial

/-- And so do all operations, by induction on them. -/
theorem carryOutAll (operations : List Operation) :
    InStep Any inv (operations.mapM Controller.carryOut) (operations.mapM Controller.carryOut)
      Any :=
  (InStep.mapM fun operation => h.carryOut operation).mono fun _ _ => trivial

end Unison

end Controller

end NandFlash
