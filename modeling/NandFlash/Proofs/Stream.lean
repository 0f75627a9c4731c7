import NandFlash.Image
import NandFlash.Proofs.Program

/-!
# Streams

A source lasts if it never breaks and if no call of its plan delivers nothing before the end, which
would be taken for the end. Short deliveries and interruptions of such a source go unnoticed: the
bytes come as they would from a source that delivers all that is asked for. They go unnoticed, too,
with a source that breaks behind its last byte. `Takes` is what is known of any source at all.
-/

namespace NandFlash

/-! ## Sources -/

namespace Source

/-- The bytes that are still to come. -/
def rest (source : Source) : Bytes := source.content.extract source.taken

theorem size_rest (source : Source) : source.rest.size = source.content.size - source.taken := by
  rw [rest, Array.size_extract, Nat.min_self]

/-- A source that hands out its content to the end. -/
structure Lasts (source : Source) : Prop where
  taken_le : source.taken ≤ source.content.size
  delivers : ∀ limit, .upTo limit ∈ source.plan → 0 < limit
  unbroken : ∀ limit, source.breakAt = some limit → source.content.size < limit

/-- A source that hands out its content to the end, and then breaks. -/
structure Breaks (source : Source) : Prop where
  taken_le : source.taken ≤ source.content.size
  delivers : ∀ limit, .upTo limit ∈ source.plan → 0 < limit
  breakAt_eq : source.breakAt = some source.content.size

theorem lasts_ofBytes (content : Bytes) : (ofBytes content).Lasts :=
  ⟨Nat.zero_le _, fun _ h => absurd h List.not_mem_nil, fun _ h => nomatch h⟩

theorem rest_ofBytes (content : Bytes) : (ofBytes content).rest = content :=
  Array.extract_size

variable {size : Nat} {breakAt : Option Nat}

theorem isBroken_iff {taken : Nat} :
    isBroken breakAt taken = true ↔ ∃ limit, breakAt = some limit ∧ limit ≤ taken := by
  cases breakAt with
  | none => exact ⟨nofun, nofun⟩
  | some limit =>
    simp only [isBroken, decide_eq_true_eq, Option.some.injEq, exists_eq_left']

/-- What calls for `want` bytes come to, whatever the plan: they go on until there are enough bytes,
fail where the source is found broken before that, and otherwise stop short only when a call
delivers nothing. -/
structure Advances (size : Nat) (breakAt : Option Nat) (plan : List Delivery) (want taken : Nat)
    (progress : Progress) : Prop where
  le_taken : taken ≤ progress.taken
  taken_le : progress.taken ≤ taken + want
  taken_le_size : progress.taken ≤ size
  mem_plan : ∀ delivery ∈ progress.plan, delivery ∈ plan
  error_eq : progress.error =
    if progress.taken < taken + want ∧ isBroken breakAt progress.taken then some .broken else none
  reaches : (∀ limit, .upTo limit ∈ plan → 0 < limit) → progress.error = none →
    progress.taken = min (taken + want) size

/-- By induction on the calls. -/
theorem advances (plan : List Delivery) (want : Nat) {taken : Nat} (htaken : taken ≤ size) :
    Advances size breakAt plan want taken (advance size breakAt plan want taken) := by
  have hrest : ∀ {delivery : Delivery} {plan : List Delivery},
      (∀ limit, .upTo limit ∈ delivery :: plan → 0 < limit) →
      ∀ limit, .upTo limit ∈ plan → 0 < limit :=
    fun h limit hmem => h limit (List.mem_cons_of_mem _ hmem)
  fun_induction advance size breakAt plan want taken with
  | case1 plan taken =>
    refine ⟨Nat.le_refl _, Nat.le_refl _, htaken, fun _ h => h, ?_, fun _ _ => ?_⟩
    · rw [if_neg fun h => Nat.lt_irrefl _ h.1]
    · exact (Nat.min_eq_left htaken).symm
  | case2 want taken hwant hbreaks =>
    have hpos : want ≠ 0 := hwant
    refine ⟨Nat.le_refl _, Nat.le_add_right _ _, htaken, fun _ h => h, ?_, nofun⟩
    rw [if_pos ⟨Nat.lt_add_of_pos_right (Nat.pos_of_ne_zero hpos), hbreaks⟩]
  | case3 want taken hwant n hbroken hbreaks =>
    have htakes : taken + n ≤ taken + want ∧ taken + n ≤ size := by omega
    refine ⟨Nat.le_add_right _ _, htakes.1, htakes.2, fun _ h => h, ?_, nofun⟩
    rw [if_pos ⟨Nat.add_lt_add_left hbreaks.2.1 _, hbreaks.2.2⟩]
  | case4 want taken hwant n hbroken hbreaks =>
    have htakes : taken + n = min (taken + want) size := by omega
    refine ⟨Nat.le_add_right _ _, Nat.le_trans (Nat.le_of_eq htakes) (Nat.min_le_left _ _),
      Nat.le_trans (Nat.le_of_eq htakes) (Nat.min_le_right _ _), fun _ h => h, ?_,
      fun _ _ => htakes⟩
    rw [if_neg]
    rintro ⟨hlt, hbroken'⟩
    by_cases hnone : n = 0
    · exact hbroken (by simpa [hnone] using hbroken')
    · exact hbreaks ⟨Nat.pos_of_ne_zero hnone, Nat.lt_of_add_lt_add_left hlt, hbroken'⟩
  | case5 plan want taken hwant ih =>
    obtain ⟨hle, hwanted, hsize, hplan, herror, hreaches⟩ := ih htaken
    exact ⟨hle, hwanted, hsize, fun delivery h => List.mem_cons_of_mem _ (hplan delivery h), herror,
      fun h => hreaches (hrest h)⟩
  | case6 limit plan want taken hwant hbreaks =>
    have hpos : want ≠ 0 := hwant
    refine ⟨Nat.le_refl _, Nat.le_add_right _ _, htaken,
      fun _ h => List.mem_cons_of_mem _ h, ?_, nofun⟩
    rw [if_pos ⟨Nat.lt_add_of_pos_right (Nat.pos_of_ne_zero hpos), hbreaks⟩]
  | case7 limit plan want taken hwant n hbroken hnone =>
    -- A call that delivers nothing has come to the end, unless it is made to deliver nothing.
    have hpos : want ≠ 0 := hwant
    refine ⟨Nat.le_refl _, Nat.le_add_right _ _, htaken,
      fun _ h => List.mem_cons_of_mem _ h, ?_, fun h _ => ?_⟩
    · rw [if_neg fun h => hbroken h.2]
    · have hlimit := h limit List.mem_cons_self
      show taken = min (taken + want) size
      omega
  | case8 limit plan want taken hwant n hbroken hsome ih =>
    obtain ⟨hle, hwanted, hsize, hplan, herror, hreaches⟩ := ih (by omega)
    rw [show taken + n + (want - n) = taken + want by omega] at hwanted herror hreaches
    exact ⟨by omega, hwanted, hsize, fun delivery h => List.mem_cons_of_mem _ (hplan delivery h),
      herror, fun h => hreaches (hrest h)⟩

/-- What a source has come to with one more call: `next` is the source then. -/
structure Takes (source : Source) (want : Nat) (next : Source) : Prop where
  content_eq : next.content = source.content
  breakAt_eq : next.breakAt = source.breakAt
  mem_plan : ∀ delivery ∈ next.plan, delivery ∈ source.plan
  le_taken : source.taken ≤ next.taken
  taken_le : next.taken ≤ source.taken + want
  taken_le_size : next.taken ≤ source.content.size
  /-- Unless it breaks, a source that always delivers something stops short only at its end. -/
  reaches : (∀ limit, .upTo limit ∈ source.plan → 0 < limit) →
    next.taken = source.taken + want ∨ next.taken = source.content.size ∨
      isBroken source.breakAt next.taken = true

/-- A call hands out the bytes up to where it comes to, unless it finds the source broken before
there are enough. -/
theorem exists_fill {source : Source} (h : source.taken ≤ source.content.size) (want : Nat) :
    ∃ next, source.Takes want next ∧ source.fill want =
      (if next.taken < source.taken + want ∧ isBroken source.breakAt next.taken then .error .broken
        else .ok (source.content.extract source.taken next.taken), next) := by
  have hadvances : Advances _ source.breakAt source.plan want source.taken _ :=
    advances source.plan want h
  unfold fill
  -- What the calls come to is all that matters from here on.
  generalize advance _ source.breakAt source.plan want source.taken = progress at hadvances
  obtain ⟨error, taken, plan⟩ := progress
  refine ⟨{ source with taken, plan }, ⟨rfl, rfl, hadvances.mem_plan, hadvances.le_taken,
    hadvances.taken_le, hadvances.taken_le_size, fun hplan => ?_⟩, ?_⟩
  · by_cases hbroken : isBroken source.breakAt taken = true
    · exact .inr (.inr hbroken)
    · have hreaches := hadvances.reaches hplan
        (hadvances.error_eq.trans (if_neg fun h => hbroken h.2))
      simp only at hreaches ⊢
      omega
  · have herror : error = if taken < source.taken + want ∧ isBroken source.breakAt taken then
        some .broken else none := hadvances.error_eq
    by_cases hbreaks : taken < source.taken + want ∧ isBroken source.breakAt taken = true
    · rw [if_pos hbreaks] at herror ⊢
      rw [herror]
    · rw [if_neg hbreaks] at herror ⊢
      rw [herror]

/-- The bytes up to where a call comes to, if it takes what there is, are the next ones. -/
theorem extract_taken (source : Source) (want : Nat) :
    source.content.extract source.taken (min (source.taken + want) source.content.size) =
      source.rest.extract 0 want := by
  rw [rest, Array.extract_extract]
  congr 1

/-- What is still to come after a call that takes what there is. -/
theorem Takes.rest_eq {source next : Source} {want : Nat} (h : source.Takes want next)
    (hnext : next.taken = min (source.taken + want) source.content.size) :
    next.rest = source.rest.extract want := by
  rw [rest, rest, h.content_eq, hnext]
  apply Array.ext_getElem?
  intro i
  simp only [Array.getElem?_extract, Array.size_extract]
  by_cases hi : source.taken + want + i < source.content.size
  · rw [Nat.min_eq_left (show source.taken + want ≤ source.content.size by omega),
      if_pos (by omega), if_pos (by omega), if_pos (by omega), Nat.add_assoc]
  · rw [if_neg (by omega), if_neg (by omega)]

theorem Lasts.not_isBroken {source : Source} (h : source.Lasts) {taken : Nat}
    (htaken : taken ≤ source.content.size) : ¬isBroken source.breakAt taken = true := by
  rw [isBroken_iff]
  rintro ⟨limit, hlimit, hle⟩
  exact Nat.lt_irrefl _ (Nat.lt_of_lt_of_le (h.unbroken limit hlimit) (Nat.le_trans hle htaken))

/-- A call takes the next bytes, fewer only at the end, and the source lasts. -/
theorem Lasts.fill_eq {source : Source} (h : source.Lasts) (want : Nat) :
    ∃ next, source.fill want = (.ok (source.rest.extract 0 want), next) ∧ next.Lasts ∧
      next.rest = source.rest.extract want := by
  obtain ⟨next, htakes, hfill⟩ := exists_fill h.taken_le want
  have hunbroken := h.not_isBroken htakes.taken_le_size
  have hnext : next.taken = min (source.taken + want) source.content.size := by
    have hreaches := (htakes.reaches h.delivers).imp_right (·.resolve_right hunbroken)
    have htaken := htakes.taken_le
    have hsize := htakes.taken_le_size
    omega
  refine ⟨next, ?_, ⟨?_, fun limit hmem => h.delivers limit (htakes.mem_plan _ hmem), ?_⟩,
    htakes.rest_eq hnext⟩
  · rw [hfill, if_neg fun hbreaks => hunbroken hbreaks.2, hnext, extract_taken]
  · rw [htakes.content_eq]
    exact htakes.taken_le_size
  · rw [htakes.content_eq, htakes.breakAt_eq]
    exact h.unbroken

theorem Breaks.isBroken_iff {source : Source} (h : source.Breaks) {taken : Nat} :
    isBroken source.breakAt taken = true ↔ source.content.size ≤ taken := by
  rw [Source.isBroken_iff, h.breakAt_eq]
  exact ⟨fun ⟨_, heq, hle⟩ => Option.some.inj heq ▸ hle, fun hle => ⟨_, rfl, hle⟩⟩

/-- A source that breaks hands out the next bytes, and fails if there are not as many as asked
for. -/
theorem Breaks.fill_eq {source : Source} (h : source.Breaks) (want : Nat) :
    ∃ next, next.Breaks ∧ next.rest = source.rest.extract want ∧ source.fill want =
      (if want ≤ source.rest.size then .ok (source.rest.extract 0 want) else .error .broken,
        next) := by
  obtain ⟨next, htakes, hfill⟩ := exists_fill h.taken_le want
  have hreaches := htakes.reaches h.delivers
  rw [h.isBroken_iff] at hreaches
  have hsize := htakes.taken_le_size
  have htaken := htakes.taken_le
  have hwhole := h.taken_le
  have hnext : next.taken = min (source.taken + want) source.content.size := by omega
  refine ⟨next, ⟨?_, fun limit hmem => h.delivers limit (htakes.mem_plan _ hmem), ?_⟩, ?_, ?_⟩
  · rw [htakes.content_eq]
    exact hsize
  · rw [htakes.breakAt_eq, htakes.content_eq]
    exact h.breakAt_eq
  · exact htakes.rest_eq hnext
  · by_cases hwant : want ≤ source.rest.size
    · rw [hfill, if_pos hwant, if_neg, hnext, extract_taken]
      rw [h.isBroken_iff]
      rw [size_rest] at hwant
      omega
    · rw [hfill, if_neg hwant, if_pos]
      rw [h.isBroken_iff]
      rw [size_rest] at hwant
      omega

/-! ### Taking an exact number of bytes -/

/-- A source that has so many bytes to give, whatever becomes of it behind them. -/
structure Supplies (source : Source) (count : Nat) : Prop where
  le_size : source.taken + count ≤ source.content.size
  delivers : ∀ limit, .upTo limit ∈ source.plan → 0 < limit
  unbroken : ∀ limit, source.breakAt = some limit → source.taken + count ≤ limit

theorem Supplies.size_extract {source : Source} {count : Nat} (h : source.Supplies count) :
    (source.rest.extract 0 count).size = count := by
  have hle := h.le_size
  rw [Array.size_extract, size_rest]
  omega

/-- Why a source that has come to `taken` gives no more. -/
def shortfall (source : Source) (taken : Nat) : StreamError :=
  if isBroken source.breakAt taken then .broken else .unexpectedEnd

/-- Two calls, the first of which has got all that it asked for. -/
theorem Takes.trans {source mid next : Source} {want more : Nat} (h : source.Takes want mid)
    (hfull : mid.taken = source.taken + want) (hnext : mid.Takes more next) :
    source.Takes (want + more) next where
  content_eq := hnext.content_eq.trans h.content_eq
  breakAt_eq := hnext.breakAt_eq.trans h.breakAt_eq
  mem_plan delivery hmem := h.mem_plan delivery (hnext.mem_plan delivery hmem)
  le_taken := Nat.le_trans h.le_taken hnext.le_taken
  taken_le := by
    have htaken := hnext.taken_le
    omega
  taken_le_size := h.content_eq ▸ hnext.taken_le_size
  reaches hplan := by
    have hreaches := hnext.reaches fun limit hmem => hplan limit (h.mem_plan _ hmem)
    rw [h.content_eq, h.breakAt_eq, hfull, Nat.add_assoc] at hreaches
    exact hreaches

/-- A call that has got less than it asked for would not have got any further by asking for more. -/
theorem Takes.ask_more {source next : Source} {want : Nat} (h : source.Takes want next)
    (hshort : next.taken ≠ source.taken + want) (more : Nat) :
    source.Takes (want + more) next where
  content_eq := h.content_eq
  breakAt_eq := h.breakAt_eq
  mem_plan := h.mem_plan
  le_taken := h.le_taken
  taken_le := Nat.le_trans h.taken_le (by omega)
  taken_le_size := h.taken_le_size
  reaches hplan := .inr ((h.reaches hplan).resolve_left hshort)

/-- A call for an exact number of bytes gets them, or fails. -/
theorem exists_fillExact {source : Source} (h : source.taken ≤ source.content.size) (want : Nat) :
    ∃ next, source.Takes want next ∧ source.fillExact want =
      (if next.taken = source.taken + want then
        .ok (source.content.extract source.taken next.taken)
      else .error (source.shortfall next.taken), next) := by
  obtain ⟨next, htakes, hfill⟩ := exists_fill h want
  refine ⟨next, htakes, ?_⟩
  have hle := htakes.le_taken
  have htaken := htakes.taken_le
  have hsize : (source.content.extract source.taken next.taken).size =
      next.taken - source.taken := by
    rw [Array.size_extract, Nat.min_eq_left htakes.taken_le_size]
  rw [fillExact, hfill, shortfall]
  by_cases hfull : next.taken = source.taken + want
  · rw [if_pos hfull, if_neg (by omega)]
    exact if_pos (by omega)
  · rw [if_neg hfull]
    by_cases hbroken : isBroken source.breakAt next.taken = true
    · rw [if_pos ⟨by omega, hbroken⟩, if_pos hbroken]
    · rw [if_neg fun h => hbroken h.2, if_neg hbroken]
      exact if_neg (by omega)

/-- A source that has enough to give lets nobody down. -/
theorem Supplies.taken_eq {source next : Source} {want : Nat} (h : source.Supplies want)
    (htakes : source.Takes want next) : next.taken = source.taken + want := by
  have hle := h.le_size
  have htaken := htakes.taken_le
  rcases htakes.reaches h.delivers with hfull | hend | hbroken
  · exact hfull
  · omega
  · obtain ⟨limit, hlimit, hbroken⟩ := isBroken_iff.1 hbroken
    have hsupply := h.unbroken limit hlimit
    omega

/-- A source that lasts has to give what is still to come. -/
theorem Lasts.supplies {source : Source} (h : source.Lasts) {count : Nat}
    (hcount : count ≤ source.rest.size) : source.Supplies count := by
  have htaken := h.taken_le
  rw [size_rest] at hcount
  refine ⟨by omega, h.delivers, fun limit hlimit => ?_⟩
  have hunbroken := h.unbroken limit hlimit
  omega

/-- A source that lasts but has too little to give comes to its end. -/
theorem Lasts.runs_out {source next : Source} {want : Nat} (h : source.Lasts)
    (hshort : source.rest.size < want) (htakes : source.Takes want next) :
    next.taken = source.content.size ∧ source.shortfall next.taken = .unexpectedEnd := by
  rw [size_rest] at hshort
  have hunbroken := h.not_isBroken htakes.taken_le_size
  refine ⟨?_, if_neg hunbroken⟩
  have hreaches := (htakes.reaches h.delivers).imp_right (·.resolve_right hunbroken)
  have hsize := htakes.taken_le_size
  have htaken := h.taken_le
  omega

/-- A source that has too little to give before it breaks fails. -/
theorem Breaks.runs_out {source next : Source} {want : Nat} (h : source.Breaks)
    (hshort : source.rest.size < want) (htakes : source.Takes want next) :
    next.taken = source.content.size ∧ source.shortfall next.taken = .broken := by
  rw [size_rest] at hshort
  have hreaches := htakes.reaches h.delivers
  rw [h.isBroken_iff] at hreaches
  have hsize := htakes.taken_le_size
  have htaken := h.taken_le
  refine ⟨by omega, if_pos (h.isBroken_iff.2 (by omega))⟩

end Source

/-! ## Sinks -/

namespace Sink

variable {sink : Sink} {bytes : Bytes}

/-- A sink with room for so many bytes more. -/
def HasRoom (sink : Sink) (count : Nat) : Prop :=
  ∀ limit, sink.limit = some limit → sink.written.size + count ≤ limit

theorem write_of_hasRoom (h : sink.HasRoom bytes.size) :
    sink.write bytes = (.ok (), ⟨sink.written ++ bytes, sink.limit⟩) := by
  obtain ⟨written, limit⟩ := sink
  cases limit with
  | none => rfl
  | some limit =>
    have hle : written.size + bytes.size ≤ limit := h limit rfl
    rw [write, if_neg]
    simp only [decide_eq_true_eq]
    omega

theorem write_of_not_hasRoom (h : ¬sink.HasRoom bytes.size) :
    sink.write bytes = (.error .broken, sink) := by
  obtain ⟨written, limit⟩ := sink
  cases limit with
  | none => exact absurd (fun limit hlimit => nomatch hlimit) h
  | some limit =>
    rw [write, if_pos]
    simp only [decide_eq_true_eq]
    by_contra hle
    exact h fun _ hlimit => Option.some.inj hlimit ▸ Nat.le_of_not_lt hle

end Sink

/-! ## A stream beside a device -/

namespace Image

variable {σ τ ε α : Type} {s s' : σ} {t t' : τ}

theorem run_onFirst {action : Action σ α} {a : α} (h : action.run s = .ok (a, s')) (t : τ) :
    (onFirst action).run (s, t) = .ok (a, (s', t)) := by
  show (action.run s >>= _) = _
  rw [h]
  rfl

theorem run_onFirst_crash {action : Action σ α} {defect : Crash}
    (h : action.run s = .error defect) (t : τ) : (onFirst action).run (s, t) = .error defect := by
  show (action.run s >>= _) = _
  rw [h]
  rfl

theorem run_tryOnFirst {attempt : Attempt ε σ α} {r : Except ε α}
    (h : attempt.run.run s = .ok (r, s')) (t : τ) :
    (tryOnFirst attempt).run.run (s, t) = .ok (r, (s', t)) := run_onFirst h t

theorem run_tryOnFirst_crash {attempt : Attempt ε σ α} {defect : Crash}
    (h : attempt.run.run s = .error defect) (t : τ) :
    (tryOnFirst attempt).run.run (s, t) = .error defect := run_onFirst_crash h t

theorem run_onStream {operation : τ → Except StreamError α × τ} {r : Except StreamError α}
    (h : operation t = (r, t')) (s : σ) :
    (onStream operation).run.run (s, t) = .ok (r.mapError .stream, (s, t')) := by
  show Except.ok ((operation t).1.mapError _, (s, (operation t).2)) = _
  rw [h]

theorem exists_of_run_onFirst {action : Action σ α} {a : α} {u : σ × τ}
    (h : (onFirst action).run (s, t) = .ok (a, u)) :
    ∃ s', action.run s = .ok (a, s') ∧ u = (s', t) := by
  obtain ⟨⟨value, first⟩, haction, hpair⟩ := exists_of_bind_eq_ok h
  cases hpair
  exact ⟨first, haction, rfl⟩

/-- A stream operation leaves the device alone. -/
theorem fst_eq_of_run_onStream {operation : τ → Except StreamError α × τ} {u : σ × τ}
    {r : Except Failure α} (h : (onStream operation).run.run (s, t) = .ok (r, u)) : u.1 = s := by
  cases h
  rfl

end Image

end NandFlash
