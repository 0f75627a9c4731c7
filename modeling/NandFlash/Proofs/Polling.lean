import NandFlash.Proofs.Layers

/-!
# How long a wait lasts

A wait asks its condition until the answer is yes, and takes a turn after every no. A limit allows
for so many turns; the counter of the turns is one word long. The main statement is that the number
of times a condition is asked is exactly what the limit says, as long as the counter can count them.
-/

namespace NandFlash

variable {σ : Type}

/-! ## Answers over time -/

/-- Asked again and again from the state `s` on, a condition says no to the first so many
questions, and is then in the state `t`. -/
inductive Denies (ready : Attempt Error σ Bool) : Nat → σ → σ → Prop where
  | unasked (s : σ) : Denies ready 0 s s
  | no {count : Nat} {s t u : σ} (hno : ready.run.run s = .ok (.ok false, t))
    (hrest : Denies ready count t u) : Denies ready (count + 1) s u

/-- Asked again and again from the state `s` on, a condition says yes for the first time to the
question of that number, and is then in the state `t`. -/
inductive Grants (ready : Attempt Error σ Bool) : Nat → σ → σ → Prop where
  | yes {s t : σ} (hyes : ready.run.run s = .ok (.ok true, t)) : Grants ready 1 s t
  | no {count : Nat} {s t u : σ} (hno : ready.run.run s = .ok (.ok false, t))
    (hrest : Grants ready count t u) : Grants ready (count + 1) s u

theorem Grants.pos {ready : Attempt Error σ Bool} {count : Nat} {s t : σ}
    (h : Grants ready count s t) : 0 < count := by
  cases h <;> omega

/-- Before the first yes there are only noes. -/
theorem Grants.exists_denies {ready : Attempt Error σ Bool} {count asked : Nat} {s t : σ}
    (h : Grants ready count s t) (hasked : asked < count) : ∃ u, Denies ready asked s u := by
  induction h generalizing asked with
  | @yes s =>
    obtain rfl : asked = 0 := by omega
    exact ⟨s, .unasked s⟩
  | @no _ s _ _ hno _ ih =>
    cases asked with
    | zero => exact ⟨s, .unasked s⟩
    | succ asked =>
      obtain ⟨u, hu⟩ := ih (Nat.lt_of_succ_lt_succ hasked)
      exact ⟨u, .no hno hu⟩

/-- A condition that never changes its mind. -/
theorem denies_of_fixed {ready : Attempt Error σ Bool} {s : σ}
    (hno : ready.run.run s = .ok (.ok false, s)) (count : Nat) : Denies ready count s s := by
  induction count with
  | zero => exact .unasked s
  | succ count ih => exact .no hno ih

/-! ## Counting the questions -/

/-- A condition, and how often it has been asked. -/
def counted (ready : Attempt Error σ Bool) : Attempt Error (σ × Nat) Bool :=
  ExceptT.mk fun (s, asked) => endIn (·, asked + 1) (ready.run.run s)

theorem run_counted (ready : Attempt Error σ Bool) (s : σ) (asked : Nat) :
    (counted ready).run.run (s, asked) = endIn (·, asked + 1) (ready.run.run s) := rfl

theorem Denies.counted {ready : Attempt Error σ Bool} {count : Nat} {s t : σ}
    (h : Denies ready count s t) (asked : Nat) :
    Denies (counted ready) count (s, asked) (t, asked + count) := by
  induction h generalizing asked with
  | unasked s => exact .unasked _
  | @no count _ _ _ hno _ ih =>
    rw [show asked + (count + 1) = asked + 1 + count by omega]
    exact .no (by rw [run_counted, hno, endIn_ok]) (ih (asked + 1))

theorem Grants.counted {ready : Attempt Error σ Bool} {count : Nat} {s t : σ}
    (h : Grants ready count s t) (asked : Nat) :
    Grants (counted ready) count (s, asked) (t, asked + count) := by
  induction h generalizing asked with
  | yes hyes => exact .yes (by rw [run_counted, hyes, endIn_ok])
  | @no count _ _ _ hno _ ih =>
    rw [show asked + (count + 1) = asked + 1 + count by omega]
    exact .no (by rw [run_counted, hno, endIn_ok]) (ih (asked + 1))

namespace Poll

variable {poll : Poll} {awaited : Awaited} {ready : Attempt Error σ Bool} {s t : σ}
  {count limit : Nat}

/-! ## Turns -/

/-- A turn counts one further, unless the counter is at its end, and may then be one too many. -/
theorem run_turn (poll : Poll) (awaited : Awaited) (turns : Nat) :
    (poll.turn awaited).run.run turns =
      if turns < maxTurns then
        .ok (if poll.isOver (turns + 1) then .error (.timeout awaited) else .ok (), turns + 1)
      else .error .arithmetic := by
  rw [turn, run_attempt_bind (show (get : Attempt Error Nat Nat).run.run turns =
    .ok (.ok turns, turns) from rfl)]
  by_cases hturns : turns < maxTurns
  · have hword : word32 (turns + 1) = .ok (turns + 1) := if_pos (Nat.succ_lt_of_lt_pred hturns)
    rw [if_pos hturns, run_attempt_bind (run_lift hword), run_attempt_bind (show
      (set (turns + 1) : Attempt Error Nat PUnit).run.run turns = .ok (.ok ⟨⟩, turns + 1) from rfl)]
    cases poll.isOver (turns + 1) <;> rfl
  · have hword : word32 (turns + 1) = .error .arithmetic := if_neg fun h => hturns (by
      rw [maxTurns]
      exact Nat.lt_pred_of_succ_lt h)
    rw [if_neg hturns, hword]
    rfl

/-- A wait is a loop around turns: a no is followed by one, and then the wait goes on, unless the
turn was one too many. -/
theorem run_waitWithin_of_no (hno : ready.run.run s = .ok (.ok false, t)) (turns : Nat) :
    (poll.waitWithin awaited ready (maxTurns - turns)).run.run s =
      match (poll.turn awaited).run.run turns with
      | .ok (.ok (), turns) => (poll.waitWithin awaited ready (maxTurns - turns)).run.run t
      | .ok (.error e, _) => .ok (.error e, t)
      | .error defect => .error defect := by
  rw [run_turn]
  by_cases hlast : turns < maxTurns
  · have hleft : maxTurns - turns = maxTurns - (turns + 1) + 1 := by omega
    have hcount : maxTurns - (maxTurns - (turns + 1)) = turns + 1 := by omega
    rw [if_pos hlast, hleft, waitWithin, run_attempt_bind hno, hcount]
    cases poll.isOver (turns + 1) <;> rfl
  · rw [if_neg hlast, Nat.sub_eq_zero_of_le (Nat.le_of_not_lt hlast), waitWithin,
      run_attempt_bind hno]
    rfl

/-- A no to a wait whose limit and counter allow for another turn. -/
theorem run_waitWithin_goes_on (hno : ready.run.run s = .ok (.ok false, t)) {turns : Nat}
    (hcounter : turns < maxTurns) (hlimit : ∀ limit, poll.limit = some limit → turns < limit) :
    (poll.waitWithin awaited ready (maxTurns - turns)).run.run s =
      (poll.waitWithin awaited ready (maxTurns - (turns + 1))).run.run t := by
  have hwithin : poll.isOver (turns + 1) = false := by
    rw [isOver]
    cases hpoll : poll.limit with
    | none => rfl
    | some limit => exact decide_eq_false (Nat.not_lt_of_le (hlimit limit hpoll))
  rw [run_waitWithin_of_no hno, run_turn, if_pos hcounter, hwithin]
  rfl

/-! ## Waits from some turn on -/

/-- A wait is over with the first yes, if neither the limit nor the counter ends it before; by
induction on the answers. -/
theorem run_waitWithin_of_grants (turns : Nat) (h : Grants ready count s t)
    (hcounter : turns + count ≤ maxTurns + 1)
    (hlimit : ∀ limit, poll.limit = some limit → turns + count ≤ limit + 1) :
    (poll.waitWithin awaited ready (maxTurns - turns)).run.run s = .ok (.ok (), t) := by
  induction h generalizing turns with
  | yes hyes => exact run_waitWithin hyes _
  | @no count _ _ _ hno hrest ih =>
    have hpos := hrest.pos
    have hallows : ∀ limit, poll.limit = some limit → turns < limit := by
      intro limit hpoll
      have hle := hlimit limit hpoll
      omega
    rw [run_waitWithin_goes_on hno (by omega) hallows]
    refine ih _ (by omega) fun limit hpoll => ?_
    have hle := hlimit limit hpoll
    omega

/-- A wait is given up after the first turn beyond the limit, by induction on the turns that the
limit still allows for. -/
theorem run_waitWithin_of_denies (turns : Nat) (hpoll : poll.limit = some limit)
    (hlimit : limit < maxTurns) (hturns : turns + count = limit)
    (h : Denies ready (count + 1) s t) :
    (poll.waitWithin awaited ready (maxTurns - turns)).run.run s =
      .ok (.error (.timeout awaited), t) := by
  induction count generalizing turns s with
  | zero =>
    obtain _ | ⟨hno, ⟨_⟩⟩ := h
    have hover : poll.isOver (turns + 1) = true := by
      rw [isOver, hpoll]
      exact decide_eq_true (by omega)
    rw [run_waitWithin_of_no hno, run_turn, if_pos (by omega), hover]
    rfl
  | succ count ih =>
    obtain _ | ⟨hno, hrest⟩ := h
    have hallows : ∀ allowed, poll.limit = some allowed → turns < allowed := by
      intro allowed hallowed
      obtain rfl : limit = allowed := Option.some.inj (hpoll.symm.trans hallowed)
      omega
    rw [run_waitWithin_goes_on hno (by omega) hallows]
    exact ih _ (by omega) hrest

/-- A wait that no limit ends crashes when its counter is at its end. -/
theorem run_waitWithin_overflow (turns : Nat)
    (hpoll : ∀ limit, poll.limit = some limit → maxTurns ≤ limit)
    (hturns : turns + count = maxTurns) (h : Denies ready (count + 1) s t) :
    (poll.waitWithin awaited ready (maxTurns - turns)).run.run s = .error .arithmetic := by
  induction count generalizing turns s with
  | zero =>
    obtain _ | ⟨hno, -⟩ := h
    rw [run_waitWithin_of_no hno, run_turn, if_neg (by omega)]
  | succ count ih =>
    obtain _ | ⟨hno, hrest⟩ := h
    have hallows : ∀ limit, poll.limit = some limit → turns < limit := by
      intro limit hlimit
      have hle := hpoll limit hlimit
      omega
    rw [run_waitWithin_goes_on hno (by omega) hallows]
    exact ih _ (by omega) hrest

/-! ## Counted waits -/

theorem run_waitWithin_error {e : Error} (h : ready.run.run s = .ok (.error e, t)) (left : Nat) :
    (poll.waitWithin awaited ready left).run.run s = .ok (.error e, t) := by
  cases left with
  | zero => rw [waitWithin, run_attempt_bind_error h]
  | succ left => rw [waitWithin, run_attempt_bind_error h]

theorem run_waitWithin_crash {defect : Crash} (h : ready.run.run s = .error defect) (left : Nat) :
    (poll.waitWithin awaited ready left).run.run s = .error defect := by
  cases left with
  | zero => rw [waitWithin, run_attempt_bind_crash h]
  | succ left => rw [waitWithin, run_attempt_bind_crash h]

/-- Counting makes no difference to a look that ends the wait, so that only a no is left to be
looked at. -/
theorem run_waitWithin_counted {left asked : Nat}
    (h : ∀ t, ready.run.run s = .ok (.ok false, t) →
      (counted ready).run.run (s, asked) = .ok (.ok false, (t, asked + 1)) →
      (poll.waitWithin awaited ready left).run.run s =
        endIn Prod.fst ((poll.waitWithin awaited (counted ready) left).run.run (s, asked))) :
    (poll.waitWithin awaited ready left).run.run s =
      endIn Prod.fst ((poll.waitWithin awaited (counted ready) left).run.run (s, asked)) := by
  have hcounted := run_counted ready s asked
  rcases hready : ready.run.run s with defect | ⟨e | _ | _, t⟩ <;> rw [hready] at hcounted
  · rw [run_waitWithin_crash hready, run_waitWithin_crash hcounted, endIn_error]
  · rw [run_waitWithin_error hready, run_waitWithin_error hcounted, endIn_ok]
  · exact h t hready hcounted
  · rw [run_waitWithin hready, run_waitWithin hcounted, endIn_ok]

/-- That its questions are counted makes no difference to a wait; by induction on the turns that
the counter has left. -/
theorem run_wait_counted (poll : Poll) (awaited : Awaited) (ready : Attempt Error σ Bool) (s : σ)
    (asked : Nat) : (poll.wait awaited ready).run.run s =
      endIn Prod.fst ((poll.wait awaited (counted ready)).run.run (s, asked)) := by
  have hwithin : ∀ left s asked, (poll.waitWithin awaited ready left).run.run s =
      endIn Prod.fst ((poll.waitWithin awaited (counted ready) left).run.run (s, asked)) := by
    intro left
    induction left with
    | zero =>
      refine fun s asked => run_waitWithin_counted fun t hready hcounted => ?_
      rw [waitWithin, waitWithin, run_attempt_bind hready, run_attempt_bind hcounted]
      rfl
    | succ left ih =>
      refine fun s asked => run_waitWithin_counted fun t hready hcounted => ?_
      rw [waitWithin, waitWithin, run_attempt_bind hready, run_attempt_bind hcounted]
      cases poll.isOver (maxTurns - left) with
      | true => rfl
      | false => exact ih t (asked + 1)
  exact hwithin maxTurns s asked

/-! ## The property -/

/-- A wait lasts as long as it has been asked to. If the first yes is the answer to question
`count`, which the limit allows for, the wait succeeds after just so many questions. If all answers
that the limit allows for are noes, it is given up after just one question more than the limit.
Without a limit, or with the greatest one, the noes that it takes to bring the counter to its end
crash the wait; short of that it goes on for as long as it takes. -/
theorem waits_as_asked (poll : Poll) (awaited : Awaited) (ready : Attempt Error σ Bool) (s : σ) :
    (∀ asked, (poll.wait awaited ready).run.run s =
      endIn Prod.fst ((poll.wait awaited (counted ready)).run.run (s, asked))) ∧
    (∀ count t, Grants ready count s t → count ≤ UInt32.size →
      (∀ limit, poll.limit = some limit → count ≤ limit + 1) →
      (poll.wait awaited (counted ready)).run.run (s, 0) = .ok (.ok (), (t, count))) ∧
    (∀ limit t, poll.limit = some limit → limit + 1 < UInt32.size →
      Denies ready (limit + 1) s t →
      (poll.wait awaited (counted ready)).run.run (s, 0) =
        .ok (.error (.timeout awaited), (t, limit + 1))) ∧
    (∀ t, (∀ limit, poll.limit = some limit → UInt32.size ≤ limit + 1) →
      Denies ready UInt32.size s t →
      (poll.wait awaited (counted ready)).run.run (s, 0) = .error .arithmetic) := by
  -- The counter starts at the first question, so that there is one question more than turns.
  have hsize : maxTurns + 1 = UInt32.size := rfl
  refine ⟨run_wait_counted poll awaited ready s, fun count t h hcounter hlimit => ?_,
    fun limit t hpoll hlimit h => ?_, fun t hpoll h => ?_⟩
  · have hgrants := h.counted 0
    rw [Nat.zero_add] at hgrants
    refine run_waitWithin_of_grants 0 hgrants ?_ fun limit hpoll => ?_
    · omega
    · have := hlimit limit hpoll
      omega
  · have hdenies := h.counted 0
    rw [Nat.zero_add] at hdenies
    exact run_waitWithin_of_denies 0 hpoll (by omega) (Nat.zero_add limit) hdenies
  · have hdenies := h.counted 0
    rw [← hsize] at hdenies
    refine run_waitWithin_overflow 0 (fun limit hlimit => ?_) (Nat.zero_add maxTurns)
      hdenies
    have := hpoll limit hlimit
    omega

/-! ## Conditions that count -/

/-- A condition that becomes true when it is asked for the `count`-th time. -/
def yesAt (count : Nat) : Attempt Error Nat Bool := do
  modify (· + 1)
  return decide (count ≤ (← get))

theorem run_yesAt (count asked : Nat) :
    (yesAt count).run.run asked = .ok (.ok (decide (count ≤ asked + 1)), asked + 1) := rfl

/-- By induction on the questions that are left. -/
theorem grants_yesAt (asked count : Nat) :
    Grants (yesAt (asked + count + 1)) (count + 1) asked (asked + count + 1) := by
  induction count generalizing asked with
  | zero =>
    refine .yes ?_
    rw [run_yesAt, decide_eq_true (Nat.le_refl _)]
  | succ count ih =>
    refine .no (t := asked + 1) ?_ ?_
    · rw [run_yesAt, decide_eq_false (by omega)]
    · have hrest := ih (asked + 1)
      rwa [show asked + 1 + count = asked + (count + 1) by omega] at hrest

/-- The fifth answer is in time for a limit of four turns and too late for one of three. An answer
that never comes is waited for until the counter is at its end. -/
theorem waits_as_asked_fifth_answer :
    (Grants (yesAt 5) 5 0 5 ∧
      ((Poll.mk (some 4)).wait .deviceReady (counted (yesAt 5))).run.run (0, 0) =
        .ok (.ok (), (5, 5))) ∧
    (Denies (yesAt 5) 4 0 4 ∧
      ((Poll.mk (some 3)).wait .deviceReady (counted (yesAt 5))).run.run (0, 0) =
        .ok (.error (.timeout .deviceReady), (4, 4))) ∧
    (Denies (pure false) UInt32.size () () ∧
      ((Poll.mk none).wait .deviceReady (counted (pure false))).run.run ((), 0) =
        .error .arithmetic) := by
  have hfifth : Grants (yesAt 5) 5 0 5 := grants_yesAt 0 4
  have hfourth : Denies (yesAt 5) 4 0 4 :=
    .no rfl (.no rfl (.no rfl (.no rfl (.unasked 4))))
  have hnever : Denies (pure false) UInt32.size () () := denies_of_fixed rfl UInt32.size
  obtain ⟨-, hyes, -, -⟩ := waits_as_asked ⟨some 4⟩ .deviceReady (yesAt 5) 0
  obtain ⟨-, -, hlate, -⟩ := waits_as_asked ⟨some 3⟩ .deviceReady (yesAt 5) 0
  obtain ⟨-, -, -, hforever⟩ := waits_as_asked ⟨none⟩ .deviceReady (pure false) ()
  refine ⟨⟨hfifth, hyes 5 5 hfifth (by decide) ?_⟩, ⟨hfourth, hlate 3 4 rfl (by decide) hfourth⟩,
    ⟨hnever, hforever () nofun hnever⟩⟩
  rintro _ ⟨⟩
  exact Nat.le_refl 5

/-- Without a limit a condition that becomes true is not always waited for: one that takes a
question more than the counter can count crashes the wait, and so does the next turn of a counter
that is at its end. With the greatest limit, such a wait is not given up either. -/
theorem counter_runs_over :
    Grants (yesAt (UInt32.size + 1)) (UInt32.size + 1) 0 (UInt32.size + 1) ∧
    ((Poll.mk none).wait .deviceReady (yesAt (UInt32.size + 1))).run.run 0 =
      .error .arithmetic ∧
    ((Poll.mk (some (UInt32.size - 1))).wait .deviceReady
      (yesAt (UInt32.size + 1))).run.run 0 = .error .arithmetic ∧
    ((Poll.mk none).turn .deviceReady).run.run 4294967295 = .error .arithmetic := by
  have hgrants : Grants (yesAt (UInt32.size + 1)) (UInt32.size + 1) 0 (UInt32.size + 1) := by
    have h := grants_yesAt 0 UInt32.size
    rwa [Nat.zero_add] at h
  obtain ⟨last, hdenies⟩ := hgrants.exists_denies (Nat.lt_succ_self UInt32.size)
  refine ⟨hgrants, ?_, ?_, ?_⟩
  · exact run_waitWithin_overflow 0 nofun (Nat.zero_add maxTurns) hdenies
  · refine run_waitWithin_overflow 0 ?_ (Nat.zero_add maxTurns) hdenies
    rintro _ ⟨⟩
    exact Nat.le_refl _
  · rw [run_turn]
    rfl

end Poll

end NandFlash
