import NandFlash.Proofs.SideBySide.Steps
import NandFlash.Proofs.Sim.Aftermath
import NandFlash.Proofs.Sim.Waiting

/-!
# The corrections of a read

A read goes on for as long as the engine reports damage, and nothing but the queue of reports, which
the driver does not see, bounds how often it corrects. To speak of the corrections that a read
makes, its steps are carried out beside a record of them (`Conduct.recording`); the read is the same
with the record or without (`inStep_runRead`). Each acknowledgement takes a report off the queue, so
that the main statement holds of a device in any state that does not hang: without a limit a read
returns, after one correction for each report, or a single one for an event left over from before.
-/

namespace NandFlash

namespace Reading

variable {α β σ ε : Type}

/-! ## Reads that keep a record -/

/-- What a call of the correction comes to: the repairs it has made, or the field that is lost. -/
abbrev Call := Except LostField (List FieldReport)

/-- The way a read is carried out in a state `σ` that has a reading in it: how a step is taken
there, and what is done to correct the fields. -/
structure Conduct (β σ : Type) where
  step : {α : Type} → Action (Reading β) α → Action σ α
  correct : Geometry → Action σ Call

/-- A step of a reading, beside a record of calls. -/
def beside (m : Action (Reading β) α) : Action (Reading β × List Call) α :=
  fun (reading, calls) => do
    let (a, reading) ← m reading
    return (a, (reading, calls))

namespace Conduct

variable [Bus β]

/-- Nothing but the read. -/
def plain : Conduct β (Reading β) where
  step := id
  correct := correctFields

/-- Each call of the correction is noted, the newest at the end. -/
def recording : Conduct β (Reading β × List Call) where
  step := beside
  correct g := do
    let call ← beside (correctFields g)
    modify fun (reading, calls) => (reading, calls ++ [call])
    return call

variable (conduct : Conduct β σ)

/-- An attempt of the reading. -/
def attempt (m : Attempt ε (Reading β) α) : Attempt ε σ α :=
  ExceptT.mk (conduct.step m.run)

/-- Deal with one ECC event. -/
def repair (g : Geometry) (page : Nat) : Attempt Error σ Unit := do
  match ← perform (conduct.correct g) with
  | .ok fixed =>
    perform (conduct.step (modify (credit fixed)))
    perform (conduct.step (onBus (Bus.write32 Register.status Bits.eccEvent)))
  | .error lost =>
    perform (conduct.step (modify debit))
    perform (conduct.step (onChannel Channel.abandon))
    throw (.uncorrectable page lost.field)

/-- Is the transfer over? -/
def isOver : Attempt Error σ Bool := do
  let status ← perform (conduct.step (onBus (Bus.read32 Register.status)))
  return status &&& Bits.transferDone != 0 && status &&& Bits.eccEvent == 0

/-- One look at the status flags, with a repair if one is asked for. -/
def look (g : Geometry) (page : Nat) : Attempt Error σ Bool := do
  if ← perform (conduct.step (onBus (Bus.anySet Register.status Bits.eccEvent))) then
    conduct.repair g page
  conduct.isOver

/-- Read a page into the buffer. -/
def runRead (poll : Poll) (g : Geometry) (page : Nat) : Attempt Error σ (List FieldReport) := do
  conduct.attempt (tryOnChannel (Channel.expect .armed))
  perform (conduct.step (onChannel (Channel.enter .running)))
  perform (conduct.step (onBus (Bus.setBits Register.control Bits.startRead)))
  perform (conduct.step receive)
  if ← perform (conduct.step (onBus (Bus.allClear Register.control Bits.eccCheck))) then
    poll.wait .transferIn
      (perform (conduct.step (onBus (Bus.anySet Register.status Bits.transferDone))))
  else
    poll.wait .transferIn (conduct.look g page)
  perform (conduct.step (onChannel (Channel.enter .completed)))
  return (← perform (conduct.step get)).reports

/-- Carried out plainly, it is the read of the driver. -/
theorem runRead_plain (poll : Poll) (g : Geometry) (page : Nat) :
    (plain : Conduct β (Reading β)).runRead poll g page = Reading.runRead poll g page := rfl

end Conduct

/-! ## The record makes no difference -/

theorem run_beside (m : Action (Reading β) α) (reading : Reading β) (calls : List Call) :
    (beside m).run (reading, calls) = endIn (·, calls) (m.run reading) := by
  show (m reading >>= fun r => _) = endIn _ (m reading)
  cases m reading <;> rfl

theorem run_beside_ok {m : Action (Reading β) α} {reading next : Reading β} {a : α}
    (h : m.run reading = .ok (a, next)) (calls : List Call) :
    (beside m).run (reading, calls) = .ok (a, (next, calls)) := by
  rw [run_beside, h, endIn_ok]

theorem run_attempt_beside {m : Attempt ε (Reading β) α} {reading next : Reading β}
    {r : Except ε α} [Bus β] (h : m.run.run reading = .ok (r, next)) (calls : List Call) :
    (Conduct.recording.attempt m).run.run (reading, calls) = .ok (r, (next, calls)) :=
  run_beside_ok h calls

theorem run_perform_beside [Bus β] {m : Action (Reading β) α} {reading next : Reading β} {a : α}
    (h : m.run reading = .ok (a, next)) (calls : List Call) :
    (perform (Conduct.recording.step m) : Attempt ε (Reading β × List Call) α).run.run
      (reading, calls) = .ok (.ok a, (next, calls)) :=
  run_perform (run_beside_ok h calls)

/-- A reading, and the same with a record beside it. -/
def Noted (reading : Reading β) (noted : Reading β × List Call) : Prop := noted.1 = reading

theorem inStep_beside (m : Action (Reading β) α) : InStep Any Noted m (beside m) Any := by
  rintro reading ⟨noted, calls⟩ (rfl : noted = reading)
  cases hrun : m.run noted with
  | error defect => exact .inr ⟨defect, trivial, rfl, by rw [run_beside, hrun]; rfl⟩
  | ok result =>
    exact .inl ⟨result.1, result.2, (result.2, calls), rfl, run_beside_ok hrun calls, rfl, trivial⟩

namespace Conduct

variable [Bus β] {g : Geometry} {page : Nat}

theorem inStep_step (m : Action (Reading β) α) :
    TryInStep Any Noted (perform (plain.step m) : Attempt ε (Reading β) α)
      (perform (recording.step m)) Any :=
  .perform (inStep_beside m)

theorem inStep_attempt (m : Attempt ε (Reading β) α) :
    TryInStep Any Noted (plain.attempt m) (recording.attempt m) Any :=
  .of_inStep (inStep_beside m.run)

theorem inStep_correct : InStep Any Noted ((plain (β := β)).correct g)
    (recording.correct g) Any := by
  rintro reading ⟨noted, calls⟩ (rfl : noted = reading)
  cases hrun : (correctFields g).run noted with
  | error defect =>
    exact .inr ⟨defect, trivial, hrun, run_bind_crash (by rw [run_beside, hrun]; rfl)⟩
  | ok result =>
    obtain ⟨call, next⟩ := result
    exact .inl ⟨call, next, (next, calls ++ [call]), hrun,
      run_step (run_beside_ok hrun calls) rfl, rfl, trivial⟩

theorem inStep_isOver :
    TryInStep Any Noted (plain (β := β)).isOver recording.isOver Any :=
  (inStep_step _).next fun _ => .pure trivial

theorem inStep_repair : TryInStep Any Noted ((plain (β := β)).repair g page)
    (recording.repair g page) Any := by
  refine (TryInStep.perform inStep_correct).next fun call => ?_
  cases call with
  | ok fixed => exact (inStep_step _).next fun _ => inStep_step _
  | error lost => exact (inStep_step _).next fun _ => (inStep_step _).next fun _ => .throw

theorem inStep_look : TryInStep Any Noted ((plain (β := β)).look g page)
    (recording.look g page) Any := by
  refine (inStep_step _).next fun event => ?_
  cases event with
  | true => exact inStep_repair.next fun _ => inStep_isOver
  | false => exact inStep_isOver

/-- With the record or without, a read returns the same and leaves the same reading. -/
theorem inStep_recorded (poll : Poll) (g : Geometry) (page : Nat) :
    TryInStep Any Noted (Reading.runRead (β := β) poll g page)
      (recording.runRead poll g page) Any := by
  rw [← runRead_plain]
  refine (inStep_attempt _).next fun _ => (inStep_step _).next fun _ =>
    (inStep_step _).next fun _ => (inStep_step _).next fun _ =>
    (inStep_step _).next fun unchecked => ?_
  cases unchecked with
  | true =>
    exact (TryInStep.wait (.inl trivial) (inStep_step _)).next fun _ => (inStep_step _).next
      fun _ => (inStep_step _).next fun _ => .pure trivial
  | false =>
    exact (TryInStep.wait (.inl trivial) inStep_look).next fun _ => (inStep_step _).next
      fun _ => (inStep_step _).next fun _ => .pure trivial

end Conduct

/-! ## What the calls come to -/

/-- The bytes that reports have repaired. -/
def repaired (fixed : List FieldReport) : Nat := (fixed.flatMap (·.corrections)).length

/-- After these calls the repairs are booked one after the other, and none of the calls has lost a
field. -/
def Booked (stats : EccStats) (calls : List Call) (reading : Reading β) : Prop :=
  ∃ fixed : List (List FieldReport), calls = fixed.map .ok ∧ reading.reports = fixed.flatten ∧
    reading.stats = { stats with corrected := stats.corrected + (fixed.map repaired).sum }

/-- The last call has lost a field of the page, and the page is booked as lost. -/
def BookedLost (page : Nat) (stats : EccStats) (calls : List Call) (e : Error)
    (reading : Reading β) : Prop :=
  ∃ (fixed : List (List FieldReport)) (lost : LostField),
    calls = fixed.map .ok ++ [.error lost] ∧ e = .uncorrectable page lost.field ∧
    reading.reports = fixed.flatten ∧
    reading.stats = ⟨stats.corrected + (fixed.map repaired).sum, stats.failed + 1⟩

theorem Booked.start (channel : Channel β) (data : Bytes) (stats : EccStats) :
    Booked stats [] (⟨channel, data, stats, []⟩ : Reading β) :=
  ⟨[], rfl, rfl, rfl⟩

/-- What is booked does not depend on the channel and the buffer. -/
theorem Booked.congr {stats : EccStats} {calls : List Call} {reading next : Reading β}
    (h : Booked stats calls reading) (hstats : next.stats = reading.stats)
    (hreports : next.reports = reading.reports) : Booked stats calls next := by
  obtain ⟨fixed, hcalls, hfixed, hbooks⟩ := h
  exact ⟨fixed, hcalls, hreports.trans hfixed, hstats.trans hbooks⟩

/-- One more call that has lost nothing. -/
theorem Booked.credit {stats : EccStats} {calls : List Call} {reading : Reading β}
    (h : Booked stats calls reading) (fixed : List FieldReport) :
    Booked stats (calls ++ [.ok fixed]) (reading.credit fixed) := by
  obtain ⟨before, rfl, hreports, hstats⟩ := h
  refine ⟨before ++ [fixed], by rw [List.map_append]; rfl, ?_, ?_⟩
  · show reading.reports ++ fixed = _
    rw [hreports, List.flatten_append, List.flatten_singleton]
  · show { reading.stats with corrected := reading.stats.corrected + repaired fixed } = _
    rw [hstats, List.map_append, List.sum_append, Nat.add_assoc]
    rfl

/-- One more call, which has lost a field. -/
theorem Booked.debit {stats : EccStats} {calls : List Call} {reading : Reading β}
    (h : Booked stats calls reading) (page : Nat) (lost : LostField) :
    BookedLost page stats (calls ++ [.error lost]) (.uncorrectable page lost.field)
      reading.debit := by
  obtain ⟨before, rfl, hreports, hstats⟩ := h
  refine ⟨before, lost, rfl, rfl, hreports, ?_⟩
  show { reading.stats with failed := reading.stats.failed + 1 } = _
  rw [hstats]

end Reading

namespace Sim

namespace Device

open Reading

variable {device next : Device} {g : Geometry} {data : Bytes} {stats : EccStats} {page : Nat}
  {reading : Reading Device} {calls : List Call} {state : DmaState} {reports : List FieldReport}
  {counted : EccStats}

/-! ## A recorded look -/

theorem run_isOver (reading : Reading Device) (calls : List Call) :
    (Conduct.recording.isOver).run.run (reading, calls) =
      .ok (.ok (reading.channel.bus.engine.hasFlag Bits.transferDone &&
        !reading.channel.bus.engine.hasFlag Bits.eccEvent), (reading, calls)) := by
  have hplain := run_answer_flags reading
  have hread : (onBus (Bus.read32 Register.status)).run reading =
      .ok (reading.channel.bus.engine.register Register.status ||| Bits.ready, reading) :=
    Reading.run_onBus_ok (run_read32_status _) _ _ _ _
  rw [answer, run_attempt_bind (run_perform hread)] at hplain
  have hover := (Prod.mk.inj (Except.ok.inj hplain)).1
  refine run_attempt_step (run_perform (run_beside_ok hread calls)) ?_
  rw [← hover]
  rfl

theorem run_eventUp (reading : Reading Device) {up : Bool}
    (h : reading.channel.bus.engine.hasFlag Bits.eccEvent = up) (calls : List Call) :
    (Conduct.recording.step (onBus (Bus.anySet Register.status Bits.eccEvent))).run
        (reading, calls) = .ok (up, (reading, calls)) := by
  refine run_beside_ok ?_ calls
  rw [Reading.run_onBus_ok (run_anySet_status Bits.eccEvent),
    flags_eq _ rfl (by decide) (by decide), seen_and _ (by decide), h]

/-- Without an event nothing is corrected. -/
theorem run_recorded_quiet (hquiet : reading.channel.bus.engine.hasFlag Bits.eccEvent = false) :
    (Conduct.recording.look g page).run.run (reading, calls) =
      .ok (.ok (reading.channel.bus.engine.hasFlag Bits.transferDone), (reading, calls)) := by
  have hover := run_isOver reading calls
  rw [hquiet, Bool.not_false, Bool.and_true] at hover
  unfold Conduct.look
  exact run_attempt_step (run_perform (run_eventUp reading hquiet calls)) hover

/-- With an event there is one call. If it loses nothing the event is acknowledged. -/
theorem run_recorded_fixed {result : List FieldReport × Bytes}
    (hevent : device.engine.hasFlag Bits.eccEvent = true)
    (hcorrect : (Ecc.correct g data).run.run device = .ok (.ok result, next)) :
    (Conduct.recording.look g page).run.run (⟨⟨state, device⟩, data, stats, reports⟩, calls) =
      (Conduct.recording.isOver).run.run
        (Reading.credit result.1 ⟨⟨state, next.modifyEngine (·.acknowledge Bits.eccEvent)⟩,
          result.2, stats, reports⟩, calls ++ [.ok result.1]) := by
  have hfields : (correctFields g).run ⟨⟨state, device⟩, data, stats, reports⟩ =
      .ok (.ok result.1, ⟨⟨state, next⟩, result.2, stats, reports⟩) := by
    rw [Reading.run_correctFields, hcorrect]
  have hcall : (Conduct.recording.correct g).run (⟨⟨state, device⟩, data, stats, reports⟩, calls) =
      .ok (.ok result.1, (⟨⟨state, next⟩, result.2, stats, reports⟩, calls ++ [.ok result.1])) :=
    run_step (run_beside_ok hfields calls) rfl
  -- The repairs are booked, and then the event is acknowledged.
  have hrepair : (Conduct.recording.repair g page).run.run
      (⟨⟨state, device⟩, data, stats, reports⟩, calls) = .ok (.ok (),
        (Reading.credit result.1 ⟨⟨state, next.modifyEngine (·.acknowledge Bits.eccEvent)⟩,
          result.2, stats, reports⟩, calls ++ [.ok result.1])) := by
    refine run_attempt_step (run_perform hcall) ?_
    refine run_attempt_step (run_perform (run_beside_ok rfl _)) ?_
    exact run_perform (run_beside_ok
      (Reading.run_onBus_ok (run_write32_status next _) _ _ _ _) _)
  unfold Conduct.look
  exact run_attempt_step
    (run_perform (run_eventUp ⟨⟨state, device⟩, data, stats, reports⟩ hevent calls))
    (run_attempt_bind hrepair)

/-- If it loses a field the page is given up. -/
theorem run_recorded_lost {lost : LostField} {channel : Channel Device}
    (hevent : device.engine.hasFlag Bits.eccEvent = true)
    (hcorrect : (Ecc.correct g data).run.run device = .ok (.error lost, device))
    (habandon : Channel.abandon.run ⟨state, device⟩ = .ok ((), channel)) :
    (Conduct.recording.look g page).run.run (⟨⟨state, device⟩, data, stats, reports⟩, calls) =
      .ok (.error (.uncorrectable page lost.field),
        (Reading.debit ⟨channel, data, stats, reports⟩, calls ++ [.error lost])) := by
  have hfields : (correctFields g).run ⟨⟨state, device⟩, data, stats, reports⟩ =
      .ok (.error lost, ⟨⟨state, device⟩, data, stats, reports⟩) := by
    rw [Reading.run_correctFields, hcorrect]
  have hcall : (Conduct.recording.correct g).run (⟨⟨state, device⟩, data, stats, reports⟩, calls) =
      .ok (.error lost, (⟨⟨state, device⟩, data, stats, reports⟩, calls ++ [.error lost])) :=
    run_step (run_beside_ok hfields calls) rfl
  unfold Conduct.look
  refine run_attempt_step
    (run_perform (run_eventUp ⟨⟨state, device⟩, data, stats, reports⟩ hevent calls)) ?_
  refine run_attempt_bind_error (run_attempt_step (run_perform hcall) ?_)
  refine run_attempt_step (run_perform (run_beside_ok rfl _)) ?_
  exact run_attempt_step (run_perform (run_beside_ok
    (Reading.run_onChannel_ok habandon _ _ _) _)) rfl

/-! ## The wait -/

/-- A read on its way through a queue, with its calls booked so far. -/
structure Pending (stats : EccStats) (queue : List DamageReport) (calls : List Call)
    (reading : Reading Device) : Prop where
  state_eq : reading.channel.state = .running
  queued : reading.channel.bus.engine.Queued queue
  booked : Booked stats calls reading

/-- What one look has come to: the end of the read, another report of the queue, or a lost field. -/
def Looked (page : Nat) (stats : EccStats) (queue : List DamageReport) (calls : List Call)
    (reading : Reading Device) : Except Error Bool → Prop
  | .ok true => queue.length ≤ 1 ∧ reading.channel.state = .running ∧ Booked stats calls reading
  | .ok false => 1 < queue.length ∧ Pending stats (queue.drop 1) calls reading
  | .error e => BookedLost page stats calls e reading

/-- One look makes a call if and only if it finds an event up, and takes a report off the queue. -/
theorem exists_look_recorded {queue : List DamageReport} (g : Geometry) (page : Nat)
    (h : Pending stats queue calls reading) :
    ∃ result last made, (Conduct.recording.look g page).run.run (reading, calls) =
        .ok (result, (last, made)) ∧
      made.length = calls.length +
        (if reading.channel.bus.engine.hasFlag Bits.eccEvent then 1 else 0) ∧
      Looked page stats queue made last result := by
  cases hevent : reading.channel.bus.engine.hasFlag Bits.eccEvent with
  | false =>
    -- Nothing is queued any more, so that the end of the read is up.
    obtain rfl := h.queued.eq_nil hevent
    refine ⟨.ok true, reading, calls, ?_, rfl, Nat.zero_le _, h.state_eq, h.booked⟩
    rw [run_recorded_quiet hevent,
      show reading.channel.bus.engine.hasFlag Bits.transferDone = true from h.queued.hasFlag_next]
  | true =>
    obtain ⟨⟨state, device⟩, data, counted, reports⟩ := reading
    obtain ⟨outcome, next, hcorrect, hend⟩ := device.exists_run_correct g data
    cases outcome with
    | error lost =>
      obtain ⟨rfl, -⟩ := hend
      have habandon : ∃ channel, Channel.abandon.run ⟨state, next⟩ = .ok ((), channel) :=
        ⟨_, run_step (Channel.run_onBus_ok (run_step (run_write32_status next _) <|
          run_step (run_write32_dmaControl _ _) <| run_reset_dropped _) state)
          (Channel.run_enter _ _ _)⟩
      obtain ⟨channel, habandon⟩ := habandon
      refine ⟨_, _, _, run_recorded_lost hevent hcorrect habandon, ?_, ?_⟩
      · rw [List.length_append]
        rfl
      · have hbooked : Booked stats calls
            (⟨channel, data, counted, reports⟩ : Reading Device) := h.booked.congr rfl rfl
        exact hbooked.debit page lost
    | ok result =>
      -- Repairs do not touch the queue, and the acknowledgement takes one report off it.
      obtain ⟨hnext, hflag⟩ := (h.queued.kept hend).acknowledge
      have hbooked : Booked stats calls (⟨⟨state, next.modifyEngine
          (·.acknowledge Bits.eccEvent)⟩, result.2, counted, reports⟩ : Reading Device) :=
        h.booked.congr rfl rfl
      have hcredit := hbooked.credit result.1
      refine ⟨_, _, _, (run_recorded_fixed hevent hcorrect).trans (run_isOver _ _), ?_, ?_⟩
      · rw [List.length_append]
        rfl
      · show Looked page stats queue _ _
          (.ok ((next.engine.acknowledge Bits.eccEvent).hasFlag Bits.transferDone &&
            !(next.engine.acknowledge Bits.eccEvent).hasFlag Bits.eccEvent))
        rw [hflag, Bool.not_not]
        cases hrest : queue.drop 1 with
        | nil =>
          rw [hrest] at hnext
          rw [show (next.engine.acknowledge Bits.eccEvent).hasFlag Bits.transferDone = true from
            hnext.hasFlag_next]
          exact ⟨List.drop_eq_nil_iff.1 hrest, h.state_eq, hcredit⟩
        | cons report rest =>
          rw [List.isEmpty_cons, Bool.and_false]
          have hlength := congrArg List.length hrest
          rw [List.length_drop, List.length_cons] at hlength
          exact ⟨by omega, h.state_eq, hnext, hcredit⟩

/-- How the wait for the end of a read ends: it has gone through the queue, or lost a field. -/
def Waits (page : Nat) (stats : EccStats) (calls : List Call) (reading : Reading Device) :
    Except Error Unit → Prop
  | .ok () => reading.channel.state = .running ∧ Booked stats calls reading
  | .error e => BookedLost page stats calls e reading

/-- The first look of a wait makes one call at most, and exactly one if anything is queued. Unless
it finds more to come the wait is over with it. -/
theorem exists_first_look {queue : List DamageReport} (g : Geometry) (page left : Nat)
    (h : Pending stats queue calls reading) :
    ∃ last made, made.length ≤ calls.length + 1 ∧
      ((∃ outcome, (Poll.unlimited.waitWithin .transferIn
          (Conduct.recording.look g page) left).run.run (reading, calls) =
            .ok (outcome, (last, made)) ∧ Waits page stats made last outcome ∧
          (outcome = .ok () → calls.length + queue.length ≤ made.length)) ∨
        (Conduct.recording.look g page).run.run (reading, calls) =
            .ok (.ok false, (last, made)) ∧ made.length = calls.length + 1 ∧
          1 < queue.length ∧ Pending stats (queue.drop 1) made last) := by
  obtain ⟨result, last, made, hlook, hmade, hlooked⟩ := exists_look_recorded g page h
  have hone : queue ≠ [] → made.length = calls.length + 1 := by
    intro hqueue
    cases hevent : reading.channel.bus.engine.hasFlag Bits.eccEvent with
    | false => exact absurd (h.queued.eq_nil hevent) hqueue
    | true => rw [hmade, hevent, if_pos rfl]
  refine ⟨last, made, ?_, ?_⟩
  · rw [hmade]
    split <;> omega
  · match result with
    | .ok true =>
      obtain ⟨hshort, hwaits⟩ := hlooked
      refine .inl ⟨_, run_waitWithin hlook left, hwaits, fun _ => ?_⟩
      cases queue with
      | nil =>
        rw [hmade]
        exact Nat.le_add_right _ _
      | cons report rest => exact (Nat.add_le_add_left hshort _).trans_eq (hone nofun).symm
    | .ok false =>
      exact .inr ⟨hlook, hone (List.ne_nil_of_length_pos (Nat.lt_trans Nat.one_pos hlooked.1)),
        hlooked⟩
    | .error e =>
      have hwait : (Poll.unlimited.waitWithin .transferIn
          (Conduct.recording.look g page) left).run.run (reading, calls) =
          .ok (.error e, (last, made)) := by
        cases left <;> exact run_attempt_bind_error hlook
      exact .inl ⟨_, hwait, hlooked, nofun⟩

/-- Without a limit the wait ends when the queue is empty: by induction on the turns left, with the
queue no longer than that. The first look may find an event and nothing queued; behind it every
event is that of a report. -/
theorem exists_waitWithin_recorded (g : Geometry) (page : Nat) {left : Nat}
    {queue : List DamageReport} (hleft : queue.length ≤ left + 1)
    (h : Pending stats queue calls reading) :
    ∃ outcome last made, (Poll.unlimited.waitWithin .transferIn
        (Conduct.recording.look g page) left).run.run (reading, calls) =
          .ok (outcome, (last, made)) ∧
      made.length ≤ calls.length + max 1 queue.length ∧ Waits page stats made last outcome ∧
      (outcome = .ok () → calls.length + queue.length ≤ made.length) := by
  induction left generalizing reading calls queue with
  | zero =>
    obtain ⟨last, made, hmade, ⟨outcome, hrun, hwaits⟩ | ⟨-, -, hmany, -⟩⟩ :=
      exists_first_look g page 0 h
    · exact ⟨outcome, last, made, hrun, by omega, hwaits⟩
    · omega
  | succ left ih =>
    obtain ⟨last, made, hmade, ⟨outcome, hrun, hwaits⟩ | ⟨hlook, hone, hmany, hpending⟩⟩ :=
      exists_first_look g page (left + 1) h
    · exact ⟨outcome, last, made, hrun, by omega, hwaits⟩
    · -- This look has used up the call that the report at the head of the queue accounts for.
      obtain ⟨outcome, end', made', hrest, hmade', hwaits, hall⟩ :=
        ih (by rw [List.length_drop]; omega) hpending
      rw [List.length_drop] at hmade' hall
      refine ⟨outcome, end', made', run_attempt_step hlook hrest, by omega, hwaits, fun hok => ?_⟩
      have hall := hall hok
      omega

/-! ## The read -/

/-- The reports that a read is shown if it is started now: of the damage of the page in the page
register. -/
def found (device : Device) : List DamageReport :=
  device.engine.findDamage device.latches.cache
    (device.latches.cacheRow.bind fun row => device.array.reference[row]?)

theorem length_found_le (device : Device) : device.found.length ≤ 16 :=
  Engine.length_findDamage_le _ _ _

/-- A read that is started finds them queued, and the first of them shown. -/
theorem exists_queued (h : device.engine.Stored) (hhang : device.engine.hang = false)
    (data : Bytes) : ∃ filled next,
      (Bus.dmaFromDevice data).run (device.modifyEngine (·.started .fromFlash)) =
        .ok (filled, next) ∧
      next.engine.Queued device.found ∧
      (next.engine.register Register.control &&& Bits.eccCheck = 0 → device.found = []) := by
  obtain ⟨served, hserved⟩ : ∃ served : Engine, served = { device.engine.served .fromFlash with
      reports := (device.engine.served .fromFlash).findDamage device.latches.cache
        (device.latches.cacheRow.bind fun row => device.array.reference[row]?)
      reading := true } := ⟨_, rfl⟩
  have hregister : ∀ offset, served.register offset = device.engine.register offset := by
    rw [hserved]
    exact device.engine.register_started .fromFlash
  have hstored : served.Stored := h.of_register (hregister _) (hregister _)
  have hqueued := Engine.queued_presentNext hstored (by rw [hserved])
  obtain ⟨filled, next, hnext, hengine⟩ : ∃ filled next,
      (device.modifyEngine (·.served .fromFlash)).deliver data = (filled, next) ∧
        next.engine = served.presentNext := by
    rw [hserved]
    exact ⟨_, _, rfl, rfl⟩
  -- Starting the read and serving it does not touch the registers that damage is looked for by.
  have hfound : served.reports = device.found := by
    rw [hserved]
    exact Engine.findDamage_congr (device.engine.register_started _ _)
      (device.engine.register_started _ _) _ _
  refine ⟨filled, next, by rw [run_dmaFromDevice_started device hhang, hnext], ?_, ?_⟩
  · rw [hengine, ← hfound]
    exact hqueued
  · rw [hengine, Engine.register_presentNext _ (by decide) (by decide), hregister]
    exact fun hcheck => Engine.findDamage_unchecked hcheck _ _

/-- The wait for the end of a started read, whichever of the two it is. -/
def awaitRecorded (g : Geometry) (page : Nat) (isUnchecked : Bool) :
    Attempt Error (Reading Device × List Call) Unit :=
  if isUnchecked then
    Poll.unlimited.wait .transferIn (perform (Conduct.recording.step
      (onBus (Bus.anySet Register.status Bits.transferDone))))
  else
    Poll.unlimited.wait .transferIn (Conduct.recording.look g page)

/-- A started read, up to the wait for its end. -/
theorem run_recorded_runRead {filled : Bytes} (h : device.engine.Stored)
    (hdma : (Bus.dmaFromDevice data).run (device.modifyEngine (·.started .fromFlash)) =
      .ok (filled, next)) :
    (Conduct.recording.runRead .unlimited g page).run.run
      (⟨⟨.armed, device⟩, data, stats, []⟩, []) =
      (do
        awaitRecorded g page (next.engine.register Register.control &&& Bits.eccCheck == 0)
        perform (Conduct.recording.step (onChannel (Channel.enter .completed)))
        return (← perform (Conduct.recording.step get)).reports :
          Attempt Error (Reading Device × List Call) (List FieldReport)).run.run
        (⟨⟨.running, next⟩, filled, stats, []⟩, []) := by
  have hclear : (Bus.allClear Register.control Bits.eccCheck).run next =
      .ok (next.engine.register Register.control &&& Bits.eccCheck == 0, next) :=
    run_allClear (by decide) _
  -- Up to the wait the recording conduct does what the plain one does, with no call made.
  unfold Conduct.runRead
  refine run_attempt_step (run_attempt_beside (Reading.run_expect_self .armed _ _ _ _) _) ?_
  refine run_attempt_step (run_perform_beside rfl _) ?_
  refine run_attempt_step (run_perform_beside
    (Reading.run_onBus_ok (run_startRead h) _ _ _ _) _) ?_
  refine run_attempt_step (run_perform_beside (run_receive hdma _ _) _) ?_
  refine run_attempt_step (run_perform_beside (Reading.run_onBus_ok hclear _ _ _ _) _) ?_
  cases next.engine.register Register.control &&& Bits.eccCheck == 0 <;> rfl

/-- It ends without a limit. An engine that does not check has nothing queued, so that the end of
the read is up at once; one that does is looked at until it has no report left. -/
theorem exists_awaitRecorded (g : Geometry) (page : Nat) {queue : List DamageReport}
    {isUnchecked : Bool} (hqueue : queue.length ≤ 16)
    (hnone : isUnchecked = true → queue = []) (h : Pending stats queue [] reading) :
    ∃ waited last calls, (awaitRecorded g page isUnchecked).run.run (reading, []) =
        .ok (waited, (last, calls)) ∧
      calls.length ≤ max 1 queue.length ∧ Waits page stats calls last waited ∧
      (waited = .ok () → queue.length ≤ calls.length) := by
  cases isUnchecked with
  | true =>
    have hdone : reading.channel.bus.engine.hasFlag Bits.transferDone = true := by
      have hflag := h.queued.hasFlag_next
      rwa [hnone rfl] at hflag
    refine ⟨_, _, [], run_wait (run_perform_beside ?_ _), Nat.zero_le _, ⟨h.state_eq, h.booked⟩,
      fun _ => by rw [hnone rfl]; exact Nat.le_refl _⟩
    rw [Reading.run_onBus_ok (run_anySet_status _), flags_eq _ rfl (by decide) (by decide),
      seen_and _ (by decide), hdone]
  | false =>
    have hturns : Poll.maxTurns = 2 ^ 32 - 1 := rfl
    obtain ⟨waited, last, calls, hwait, hcalls, hwaits⟩ :=
      exists_waitWithin_recorded g page (show queue.length ≤ Poll.maxTurns + 1 by omega) h
    rw [List.length_nil, Nat.zero_add] at hcalls hwaits
    exact ⟨waited, last, calls, hwait, hcalls, hwaits⟩

/-- A recorded read of a device that does not hang, by what is queued when it starts. -/
theorem exists_runRead_recorded (h : device.engine.Stored) (hhang : device.engine.hang = false)
    (g : Geometry) (page : Nat) (data : Bytes) (stats : EccStats) :
    ∃ filled next outcome last calls,
      (Bus.dmaFromDevice data).run (device.modifyEngine (·.started .fromFlash)) =
        .ok (filled, next) ∧ next.engine.reports = device.found ∧
      (Conduct.recording.runRead .unlimited g page).run.run
        (⟨⟨.armed, device⟩, data, stats, []⟩, []) = .ok (outcome, (last, calls)) ∧
      calls.length ≤ max 1 device.found.length ∧
      match outcome with
      | .ok reports => reports = last.reports ∧ Booked stats calls last ∧
          device.found.length ≤ calls.length
      | .error e => BookedLost page stats calls e last := by
  obtain ⟨filled, next, hdma, hqueued, hnone⟩ := exists_queued h hhang data
  have hpending : Pending stats device.found [] ⟨⟨.running, next⟩, filled, stats, []⟩ :=
    ⟨rfl, hqueued, Booked.start _ _ _⟩
  obtain ⟨waited, mid, calls, hwait, hcalls, hwaits, hall⟩ := exists_awaitRecorded g page
    device.length_found_le (fun hunchecked => hnone (beq_iff_eq.1 hunchecked)) hpending
  cases waited with
  | error e =>
    exact ⟨filled, next, _, mid, calls, hdma, hqueued.reports_eq,
      (run_recorded_runRead h hdma).trans (run_attempt_bind_error hwait), hcalls, hwaits⟩
  | ok =>
    obtain ⟨⟨state, device'⟩, filled', counted, reports⟩ := mid
    refine ⟨filled, next, .ok reports, ⟨⟨.completed, device'⟩, filled', counted, reports⟩, calls,
      hdma, hqueued.reports_eq, (run_recorded_runRead h hdma).trans ?_, hcalls, rfl,
      hwaits.2.congr rfl rfl, hall rfl⟩
    exact run_attempt_step hwait (run_attempt_step (run_perform_beside rfl _)
      (run_attempt_step (run_perform_beside rfl _) rfl))

/-- A read of a device that does not hang, whatever state it has been left in, returns without a
limit on its waits. It makes no more calls of the correction than reports are queued when it starts,
of which there are at most sixteen, or a single call if an event is up for none. If it succeeds it
has made a call for each of them, it returns what the calls have repaired, one after the other, and
it has booked all of it. -/
theorem read_ends_by_itself (h : device.Reachable) (hhang : device.engine.hang = false)
    (g : Geometry) (page : Nat) (data : Bytes) (stats : EccStats) :
    ∃ filled next outcome last calls,
      (do Bus.setBits Register.control Bits.startRead; Bus.dmaFromDevice data :
        Action Device Bytes).run device = .ok (filled, next) ∧
      next.engine.reports = device.found ∧ device.found.length ≤ 16 ∧
      (Reading.runRead .unlimited g page).run.run ⟨⟨.armed, device⟩, data, stats, []⟩ =
        .ok (outcome, last) ∧
      (Conduct.plain : Conduct Device (Reading Device)).runRead = Reading.runRead ∧
      (Conduct.recording.runRead .unlimited g page).run.run
        (⟨⟨.armed, device⟩, data, stats, []⟩, []) = .ok (outcome, (last, calls)) ∧
      calls.length ≤ max 1 device.found.length ∧
      (∀ reports, outcome = .ok reports → ∃ fixed : List (List FieldReport),
        calls = fixed.map .ok ∧ device.found.length ≤ calls.length ∧ reports = fixed.flatten ∧
        last.stats = { stats with corrected := stats.corrected + (fixed.map repaired).sum }) ∧
      ∀ e, outcome = .error e → BookedLost page stats calls e last := by
  obtain ⟨filled, next, outcome, last, calls, hdma, hqueued, hrun, hcalls, hend⟩ :=
    exists_runRead_recorded h.stored hhang g page data stats
  -- The read without the record returns too, and the same.
  have hplain : (Reading.runRead .unlimited g page).run.run ⟨⟨.armed, device⟩, data, stats, []⟩ =
      .ok (outcome, last) := by
    rcases Conduct.inStep_recorded .unlimited g page ⟨⟨.armed, device⟩, data, stats, []⟩
        (⟨⟨.armed, device⟩, data, stats, []⟩, []) rfl with
      ⟨a, s', t', hrun', hrun'', (hnoted : t'.1 = s'), -⟩ | ⟨defect, -, -, hcrash⟩
    · obtain ⟨rfl, rfl⟩ := Prod.mk.inj (Except.ok.inj (hrun.symm.trans hrun''))
      rw [hrun', ← hnoted]
    · exact absurd (hrun.symm.trans hcrash) (by rintro ⟨⟩)
  refine ⟨filled, next, outcome, last, calls, run_step (run_startRead h.stored) hdma, hqueued,
    device.length_found_le, hplain, funext fun poll => funext fun g => funext fun page =>
      Conduct.runRead_plain poll g page, hrun, hcalls, ?_, ?_⟩
  · rintro reports rfl
    obtain ⟨rfl, ⟨fixed, hfixed, hreports, hstats⟩, hall⟩ := hend
    exact ⟨fixed, hfixed, hall, hreports, hstats⟩
  · rintro e rfl
    exact hend

/-! ### A page with three damaged fields -/

/-- An engine that is armed for it is shown the damage of the page in the page register. -/
theorem found_eq_damage {layout : SpareLayout} {content : Bytes} {row column : Nat}
    (h : device.engine.Armed g) (hfits : g.Fits layout)
    (hdelivers : device.latches.Delivers content row column) :
    device.found = Engine.damage g content (device.flash.reference row) := by
  rw [found, Engine.findDamage_eq h hfits, hdelivers.cache_eq, hdelivers.cacheRow_eq]
  rfl

/-- Setting up a transfer is nothing but accesses. -/
theorem reachable_of_prepareTransfer {poll : Poll} {setup : TransferSetup} {reset : Device}
    (h : device.Reachable)
    (hreset : (Channel.reset poll).run.run ⟨.idle, device⟩ = .ok (.ok (), ⟨.resetRequested, reset⟩))
    (harm : (Channel.arm setup data).run.run ⟨.resetRequested, reset⟩ =
      .ok (.ok (), ⟨.armed, next⟩)) : next.Reachable := by
  have hpermits := Same.permits lasts_reachable setup
  obtain ⟨_, -, hmid, -⟩ := (Channel.inStep_reset hpermits (.inl trivial)).exists_of_run
    (⟨rfl, rfl, h⟩ : Channel.Paired (Same Reachable) ⟨.idle, device⟩ ⟨.idle, device⟩) hreset
  obtain ⟨_, -, hend, -⟩ := (Channel.inStep_arm hpermits data).exists_of_run
    (⟨rfl, rfl, hmid.bus.2⟩ : Channel.Paired (Same Reachable) _ _) harm
  exact hend.bus.2

/-- Without a limit a page is read to its end if no field has more errors than can be repaired. -/
theorem exists_runRead_repairable {layout : SpareLayout} {content : Bytes} {row column : Nat}
    (h : device.engine.Armed g) (hfits : g.Fits layout)
    (hdelivers : device.latches.Delivers content row column) (hhang : device.engine.hang = false)
    (hdata : data.size = g.pageBytes)
    (hgood : ∀ report ∈ device.found, report.errors.length ≤ g.correctable) (page : Nat)
    (stats : EccStats) : ∃ last,
      (Reading.runRead .unlimited g page).run.run ⟨⟨.armed, device⟩, data, stats, []⟩ =
        .ok (.ok (device.found.map (·.fieldReport g)), last) := by
  rw [found_eq_damage h hfits hdelivers] at hgood ⊢
  obtain ⟨start, hstart⟩ : ∃ start : Repairs, start =
      ⟨data, device.engine.window.front g.spareSize, stats, []⟩ := ⟨_, rfl⟩
  obtain ⟨filled, hfilled⟩ : ∃ filled : Repairs, filled =
      { start with data := start.data.overlay 0 (content.extract 0 g.pageBytes) } := ⟨_, rfl⟩
  obtain ⟨_, last, hrun, -⟩ := exists_runRead .unlimited page h hfits hdelivers hhang hfilled
    (show start.data.size = _ by rw [hstart]; exact hdata) (by rw [hstart])
  -- Every report is gone through, and none of them is given up.
  have hpoll : ∀ turns, Poll.unlimited.Allows turns := nofun
  have hall : Repairs.all .unlimited g page 0 (_ ++ []) filled = _ :=
    Repairs.all_append hgood (hpoll _) filled
  rw [List.append_nil, Repairs.foldl_credit, Repairs.all] at hall
  rw [hall, hfilled, hstart] at hrun
  exact ⟨last, hrun⟩

/-- One byte flips in each of the first three fields of a page. -/
theorem exists_three_reports : ∃ device : Device, device.Reachable ∧
    device.engine.hang = false ∧
    device.found.map (fun report => (report.field, report.errors.length)) =
      [(1, 1), (2, 1), (3, 1)] ∧ ∃ last,
    (Reading.runRead .unlimited ⟨.p2048, 64, .t8, rfl⟩ 0).run.run
        ⟨⟨.armed, device⟩, Bytes.filled 2048 0, ⟨3, 1⟩, []⟩ =
      .ok (.ok (device.found.map (·.fieldReport ⟨.p2048, 64, .t8, rfl⟩)), last) := by
  obtain ⟨device, content, hreachable, hhang, hrest, hfits, hdelivers, hreports⟩ :=
    exists_loaded_page .unlimited (show [0, 512, 1024].Nodup by decide) (by decide)
  obtain ⟨reset, _, hreset, harm, armed, rfl, huntouched, harmed⟩ :=
    run_prepareTransfer hrest .unlimited (Bytes.filled 2048 0)
  obtain ⟨next, hnext⟩ : ∃ next : Device, next = { device with engine := armed } := ⟨_, rfl⟩
  have hchanged : next.engine = armed ∧ next.latches = device.latches ∧ next.flash = device.flash :=
    hnext ▸ ⟨rfl, rfl, rfl⟩
  obtain ⟨hengine, hlatches, hflash⟩ := hchanged
  rw [← hengine] at harmed huntouched
  rw [← hlatches] at hdelivers
  have hfound : next.found.map (fun report => (report.field, report.errors.length)) =
      [(1, 1), (2, 1), (3, 1)] := by
    rw [found_eq_damage harmed hfits hdelivers, hflash]
    exact hreports.trans (by decide)
  -- One error is less than the code can correct.
  have hgood : ∀ report ∈ next.found, report.errors.length ≤ 8 := fun report hreport => by
    have hmem := List.mem_map_of_mem (f := fun report : DamageReport =>
      (report.field, report.errors.length)) hreport
    rw [hfound] at hmem
    have hones : ∀ counted ∈ [(1, 1), (2, 1), (3, 1)], counted.2 ≤ 8 := by decide
    exact hones _ hmem
  have hrunning : next.engine.hang = false := huntouched.hang_eq.trans hhang
  exact ⟨next, reachable_of_prepareTransfer hreachable hreset (hnext ▸ harm), hrunning, hfound,
    exists_runRead_repairable harmed hfits hdelivers hrunning (Bytes.size_filled _ _) hgood 0 ⟨3, 1⟩⟩

/-- The read of that page corrects three times. -/
theorem read_ends_by_itself_three_reports : ∃ device : Device, device.Reachable ∧
    device.engine.hang = false ∧
    device.found.map (fun report => (report.field, report.errors.length)) =
      [(1, 1), (2, 1), (3, 1)] ∧ ∃ reports last calls,
      (Reading.runRead .unlimited ⟨.p2048, 64, .t8, rfl⟩ 0).run.run
        ⟨⟨.armed, device⟩, Bytes.filled 2048 0, ⟨3, 1⟩, []⟩ = .ok (.ok reports, last) ∧
      (Conduct.recording.runRead .unlimited ⟨.p2048, 64, .t8, rfl⟩ 0).run.run
        (⟨⟨.armed, device⟩, Bytes.filled 2048 0, ⟨3, 1⟩, []⟩, []) =
          .ok (.ok reports, (last, calls)) ∧
      calls.length = 3 := by
  obtain ⟨device, hreachable, hhang, hfound, last, hread⟩ := exists_three_reports
  have hlength : device.found.length = 3 := by
    have hlength := congrArg List.length hfound
    rwa [List.length_map] at hlength
  obtain ⟨-, -, outcome, last', calls, -, -, -, hplain, -, hrun, hmost, hleast, -⟩ :=
    read_ends_by_itself hreachable hhang ⟨.p2048, 64, .t8, rfl⟩ 0 (Bytes.filled 2048 0) ⟨3, 1⟩
  obtain ⟨rfl, rfl⟩ := Prod.mk.inj (Except.ok.inj (hread.symm.trans hplain))
  obtain ⟨-, -, hleast, -⟩ := hleast _ rfl
  rw [hlength] at hmost hleast
  exact ⟨device, hreachable, hhang, hfound, _, last, calls, hread, hrun,
    Nat.le_antisymm hmost hleast⟩

end Device

end Sim

end NandFlash
