import NandFlash.Proofs.AnyBus.Recording
import NandFlash.Proofs.AnyBus.Session
import NandFlash.Proofs.Sim.Unconditional

/-!
# The order of the steps

The calls that a transfer engine takes from outside, the single steps as well as the complete
transfers. A call is accepted in the states it belongs to and refused in all others; an accepted
call takes the engine one move further around the circle of its states, unless it takes too long;
a complete transfer goes all the way around.
-/

namespace NandFlash

variable {α β : Type}

/-! ## Calls -/

/-- A call to the transfer engine. -/
inductive DmaCall where
  | reset
  | arm (setup : TransferSetup) (data : Bytes)
  | runWrite (data : Bytes)
  | runRead (g : Geometry) (page : Nat) (data : Bytes)
  | finish
  | write (setup : TransferSetup) (data : Bytes)
  | read (setup : TransferSetup) (g : Geometry) (page : Nat) (data : Bytes)

/-- What a call comes to. Only reads have repairs to report. -/
structure DmaReply where
  outcome : Except Error (List FieldReport)
  /-- The buffer of the call, as it is afterwards. -/
  data : Bytes

/-- The engine in use, and the statistics that reads are booked in. -/
structure DmaSession (β : Type) where
  channel : Channel β
  stats : EccStats

/-- The moves from one call to the next. -/
inductive DmaState.Moves : DmaState → DmaState → Prop
  | reset : Moves .idle .resetRequested
  | arm : Moves .resetRequested .armed
  | complete : Moves .armed .completed
  | abort : Moves .armed .aborted
  | finish : Moves .completed .idle
  | finish_aborted : Moves .aborted .idle

namespace DmaReply

/-- A wait of the call was given up. -/
def TimedOut (reply : DmaReply) : Prop := ∃ awaited, reply.outcome = .error (.timeout awaited)

end DmaReply

namespace DmaCall

/-- The buffer that a call brings along. -/
def data : DmaCall → Bytes
  | reset | finish => #[]
  | arm _ data | runWrite data | runRead _ _ data | write _ data | read _ _ _ data => data

/-- The state that a call belongs to, as a refusal names it. -/
def expected : DmaCall → DmaState
  | reset | write _ _ | read _ _ _ _ => .idle
  | arm _ _ => .resetRequested
  | runWrite _ | runRead _ _ _ => .armed
  | finish => .completed

/-- The states that a call is accepted in. -/
def Accepts (call : DmaCall) (state : DmaState) : Prop :=
  state = call.expected ∨ call = .finish ∧ state = .aborted

/-- A step that has nothing to report. -/
def silent (step : Attempt Error (Channel β) Unit) :
    Attempt Error (Reading β) (List FieldReport) := do
  Reading.tryOnChannel step
  return []

variable [Bus β]

/-- A call, on the channel and the buffer it works with. -/
def steps (poll : Poll) : DmaCall → Attempt Error (Reading β) (List FieldReport)
  | reset => silent (Channel.reset poll)
  | arm setup data => silent (Channel.arm setup data)
  | runWrite data => silent (Channel.runWrite poll data)
  | runRead g page _ => Reading.runRead poll g page
  | finish => silent Channel.finish
  | write setup data => silent (Channel.write poll setup data)
  | read setup g page _ => Reading.read poll setup g page

/-- Carry out a call. -/
def serve (poll : Poll) (call : DmaCall) : Action (DmaSession β) DmaReply :=
  fun ⟨channel, stats⟩ => do
    let (outcome, reading) ← (call.steps poll).run ⟨channel, call.data, stats, []⟩
    return (⟨outcome, reading.data⟩, ⟨reading.channel, reading.stats⟩)

/-! ## Runs of a call -/

omit [Bus β] in
theorem run_silent (step : Attempt Error (Channel β) Unit) (reading : Reading β) :
    (silent step).run.run reading = (step.run.run reading.channel).map fun (r, channel) =>
      (r.map fun _ => [], { reading with channel }) := by
  rw [silent, ExceptT.run_bind, StateT.run_bind, Reading.run_tryOnChannel]
  rcases step.run.run reading.channel with _ | ⟨_ | _, _⟩ <;> rfl

theorem run_serve {poll : Poll} (call : DmaCall) {session : DmaSession β} {reading : Reading β}
    {outcome : Except Error (List FieldReport)}
    (h : (call.steps poll).run.run ⟨session.channel, call.data, session.stats, []⟩ =
      .ok (outcome, reading)) :
    (call.serve poll).run session =
      .ok (⟨outcome, reading.data⟩, ⟨reading.channel, reading.stats⟩) := by
  show ((call.steps poll).run.run ⟨session.channel, call.data, session.stats, []⟩ >>=
    fun _ => _) = _
  rw [h]
  rfl

/-! ## Refusals -/

theorem run_steps_of_not_accepts {poll : Poll} {call : DmaCall} {reading : Reading β}
    (h : ¬call.Accepts reading.channel.state) :
    (call.steps poll).run.run reading =
      .ok (.error (.dmaState call.expected reading.channel.state), reading) := by
  obtain ⟨channel, data, stats, reports⟩ := reading
  have hne : channel.state ≠ call.expected := fun heq => h (.inl heq)
  have hchannel : ∀ {γ : Type} {rest : Unit → Attempt Error (Channel β) γ},
      (Channel.expect call.expected >>= rest).run.run channel =
        .ok (.error (.dmaState call.expected channel.state), channel) :=
    run_attempt_bind_error (Channel.run_expect_of_ne hne)
  have hreading : (Reading.tryOnChannel (Channel.expect call.expected)).run.run
      ⟨channel, data, stats, reports⟩ = .ok (.error (.dmaState call.expected channel.state),
        ⟨channel, data, stats, reports⟩) := by
    rw [Reading.run_tryOnChannel, Channel.run_expect_of_ne hne, endIn_ok]
  -- Each call looks at the state first; finishing accepts two states and names one.
  cases call with
  | reset | arm setup data | runWrite data | write setup data =>
    rw [steps, run_silent]
    exact congrArg _ hchannel
  | finish =>
    rw [steps, run_silent, Channel.run_finish]
    have habort : channel.state ≠ .aborted := fun heq => h (.inr ⟨rfl, heq⟩)
    cases hstate : channel.state with
    | completed => exact absurd hstate hne
    | aborted => exact absurd hstate habort
    | idle | resetRequested | armed | running => rfl
  | runRead g page data | read setup g page data => exact run_attempt_bind_error hreading

/-- A call in a state that it does not belong to is refused. Nothing has happened then; the bus,
of which nothing is asked here, has not been accessed. -/
theorem run_serve_of_not_accepts {poll : Poll} {call : DmaCall} {session : DmaSession β}
    (h : ¬call.Accepts session.channel.state) :
    (call.serve poll).run session =
      .ok (⟨.error (.dmaState call.expected session.channel.state), call.data⟩, session) :=
  run_serve call (run_steps_of_not_accepts h)

/-! ## Accepted calls -/

omit [Bus β]

/-- The two calls that make a complete transfer. -/
def IsTransfer : DmaCall → Prop
  | write _ _ | read _ _ _ _ => True
  | reset | arm _ _ | runWrite _ | runRead _ _ _ | finish => False

/-- Where an accepted call leaves the engine. -/
def leaves : DmaCall → Except Error (List FieldReport) → DmaState
  | reset, _ => .resetRequested
  | arm _ _, _ => .armed
  | runWrite _, .ok _ | runRead _ _ _, .ok _ => .completed
  | runRead _ _ _, .error (.uncorrectable _ _) => .aborted
  | runWrite _, .error _ | runRead _ _ _, .error _ => .running
  | finish, _ | write _ _, _ | read _ _ _ _, _ => .idle

/-- However a complete transfer goes, it leaves the engine idle. -/
theorem leaves_eq_idle {call : DmaCall} (h : call.IsTransfer)
    (outcome : Except Error (List FieldReport)) : call.leaves outcome = .idle := by
  cases call with
  | write setup data | read setup g page data => rfl
  | reset | arm setup data | runWrite data | runRead g page data | finish => exact h.elim

/-- The errors that an accepted call can come to. -/
def Fails : DmaCall → Error → Prop
  | reset, e | runWrite _, e | write _ _, e => e.IsTimeout
  | arm _ _, _ | finish, _ => False
  | runRead _ page _, e | read _ _ page _, e => Reading.IsFailure page e

/-- The end of an accepted call. -/
structure Leaves (inv ended : β → Prop) (call : DmaCall) (outcome : Except Error (List FieldReport))
    (channel : Channel β) : Prop where
  state_eq : channel.state = call.leaves outcome
  keeps : inv channel.bus
  ended : call.IsTransfer → ended channel.bus
  fails : ∀ e, outcome = .error e → call.Fails e

section

variable {clock : β → Nat} {inv ended : β → Prop} {k n limit : Nat} {poll : Poll}

theorem within_silent {step : Attempt Error (Channel β) Unit} {pre : Channel β → Prop}
    {mid : Except Error Unit → Channel β → Prop}
    {post : Except Error (List FieldReport) → Channel β → Prop}
    (h : Within (Channel.ticks clock) k pre step.run mid)
    (hpost : ∀ r channel, mid r channel → post (r.map fun _ => []) channel) :
    Within (Reading.ticks clock) k (Reading.With n pre) (silent step).run
      fun outcome => Reading.With n (post outcome) := by
  intro reading hreading
  obtain ⟨r, channel, hrun, hclock, hmid⟩ := h reading.channel hreading.channel
  refine ⟨r.map fun _ => [], { reading with channel }, ?_, hclock, hpost r channel hmid,
    hreading.size_eq⟩
  rw [run_silent, hrun]
  rfl

/-- What a channel is left like by a step that has nothing to report. -/
theorem leaves_of_ending {call : DmaCall} (hstep : ¬call.IsTransfer) {fail : Error → Prop}
    {done failed : DmaState} (hdone : ∀ reports, call.leaves (.ok reports) = done)
    (hfailed : ∀ e, fail e → call.leaves (.error e) = failed ∧ call.Fails e)
    {r : Except Error Unit} {channel : Channel β}
    (h : Ending (fun _ => Channel.At inv done)
      (fun e channel => Channel.At inv failed channel ∧ fail e) r channel) :
    call.Leaves inv ended (r.map fun _ => []) channel := by
  cases r with
  | ok a => exact ⟨h.state_eq.trans (hdone _).symm, h.bus, fun ht => absurd ht hstep, nofun⟩
  | error e =>
    obtain ⟨hchannel, he⟩ := h
    refine ⟨hchannel.state_eq.trans (hfailed e he).1.symm, hchannel.bus,
      fun ht => absurd ht hstep, ?_⟩
    rintro _ ⟨⟩
    exact (hfailed e he).2

/-- What a channel is left like by the step that reads. -/
theorem leaves_of_runRead {g : Geometry} {page : Nat} {data : Bytes}
    {outcome : Except Error (List FieldReport)} {channel : Channel β}
    (h : Ending (fun _ => Channel.At inv .completed) (fun e channel =>
      Channel.At inv .running channel ∧ e.IsTimeout ∨
        Channel.At inv .aborted channel ∧ e.IsLossOf page) outcome channel) :
    (runRead g page data).Leaves inv ended outcome channel := by
  cases outcome with
  | ok reports => exact ⟨h.state_eq, h.bus, nofun, nofun⟩
  | error e =>
    obtain ⟨hchannel, awaited, rfl⟩ | ⟨hchannel, field, rfl⟩ := h
    · refine ⟨hchannel.state_eq, hchannel.bus, nofun, ?_⟩
      rintro _ ⟨⟩
      exact .inl ⟨awaited, rfl⟩
    · refine ⟨hchannel.state_eq, hchannel.bus, nofun, ?_⟩
      rintro _ ⟨⟩
      exact .inr ⟨field, rfl⟩

/-- What a channel is left like by a complete transfer, however it has gone. -/
theorem leaves_of_transfer (call : DmaCall) (htransfer : call.IsTransfer)
    (hended : ∀ bus, ended bus → inv bus) {outcome : Except Error (List FieldReport)}
    {channel : Channel β} (hchannel : channel.At ended .idle)
    (hfails : ∀ e, outcome = .error e → call.Fails e) :
    call.Leaves inv ended outcome channel :=
  ⟨hchannel.state_eq.trans (leaves_eq_idle htransfer outcome).symm, hended _ hchannel.bus,
    fun _ => hchannel.bus, hfails⟩

variable [Bus β] (h : Bus.Serves clock inv) (hsettles : Channel.Settles clock inv ended)
  (hended : ∀ bus, ended bus → inv bus) (hpoll : poll.Reaches limit)

include h hsettles hended hpoll

theorem within_steps {call : DmaCall} {state : DmaState} (haccepts : call.Accepts state) :
    Within (Reading.ticks clock) (1084 * limit + 1111)
      (Reading.With n (Channel.At inv state)) (call.steps poll).run
      fun outcome => Reading.With n (call.Leaves inv ended outcome) := by
  cases call with
  | reset =>
    obtain rfl | ⟨⟨⟩, -⟩ := haccepts
    refine (within_silent (Channel.within_reset h hpoll) fun r channel hend => ?_).le (by omega)
    exact leaves_of_ending id (fun _ => rfl) (fun _ he => ⟨rfl, he.isTimeout⟩) hend
  | arm setup data =>
    obtain rfl | ⟨⟨⟩, -⟩ := haccepts
    have harm : Within (Channel.ticks clock) 17 (Channel.At inv .resetRequested)
        (Channel.arm setup data).run (Ending (fun _ => Channel.At inv .armed) fun e channel =>
          Channel.At inv .armed channel ∧ False) :=
      (Channel.within_arm h setup data).attempt_mono (fun _ _ h => h) fun _ _ h => h.elim
    refine (within_silent harm fun r channel hend => ?_).le (by omega)
    exact leaves_of_ending id (fun _ => rfl) (fun _ he => he.elim) hend
  | runWrite data =>
    obtain rfl | ⟨⟨⟩, -⟩ := haccepts
    refine (within_silent (Channel.within_runWrite h hpoll data) fun r channel hend => ?_).le
      (by omega)
    exact leaves_of_ending id (fun _ => rfl) (fun _ he => ⟨rfl, he.isTimeout⟩) hend
  | finish =>
    have hstate : state = .completed ∨ state = .aborted := haccepts.imp_right And.right
    have hfinish : Within (Channel.ticks clock) 1 (Channel.At inv state) Channel.finish.run
        (Ending (fun _ => Channel.At inv .idle) fun e channel =>
          Channel.At inv .idle channel ∧ False) :=
      (Channel.within_finish h hstate).attempt_mono
        (fun _ _ hchannel => ⟨hchannel.state_eq, hchannel.bus.keeps⟩) fun _ _ h => h.elim
    refine (within_silent hfinish fun r channel hend => ?_).le (by omega)
    exact leaves_of_ending id (fun _ => rfl) (fun _ he => he.elim) hend
  | runRead g page data =>
    obtain rfl | ⟨⟨⟩, -⟩ := haccepts
    refine (Reading.within_runRead h hpoll g page).mono (by omega) (fun _ h => h)
      fun outcome reading hend => ?_
    cases outcome with
    | ok reports => exact ⟨leaves_of_runRead hend.channel, hend.size_eq⟩
    | error e =>
      rcases hend with ⟨⟨hchannel, hsize⟩, he⟩ | ⟨⟨hchannel, hsize⟩, he⟩
      · exact ⟨leaves_of_runRead (.inl ⟨hchannel, he⟩), hsize⟩
      · exact ⟨leaves_of_runRead (.inr ⟨hchannel, he⟩), hsize⟩
  | write setup data =>
    obtain rfl | ⟨⟨⟩, -⟩ := haccepts
    refine (within_silent (Channel.within_write h hsettles hpoll setup data)
      fun r channel hend => ?_).le (by omega)
    obtain ⟨hchannel, hr⟩ := hend
    refine leaves_of_transfer (write setup data) trivial hended hchannel fun e he => ?_
    cases r with
    | ok _ => cases he
    | error _ =>
      cases he
      exact hr.isTimeout
  | read setup g page data =>
    obtain rfl | ⟨⟨⟩, -⟩ := haccepts
    refine (Reading.within_read h hsettles hpoll setup g page).mono (by omega) (fun _ h => h)
      fun outcome reading hend => ?_
    obtain ⟨⟨hchannel, hsize⟩, houtcome⟩ := hend
    refine ⟨leaves_of_transfer (read setup g page data) trivial hended hchannel ?_, hsize⟩
    rintro e rfl
    exact houtcome

end

/-! ## Around the circle -/

/-- The single steps that a call stands for. -/
def stages : DmaCall → List DmaCall
  | write setup data => [reset, arm setup data, runWrite data, finish]
  | read setup g page data => [reset, arm setup data, runRead g page data, finish]
  | reset => [reset]
  | arm setup data => [arm setup data]
  | runWrite data => [runWrite data]
  | runRead g page data => [runRead g page data]
  | finish => [finish]

end DmaCall

/-- Calls that take the engine one move further each. -/
inductive Walk [Bus β] (poll : Poll) :
    DmaSession β → List DmaCall → List DmaReply → DmaSession β → Prop
  | stay (session : DmaSession β) : Walk poll session [] [] session
  | step {session next last : DmaSession β} {call : DmaCall} {reply : DmaReply}
    {calls : List DmaCall} {replies : List DmaReply}
    (hrun : (call.serve poll).run session = .ok (reply, next))
    (hmove : session.channel.state.Moves next.channel.state)
    (hrest : Walk poll next calls replies last) :
    Walk poll session (call :: calls) (reply :: replies) last

namespace DmaCall

/-- Short of a wait that is given up, an accepted step makes a move. -/
theorem moves_leaves {call : DmaCall} {state : DmaState}
    {outcome : Except Error (List FieldReport)} (hstep : ¬call.IsTransfer)
    (haccepts : call.Accepts state) (hfails : ∀ e, outcome = .error e → call.Fails e)
    (hintime : ∀ awaited, outcome ≠ .error (.timeout awaited)) :
    state.Moves (call.leaves outcome) := by
  -- One move for each step, and two ways out of the step that reads.
  cases call with
  | reset =>
    obtain rfl | ⟨⟨⟩, -⟩ := haccepts
    exact .reset
  | arm setup data =>
    obtain rfl | ⟨⟨⟩, -⟩ := haccepts
    exact .arm
  | runWrite data =>
    obtain rfl | ⟨⟨⟩, -⟩ := haccepts
    cases outcome with
    | ok reports => exact .complete
    | error e =>
      obtain ⟨awaited, rfl⟩ := hfails e rfl
      exact absurd rfl (hintime awaited)
  | runRead g page data =>
    obtain rfl | ⟨⟨⟩, -⟩ := haccepts
    cases outcome with
    | ok reports => exact .complete
    | error e =>
      obtain ⟨awaited, rfl⟩ | ⟨field, rfl⟩ := hfails e rfl
      · exact absurd rfl (hintime awaited)
      · exact .abort
  | finish =>
    obtain rfl | ⟨-, rfl⟩ := haccepts
    · exact .finish
    · exact .finish_aborted
  | write setup data | read setup g page data => exact absurd trivial hstep

section

variable {clock : β → Nat} {inv ended : β → Prop} {limit : Nat} {poll : Poll} [Bus β]

theorem run_serve_silent (call : DmaCall) {step : Attempt Error (Channel β) Unit}
    {session : DmaSession β} {r : Except Error Unit} {channel : Channel β}
    (hsteps : call.steps poll = silent step)
    (hrun : step.run.run session.channel = .ok (r, channel)) :
    (call.serve poll).run session =
      .ok (⟨r.map fun _ => [], call.data⟩, ⟨channel, session.stats⟩) := by
  have hcall : (call.steps poll).run.run ⟨session.channel, call.data, session.stats, []⟩ =
      .ok (r.map fun _ => [], ⟨channel, call.data, session.stats, []⟩) := by
    rw [hsteps, run_silent, hrun]
    rfl
  exact run_serve call hcall

/-- A transfer that has come to its end is settled by finishing it. -/
theorem run_finish_of_settle {channel next : Channel β} {state : DmaState}
    (hstate : DmaState.Moves .armed state) (hchannel : channel.state = state)
    (hsettle : Channel.settle.run channel = .ok ((), next)) :
    Channel.finish.run.run channel = .ok (.ok (), next) := by
  rw [Channel.run_settle, hchannel] at hsettle
  rw [Channel.run_finish, hchannel]
  cases hstate <;> exact run_perform hsettle

omit [Bus β] in
/-- Once it has been run, a transfer can be finished. -/
theorem moves_idle {state : DmaState} (h : DmaState.Moves .armed state) : state.Moves .idle := by
  cases h with
  | complete => exact .finish
  | abort => exact .finish_aborted

/-- Once around the circle. -/
theorem walk_around {s₀ s₁ s₂ s₃ s₄ : DmaSession β} {r₁ r₂ r₃ r₄ : DmaReply}
    {setup : TransferSetup} {data : Bytes} {run : DmaCall}
    (hreset : (reset.serve poll).run s₀ = .ok (r₁, s₁))
    (harm : ((arm setup data).serve poll).run s₁ = .ok (r₂, s₂))
    (hrun : (run.serve poll).run s₂ = .ok (r₃, s₃))
    (hfinish : (finish.serve poll).run s₃ = .ok (r₄, s₄))
    (h₀ : s₀.channel.state = .idle) (h₁ : s₁.channel.state = .resetRequested)
    (h₂ : s₂.channel.state = .armed) (h₃ : DmaState.Moves .armed s₃.channel.state)
    (h₄ : s₄.channel.state = .idle) :
    Walk poll s₀ [reset, arm setup data, run, finish] [r₁, r₂, r₃, r₄] s₄ := by
  refine .step hreset ?_ <| .step harm ?_ <| .step hrun ?_ <| .step hfinish ?_ <| .stay s₄
  · rw [h₀, h₁]
    exact .reset
  · rw [h₁, h₂]
    exact .arm
  · rw [h₂]
    exact h₃
  · rw [h₄]
    exact moves_idle h₃

/-- How a session goes on after a transfer in it: the transfer has taken too long, or its stages
make up a walk. -/
def Walked (poll : Poll) (call : DmaCall) (session : DmaSession β) (reply : DmaReply)
    (after : DmaSession β) : Prop :=
  reply.TimedOut ∨ ∃ replies, Walk poll session call.stages replies after ∧ reply ∈ replies

variable (h : Bus.Serves clock inv) (hsettles : Channel.Settles clock inv ended)
  (hpoll : poll.Reaches limit)

include h hpoll

/-- The way into a transfer. Either the reset runs out of time, or the engine is set up for it:
setting up cannot fail. -/
theorem exists_armed {channel : Channel β} (hidle : channel.At inv .idle) (setup : TransferSetup)
    (data : Bytes) :
    (∃ awaited next, (Channel.reset poll).run.run channel =
        .ok (.error (.timeout awaited), next) ∧ next.At inv .resetRequested) ∨
    ∃ mid next, (Channel.reset poll).run.run channel = .ok (.ok (), mid) ∧
      mid.At inv .resetRequested ∧ (Channel.arm setup data).run.run mid = .ok (.ok (), next) ∧
      next.At inv .armed := by
  obtain ⟨r₁, mid, hreset, -, hmid⟩ := Channel.within_reset h hpoll channel hidle
  cases r₁ with
  | error e =>
    obtain ⟨hmid, awaited, -, rfl⟩ := hmid
    exact .inl ⟨awaited, mid, hreset, hmid⟩
  | ok =>
    obtain ⟨r₂, next, harm, -, hnext⟩ := Channel.within_arm h setup data mid hmid
    cases r₂ with
    | error e => exact hnext.elim
    | ok => exact .inr ⟨mid, next, hreset, hmid, harm, hnext⟩

include hsettles

theorem walked_write {session : DmaSession β} (hidle : session.channel.At inv .idle)
    (setup : TransferSetup) (data : Bytes) :
    ∃ reply after, ((write setup data).serve poll).run session = .ok (reply, after) ∧
      (write setup data).Walked poll session reply after := by
  have hserve : ∀ {r c next}, (Channel.writeSteps poll setup data).run.run session.channel =
      .ok (r, c) → Channel.settle.run c = .ok ((), next) →
      ((write setup data).serve poll).run session =
        .ok (⟨r.map fun _ => [], data⟩, ⟨next, session.stats⟩) := by
    intro r c next hsteps hsettle
    refine run_serve_silent (write setup data) rfl ?_
    rw [Channel.write, run_attempt_bind (Channel.run_expect_self hidle.state_eq)]
    exact run_step hsteps (run_step hsettle rfl)
  obtain ⟨awaited, c₁, hreset, h₁⟩ | ⟨c₁, c₂, hreset, h₁, harm, h₂⟩ :=
    exists_armed h hpoll hidle setup data
  · -- Settling leads back to idle from anywhere.
    obtain ⟨_, next, hsettle, -⟩ := hsettles c₁ (h₁.unsettled (by decide))
    exact ⟨_, _, hserve (run_attempt_bind_error hreset) hsettle, .inl ⟨awaited, rfl⟩⟩
  obtain ⟨r₃, c₃, hrun, -, h₃⟩ := Channel.within_runWrite h hpoll data c₂ h₂
  have hsteps : (Channel.writeSteps poll setup data).run.run session.channel = .ok (r₃, c₃) := by
    rw [Channel.writeSteps, run_attempt_bind hreset, run_attempt_bind harm, hrun]
  cases r₃ with
  | error e =>
    obtain ⟨hc₃, awaited, -, rfl⟩ := h₃
    obtain ⟨_, next, hsettle, -⟩ := hsettles c₃ (hc₃.unsettled (by decide))
    exact ⟨_, _, hserve hsteps hsettle, .inl ⟨awaited, rfl⟩⟩
  | ok =>
    obtain ⟨_, next, hsettle, -, hnext⟩ := hsettles c₃ (h₃.unsettled (by decide))
    -- All steps have gone through, so the call is the walk around the circle.
    have hfinish := run_finish_of_settle .complete h₃.state_eq hsettle
    have hmove : DmaState.Moves .armed c₃.state := h₃.state_eq ▸ .complete
    have hwalk := walk_around (run_serve_silent reset rfl hreset)
      (run_serve_silent (arm setup data) rfl harm)
      (run_serve_silent (runWrite data) rfl hrun) (run_serve_silent finish rfl hfinish)
      hidle.state_eq h₁.state_eq h₂.state_eq hmove hnext.state_eq
    exact ⟨_, _, hserve hsteps hsettle, .inr ⟨_, hwalk, .tail _ (.tail _ (.head _))⟩⟩

theorem walked_read {session : DmaSession β} (hidle : session.channel.At inv .idle)
    (setup : TransferSetup) (g : Geometry) (page : Nat) (data : Bytes) :
    ∃ reply after, ((read setup g page data).serve poll).run session = .ok (reply, after) ∧
      (read setup g page data).Walked poll session reply after := by
  have hserve : ∀ {r mid next}, (Reading.readSteps poll setup g page).run.run
      ⟨session.channel, data, session.stats, []⟩ = .ok (r, mid) →
      Channel.settle.run mid.channel = .ok ((), next) →
      ((read setup g page data).serve poll).run session =
        .ok (⟨r, mid.data⟩, ⟨next, mid.stats⟩) := by
    intro r mid next hsteps hsettle
    have hread : (Reading.read poll setup g page).run.run
        ⟨session.channel, data, session.stats, []⟩ = .ok (r, { mid with channel := next }) := by
      rw [Reading.read, run_attempt_bind (Reading.run_tryOnChannel_ok
        (Channel.run_expect_self hidle.state_eq) _ _ _)]
      exact run_step hsteps (run_step (Reading.run_onChannel_ok hsettle _ _ _) rfl)
    exact run_serve (read setup g page data) hread
  obtain ⟨awaited, c₁, hreset, h₁⟩ | ⟨c₁, c₂, hreset, h₁, harm, h₂⟩ :=
    exists_armed h hpoll hidle setup data
  · obtain ⟨_, next, hsettle, -⟩ := hsettles c₁ (h₁.unsettled (by decide))
    have hreset' := Reading.run_tryOnChannel_ok hreset data session.stats []
    exact ⟨_, _, hserve (run_attempt_bind_error hreset') hsettle, .inl ⟨awaited, rfl⟩⟩
  obtain ⟨r₃, mid, hrun, -, h₃⟩ := Reading.within_runRead h hpoll g page
    ⟨c₂, data, session.stats, []⟩ ⟨h₂, rfl⟩
  have hsteps : (Reading.readSteps poll setup g page).run.run
      ⟨session.channel, data, session.stats, []⟩ = .ok (r₃, mid) := by
    rw [Reading.readSteps, run_attempt_bind (Reading.run_tryOnChannel_ok hreset _ _ _)]
    exact run_attempt_step rfl
      (run_attempt_step (Reading.run_tryOnChannel_ok harm _ _ _) hrun)
  -- A page that is given up leaves the circle by its other way; only a timeout drops out of it.
  have hend : ∃ state, mid.channel.At inv state ∧
      (DmaState.Moves .armed state ∨
        state ≠ .idle ∧ ∃ awaited, r₃ = .error (.timeout awaited)) := by
    cases r₃ with
    | ok reports => exact ⟨_, h₃.channel, .inl .complete⟩
    | error e =>
      obtain ⟨hmid, awaited, rfl⟩ | ⟨hmid, -⟩ := h₃
      · exact ⟨_, hmid.channel, .inr ⟨by decide, awaited, rfl⟩⟩
      · exact ⟨_, hmid.channel, .inl .abort⟩
  obtain ⟨state, hmid, hmove | ⟨hne, awaited, rfl⟩⟩ := hend
  · have hne : state ≠ .idle := by
      rintro rfl
      cases hmove
    obtain ⟨_, next, hsettle, -, hnext⟩ := hsettles mid.channel (hmid.unsettled hne)
    have hfinish := run_finish_of_settle hmove hmid.state_eq hsettle
    have hwalk := walk_around (run_serve_silent reset rfl hreset)
      (run_serve_silent (arm setup data) rfl harm) (run_serve (runRead g page data) hrun)
      (run_serve_silent finish rfl hfinish)
      hidle.state_eq h₁.state_eq h₂.state_eq (hmid.state_eq ▸ hmove) hnext.state_eq
    exact ⟨_, _, hserve hsteps hsettle, .inr ⟨_, hwalk, .tail _ (.tail _ (.head _))⟩⟩
  · obtain ⟨_, next, hsettle, -⟩ := hsettles mid.channel (hmid.unsettled hne)
    exact ⟨_, _, hserve hsteps hsettle, .inl ⟨awaited, rfl⟩⟩

end

/-! ## One call -/

/-- What a call does, from a session before it to the one after it. Refused, it does nothing.
Accepted, it makes the moves that it stands for unless it takes too long; the engine is aborted
exactly after a page has been lost in the step that reads; and a complete transfer leaves the engine
idle, however it has gone, with a bus that satisfies `ended`. -/
structure Conducts [Bus β] (poll : Poll) (ended : β → Prop) (call : DmaCall)
    (before : DmaSession β) (reply : DmaReply) (after : DmaSession β) : Prop where
  refused : ¬call.Accepts before.channel.state →
    reply = ⟨.error (.dmaState call.expected before.channel.state), call.data⟩ ∧ after = before
  accepted : call.Accepts before.channel.state →
    ∀ expected found, reply.outcome ≠ .error (.dmaState expected found)
  size_eq : reply.data.size = call.data.size
  walked : call.Accepts before.channel.state → call.Walked poll before reply after
  aborted_iff : call.Accepts before.channel.state →
    (after.channel.state = .aborted ↔ ∃ g page data field, call = .runRead g page data ∧
      reply.outcome = .error (.uncorrectable page field))
  settled : call.Accepts before.channel.state → call.IsTransfer →
    after.channel.state = .idle ∧ ended after.channel.bus

/-- An accepted call is not refused. -/
theorem not_fails_dmaState (call : DmaCall) (expected found : DmaState) :
    ¬call.Fails (.dmaState expected found) := by
  cases call with
  | reset | runWrite data | write setup data => exact nofun
  | arm setup data | finish => exact id
  | runRead g page data | read setup g page data => exact nofun

/-- The engine is aborted by a page that is lost in the step that reads, and by nothing else. -/
theorem leaves_eq_aborted_iff {call : DmaCall} {outcome : Except Error (List FieldReport)}
    (hfails : ∀ e, outcome = .error e → call.Fails e) :
    call.leaves outcome = .aborted ↔ ∃ g page data field, call = .runRead g page data ∧
      outcome = .error (.uncorrectable page field) := by
  constructor
  · intro habort
    cases call with
    | runRead g page data =>
      cases outcome with
      | ok reports => cases habort
      | error e =>
        obtain ⟨awaited, rfl⟩ | ⟨field, rfl⟩ := hfails e rfl
        · cases habort
        · exact ⟨g, page, data, field, rfl, rfl⟩
    | runWrite data => cases outcome <;> cases habort
    | reset | arm setup data | finish | write setup data | read setup g page data => cases habort
  · rintro ⟨g, page, data, field, rfl, rfl⟩
    rfl

section

variable {clock : β → Nat} {inv ended : β → Prop} {limit : Nat} {poll : Poll} [Bus β]
  (h : Bus.Serves clock inv) (hsettles : Channel.Settles clock inv ended)
  (hpoll : poll.Reaches limit)

include h hsettles hpoll

theorem walked {call : DmaCall} {session after : DmaSession β} {reply : DmaReply}
    (haccepts : call.Accepts session.channel.state) (hbus : inv session.channel.bus)
    (hrun : (call.serve poll).run session = .ok (reply, after))
    (hafter : call.Leaves inv ended reply.outcome after.channel) :
    call.Walked poll session reply after := by
  have hmoves : ¬call.IsTransfer → ¬reply.TimedOut →
      session.channel.state.Moves after.channel.state := by
    intro hstep hintime
    rw [hafter.state_eq]
    exact moves_leaves hstep haccepts hafter.fails fun awaited h => hintime ⟨awaited, h⟩
  -- A timeout is one of the two ways; the rest is in time.
  by_cases hintime : reply.TimedOut
  · exact .inl hintime
  cases call with
  | write setup data =>
    obtain hidle | ⟨⟨⟩, -⟩ := haccepts
    obtain ⟨_, _, hrun', hwalked⟩ := walked_write h hsettles hpoll ⟨hidle, hbus⟩ setup data
    rw [hrun] at hrun'
    cases hrun'
    exact hwalked
  | read setup g page data =>
    obtain hidle | ⟨⟨⟩, -⟩ := haccepts
    obtain ⟨_, _, hrun', hwalked⟩ :=
      walked_read h hsettles hpoll ⟨hidle, hbus⟩ setup g page data
    rw [hrun] at hrun'
    cases hrun'
    exact hwalked
  | reset | arm setup data | runWrite data | runRead g page data | finish =>
    exact .inr ⟨[reply], .step hrun (hmoves id hintime) (.stay after), .head _⟩

/-- Every call is answered. -/
theorem exists_serve (hended : ∀ bus, ended bus → inv bus) (call : DmaCall)
    (session : DmaSession β) (hbus : inv session.channel.bus) :
    ∃ reply after, (call.serve poll).run session = .ok (reply, after) ∧
      call.Conducts poll ended session reply after ∧ inv after.channel.bus := by
  by_cases haccepts : call.Accepts session.channel.state
  · obtain ⟨outcome, reading, hsteps, -, hleaves, hsize⟩ := within_steps h hsettles hended hpoll
      haccepts ⟨session.channel, call.data, session.stats, []⟩ ⟨⟨rfl, hbus⟩, rfl⟩
    have hrun := run_serve call hsteps
    refine ⟨_, _, hrun, ⟨fun hrefused => absurd haccepts hrefused, fun _ => ?_, hsize, fun _ => ?_,
      fun _ => ?_, fun _ htransfer => ⟨?_, hleaves.ended htransfer⟩⟩, hleaves.keeps⟩
    · exact fun expected found he => not_fails_dmaState call expected found (hleaves.fails _ he)
    · exact walked h hsettles hpoll haccepts hbus hrun hleaves
    · rw [hleaves.state_eq]
      exact leaves_eq_aborted_iff hleaves.fails
    · rw [hleaves.state_eq, leaves_eq_idle htransfer]
  · refine ⟨_, session, run_serve_of_not_accepts haccepts, ?_, hbus⟩
    exact ⟨fun _ => ⟨rfl, rfl⟩, fun h => absurd h haccepts, rfl, fun h => absurd h haccepts,
      fun h => absurd h haccepts, fun h => absurd h haccepts⟩

end

end DmaCall

/-! ## Sequences of calls -/

/-- A sequence of calls, one after the other. -/
inductive DmaHistory [Bus β] (poll : Poll) (ended : β → Prop) :
    DmaSession β → List DmaCall → List DmaReply → DmaSession β → Prop
  | nil (session : DmaSession β) : DmaHistory poll ended session [] [] session
  | cons {session next last : DmaSession β} {call : DmaCall} {reply : DmaReply}
    {calls : List DmaCall} {replies : List DmaReply}
    (hrun : (call.serve poll).run session = .ok (reply, next))
    (hcall : call.Conducts poll ended session reply next)
    (hrest : DmaHistory poll ended next calls replies last) :
    DmaHistory poll ended session (call :: calls) (reply :: replies) last

/-- From any session on, by induction from one call. -/
theorem exists_history [Bus β] {clock : β → Nat} {inv ended : β → Prop} {limit : Nat} {poll : Poll}
    (h : Bus.Serves clock inv) (hsettles : Channel.Settles clock inv ended)
    (hended : ∀ bus, ended bus → inv bus) (hpoll : poll.Reaches limit) (calls : List DmaCall)
    (session : DmaSession β) (hbus : inv session.channel.bus) :
    ∃ replies last, (calls.mapM (DmaCall.serve poll)).run session = .ok (replies, last) ∧
      DmaHistory poll ended session calls replies last := by
  induction calls generalizing session with
  | nil => exact ⟨[], session, rfl, .nil session⟩
  | cons call calls ih =>
    obtain ⟨reply, next, hrun, hcall, hnext⟩ :=
      DmaCall.exists_serve h hsettles hpoll hended call session hbus
    obtain ⟨replies, last, hruns, hrest⟩ := ih next hnext
    refine ⟨reply :: replies, last, ?_, .cons hrun hcall hrest⟩
    rw [List.mapM_cons]
    exact run_step hrun (run_step hruns rfl)

namespace DmaSession

/-- The transfer engine keeps to the order of its steps, whatever the device answers. A call that
is out of order is refused without an access to the bus: this holds on every bus, whatever becomes
of an access. A bus that returns from its accesses makes every sequence of calls return, and every
call in it conducts itself; what a complete transfer last does to the bus is to acknowledge the end
of a transfer. The simulated device returns in every state, and does not show a finished transfer
after a complete one. -/
theorem keeps_step_order [Bus β] {clock : β → Nat} {inv : β → Prop}
    (serves : Bus.Serves clock inv) {limit : Nat} (hlimit : limit < UInt32.size - 1) :
    (∀ {γ : Type} [Bus γ] (poll : Poll) (call : DmaCall) (session : DmaSession γ),
      ¬call.Accepts session.channel.state → (call.serve poll).run session =
        .ok (⟨.error (.dmaState call.expected session.channel.state), call.data⟩, session)) ∧
    (∀ (calls : List DmaCall) (session : DmaSession β), inv session.channel.bus →
      ∃ replies last,
        (calls.mapM (DmaCall.serve ⟨some limit⟩)).run session = .ok (replies, last) ∧
        DmaHistory ⟨some limit⟩ (Channel.Acknowledged inv) session calls replies last) ∧
    ∀ (calls : List DmaCall) (session : DmaSession Sim.Device), ∃ replies last,
      (calls.mapM (DmaCall.serve ⟨some limit⟩)).run session = .ok (replies, last) ∧
      DmaHistory ⟨some limit⟩ Sim.Device.DoneClear session calls replies last := by
  have hreaches : (⟨some limit⟩ : Poll).Reaches limit := ⟨rfl, hlimit⟩
  refine ⟨fun _ _ _ => DmaCall.run_serve_of_not_accepts, fun calls session hbus => ?_,
    fun calls session => ?_⟩
  · exact exists_history serves (Channel.settles_acknowledged serves) (fun _ h => h.keeps) hreaches
      calls session hbus
  · exact exists_history Sim.Device.serves Sim.Device.settles_doneClear (fun _ _ => trivial)
      hreaches calls session trivial

/-- A device that is always done. -/
def promptDevice : Erratic := ⟨0, fun _ _ => Bits.transferDone⟩

/-- A transfer step by step, with two calls that come too early, and a complete one. -/
def bothTransfers : List DmaCall :=
  [.finish, .reset, .reset, .arm ⟨.none, 0⟩ #[7], .runWrite #[7], .finish, .write ⟨.none, 0⟩ #[7]]

/-- On the prompt device the two calls that come too early are refused, and the others succeed. -/
theorem keeps_step_order_promptDevice :
    Bus.Serves Erratic.turn (Any : Erratic → Prop) ∧ 5 < UInt32.size - 1 ∧
    ∃ replies last,
      (bothTransfers.mapM (DmaCall.serve ⟨some 5⟩)).run ⟨⟨.idle, promptDevice⟩, ⟨0, 0⟩⟩ =
        .ok (replies, last) ∧
      DmaHistory ⟨some 5⟩ (Channel.Acknowledged Any) ⟨⟨.idle, promptDevice⟩, ⟨0, 0⟩⟩
        bothTransfers replies last ∧
      replies.map (·.outcome.isOk) = [false, true, false, true, true, true, true] := by
  obtain ⟨-, hhistory, -⟩ := keeps_step_order Erratic.answers.serves
    (show 5 < UInt32.size - 1 by decide)
  obtain ⟨replies, last, hrun, hcalls⟩ :=
    hhistory bothTransfers ⟨⟨.idle, promptDevice⟩, ⟨0, 0⟩⟩ trivial
  have houtcomes : ((bothTransfers.mapM (DmaCall.serve ⟨some 5⟩)).run
      ⟨⟨.idle, promptDevice⟩, ⟨0, 0⟩⟩).map (fun ending => ending.1.map (·.outcome.isOk)) =
        .ok [false, true, false, true, true, true, true] := by decide +kernel
  rw [hrun] at houtcomes
  exact ⟨Erratic.answers.serves, by decide, replies, last, hrun, hcalls, Except.ok.inj houtcomes⟩

/-! ## The last access -/

/-- What a recorder sees last of a complete transfer is the acknowledgement of its end, however
the transfer has gone and whatever the recorder falsifies. -/
theorem exists_recorded_last [Bus β] {clock : β → Nat} {inv : β → Prop}
    (serves : Bus.Serves clock inv) {limit : Nat} (hlimit : limit < UInt32.size - 1)
    {call : DmaCall} (htransfer : call.IsTransfer) {session : DmaSession (Monitor β)}
    (hidle : session.channel.state = .idle) (hbus : session.channel.bus.Records inv) :
    ∃ reply after value, ∃ events : Array BusEvent,
      (call.serve ⟨some limit⟩).run session = .ok (reply, after) ∧
      after.channel.bus.recorded = some (events.push (.write32 Register.status value)) ∧
      value &&& Bits.transferDone = Bits.transferDone := by
  have hserves := Monitor.serves serves
  have hpoll : (⟨some limit⟩ : Poll).Reaches limit := ⟨rfl, hlimit⟩
  have haccepts : call.Accepts session.channel.state := by
    rw [hidle]
    cases call with
    | write setup data | read setup g page data => exact .inl rfl
    | reset | arm setup data | runWrite data | runRead g page data | finish =>
      exact htransfer.elim
  obtain ⟨reply, after, hrun, hcall, -⟩ := DmaCall.exists_serve hserves
    (Channel.settles_acknowledged hserves) hpoll (fun _ h => h.keeps) call session hbus
  obtain ⟨before, value, hbefore, hvalue, hwrite⟩ :=
    (hcall.settled haccepts htransfer).2.exists_write
  obtain ⟨events, hevents⟩ := Option.isSome_iff_exists.1 hbefore.isSome
  have hstatus : Bus.HasRegister clock inv Register.status := serves.register (by decide)
  obtain ⟨_, device, hdevice, -⟩ := hstatus.write32 value before.device hbefore.device
  -- The monitor has passed this write on, and noted it.
  have hpassed : after.channel.bus =
      ⟨device, before.recorded.map (·.push (.write32 Register.status value)), before.faults⟩ := by
    have hrecorded := Monitor.run_pass (fun _ => .write32 Register.status value) hdevice
    exact (Prod.mk.inj (Except.ok.inj (hwrite.symm.trans hrecorded))).2
  refine ⟨reply, after, value, events, hrun, ?_, hvalue⟩
  rw [hpassed, hevents]
  rfl

end DmaSession

end NandFlash
