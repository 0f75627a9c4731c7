import NandFlash.Proofs.StepOrder

/-!
# After a timeout

A call to the transfer engine can be given up in any of its waits. A complete transfer that is given
up leaves the engine idle and open to the next call. A single step that is given up leaves the
engine where it was, and from there no transfer can be started any more; an engine that was left
running takes no call at all. Nothing is assumed about the bus: its accesses may answer anything,
and may crash.
-/

namespace NandFlash

variable {σ α β γ ε : Type}

/-! ## What holds after a run that returns -/

/-- Whenever the action returns from a state with `pre`, its value and the state satisfy `post`. -/
def Yields (pre : σ → Prop) (m : Action σ α) (post : α → σ → Prop) : Prop :=
  ∀ s a t, pre s → m.run s = .ok (a, t) → post a t

namespace Yields

variable {pre : σ → Prop} {mid : α → σ → Prop} {post : β → σ → Prop} {fail : ε → σ → Prop}

/-- Nothing is said of what the action returns. -/
theorem any (m : Action σ α) : Yields pre m fun _ => Any := fun _ _ _ _ _ => trivial

theorem pure {post : α → σ → Prop} {a : α} (h : ∀ s, pre s → post a s) :
    Yields pre (pure a) post := by
  rintro s _ _ hs ⟨⟩
  exact h s hs

theorem mono {m : Action σ α} {pre' : σ → Prop} {post : α → σ → Prop} (h : Yields pre' m mid)
    (hpre : ∀ s, pre s → pre' s) (hpost : ∀ a s, mid a s → post a s) : Yields pre m post :=
  fun s a t hs hrun => hpost a t (h s a t (hpre s hs) hrun)

/-- What holds between two parts leads from the one to the other. -/
theorem bind {m : Action σ α} {f : α → Action σ β} (hm : Yields pre m mid)
    (hf : ∀ a, Yields (mid a) (f a) post) : Yields pre (m >>= f) post := by
  intro s b u hs hrun
  obtain ⟨a, t, hfirst, hsecond⟩ := exists_of_run_bind hrun
  exact hf a t b u (hm s a t hs hfirst) hsecond

/-- An error of the first part is one of the whole. -/
theorem attempt_bind {m : Attempt ε σ α} {f : α → Attempt ε σ β}
    (hm : Yields pre m.run (Ending mid fail))
    (hf : ∀ a, Yields (mid a) (f a).run (Ending post fail)) :
    Yields pre (m >>= f).run (Ending post fail) := by
  intro s r u hs hrun
  rcases cases_of_run_attempt_bind hrun with ⟨e, hfirst, rfl⟩ | ⟨a, t, hfirst, hsecond⟩
  · exact hm s (.error e) u hs hfirst
  · exact hf a t r u (hm s (.ok a) t hs hfirst) hsecond

theorem attempt_mono {m : Attempt ε σ α} {post : α → σ → Prop} {fail' : ε → σ → Prop}
    (h : Yields pre m.run (Ending mid fail)) (hok : ∀ a s, mid a s → post a s)
    (hfail : ∀ e s, fail e s → fail' e s) : Yields pre m.run (Ending post fail') := by
  refine h.mono (fun _ hs => hs) fun r s hend => ?_
  cases r with
  | ok a => exact hok a s hend
  | error e => exact hfail e s hend

/-- An action without errors of its own. -/
theorem perform {m : Action σ α} (h : Yields pre m mid) :
    Yields pre (perform m : Attempt ε σ α).run (Ending mid fail) := by
  intro s r t hs hrun
  obtain ⟨a, rfl, hm⟩ := exists_of_run_perform hrun
  exact h s a t hs hm

/-- An error that is thrown ends the attempt. -/
theorem throw {e : ε} (h : ∀ s, pre s → fail e s) :
    Yields pre (throw e : Attempt ε σ α).run (Ending mid fail) := by
  rintro s _ _ hs ⟨⟩
  exact h s hs

/-- An invariant of one look at a condition is one of the wait for it; by induction on the turns
that the counter has left. -/
theorem wait {poll : Poll} {awaited : Awaited} {ready : Attempt Error σ Bool}
    {fail : Error → σ → Prop} (hready : Yields pre ready.run (Ending (fun _ => pre) fail))
    (htimeout : ∀ s, pre s → fail (.timeout awaited) s) :
    Yields pre (poll.wait awaited ready).run (Ending (fun _ => pre) fail) := by
  have hwithin : ∀ left, Yields pre (poll.waitWithin awaited ready left).run
      (Ending (fun _ => pre) fail) := by
    intro left
    induction left with
    | zero =>
      refine hready.attempt_bind fun isReady => ?_
      cases isReady with
      | true => exact pure fun _ hs => hs
      | false =>
        -- The counter is at its end: the wait crashes, so it does not return.
        rintro s r t hs ⟨⟩
    | succ left ih =>
      refine hready.attempt_bind fun isReady => ?_
      cases isReady with
      | true => exact pure fun _ hs => hs
      | false =>
        by_cases hover : poll.isOver (Poll.maxTurns - left)
        · simp only [hover]
          rintro s _ _ hs ⟨⟩
          exact htimeout s hs
        · simp only [hover]
          exact ih
  exact hwithin Poll.maxTurns

/-- An attempt, and then an action however it has ended. -/
theorem afterwards {m : Attempt ε σ α} {leave : Action σ PUnit} {settled : σ → Prop}
    {result : Except ε α → Prop} (hm : Yields pre m.run fun r _ => result r)
    (hleave : Yields Any leave fun _ => settled) :
    Yields pre (do let r ← m.run; leave; return r) fun r s => settled s ∧ result r := by
  intro s r u hs hrun
  obtain ⟨r, t, hfirst, hrest⟩ := exists_of_run_bind hrun
  obtain ⟨_, u, hlast, hend⟩ := exists_of_run_bind hrest
  cases hend
  exact ⟨hleave t _ u trivial hlast, hm s r t hs hfirst⟩

end Yields

/-! ## Steps of a transfer -/

namespace Channel

/-- An access to the bus leaves the state of the engine alone. -/
theorem yields_onBus (m : Action β α) (state : DmaState) :
    Yields (At Any state) (onBus m) fun _ => At Any state := by
  rintro ⟨_, bus⟩ a _ ⟨rfl, -⟩ hrun
  rw [run_onBus] at hrun
  obtain ⟨_, -, hend⟩ := exists_of_map_eq_ok hrun
  cases hend
  exact ⟨rfl, trivial⟩

/-- An attempt on the bus leaves the state of the engine alone, however it ends. -/
theorem yields_tryOnBus {m : Attempt Error β α} {fails : Error → Prop}
    (h : Yields Any m.run (Ending (fun _ => Any) fun e _ => fails e)) (state : DmaState) :
    Yields (At Any state) (tryOnBus m).run
      (Ending (fun _ => At Any state) fun e channel => At Any state channel ∧ fails e) := by
  rintro ⟨_, bus⟩ r _ ⟨rfl, -⟩ hrun
  rw [run_tryOnBus] at hrun
  obtain ⟨⟨r', next⟩, hm, hend⟩ := exists_of_map_eq_ok hrun
  cases hend
  have hr := h bus _ next trivial hm
  cases r with
  | ok a => exact ⟨rfl, trivial⟩
  | error e => exact ⟨⟨rfl, trivial⟩, hr⟩

/-- The check of the state passes in that state. -/
theorem yields_expect {fail : Error → Channel β → Prop} (state : DmaState) :
    Yields (At Any state) (expect state).run (Ending (fun _ => At Any state) fail) := by
  intro channel outcome next hchannel hrun
  rw [run_expect_self hchannel.state_eq] at hrun
  cases hrun
  exact hchannel

theorem yields_enter (found state : DmaState) :
    Yields (At (β := β) Any found) (enter state) fun _ => At Any state := by
  rintro channel _ _ - ⟨⟩
  exact ⟨rfl, trivial⟩

variable [Bus β]

/-- A reset that is given up leaves the engine in `resetRequested`. -/
theorem yields_reset (poll : Poll) :
    Yields (At Any .idle) (reset (β := β) poll).run
      (Ending (fun _ => At Any .resetRequested)
        fun e channel => At Any .resetRequested channel ∧ e.IsTimeout) := by
  have hwait : ∀ awaited bits, Yields Any
      (poll.wait awaited (perform (Bus.allClear (β := β) Register.dmaControl bits))).run
      (Ending (fun _ => Any) fun e _ => e.IsTimeout) :=
    fun awaited bits => .wait (Yields.any _).perform fun _ _ => ⟨awaited, rfl⟩
  unfold reset
  exact (yields_expect .idle).attempt_bind fun _ =>
    (yields_enter .idle .resetRequested).perform.attempt_bind fun _ =>
    yields_tryOnBus ((hwait _ _).attempt_bind fun _ =>
      (Yields.any _).perform.attempt_bind fun _ => hwait _ _) _

/-- Setting up cannot fail. -/
theorem yields_arm {fail : Error → Channel β → Prop} (setup : TransferSetup) (data : Bytes) :
    Yields (At Any .resetRequested) (arm setup data).run
      (Ending (fun _ => At Any .armed) fail) := by
  unfold arm
  exact (yields_expect .resetRequested).attempt_bind fun _ =>
    (yields_onBus _ _).perform.attempt_bind fun _ => (yields_enter _ .armed).perform

/-- A transfer to flash that is given up is left running. -/
theorem yields_runWrite (poll : Poll) (data : Bytes) :
    Yields (At Any .armed) (runWrite (β := β) poll data).run
      (Ending (fun _ => At Any .completed)
        fun e channel => At Any .running channel ∧ e.IsTimeout) := by
  unfold runWrite
  exact (yields_expect .armed).attempt_bind fun _ =>
    (yields_enter .armed .running).perform.attempt_bind fun _ =>
    (yields_tryOnBus ((Yields.any _).perform.attempt_bind fun _ =>
      (Yields.any _).perform.attempt_bind fun _ => (Yields.any _).perform.attempt_bind fun _ =>
      (Yields.any _).perform.attempt_bind fun _ =>
      .wait (Yields.any _).perform fun _ _ => ⟨.transferOut, rfl⟩) _).attempt_bind fun _ =>
    (yields_enter .running .completed).perform

/-- An abort ends at `aborted`. -/
theorem yields_abandon : Yields (At Any .running) (abandon (β := β)) fun _ => At Any .aborted :=
  (yields_onBus _ _).bind fun _ => yields_enter _ .aborted

/-- What is acknowledged is idle. -/
theorem yields_acknowledge (state : DmaState) :
    Yields (At Any state) (acknowledge (β := β)) fun _ => At Any .idle :=
  (yields_onBus _ _).bind fun _ => yields_enter state .idle

/-- Finishing cannot fail. -/
theorem yields_finish {fail : Error → Channel β → Prop} {state : DmaState}
    (hstate : state = .completed ∨ state = .aborted) :
    Yields (At Any state) finish.run (Ending (fun _ => At Any .idle) fail) := by
  have hacknowledge : Yields (At Any state)
      (perform acknowledge : Attempt Error (Channel β) Unit).run
      (Ending (fun _ => At Any .idle) fail) :=
    (yields_acknowledge state).perform
  intro channel outcome next hchannel hrun
  rw [run_finish, hchannel.state_eq] at hrun
  rcases hstate with rfl | rfl <;> exact hacknowledge channel outcome next hchannel hrun

/-- However a transfer has ended, settling it leaves the engine idle. -/
theorem yields_settle : Yields Any (settle (β := β)) fun _ => At Any .idle := by
  intro channel a next _ hrun
  rw [run_settle] at hrun
  cases hstate : channel.state with
  | idle =>
    rw [hstate] at hrun
    cases hrun
    exact ⟨hstate, trivial⟩
  | completed | aborted =>
    rw [hstate] at hrun
    exact yields_acknowledge _ channel a next ⟨hstate, trivial⟩ hrun
  | resetRequested | armed | running =>
    rw [hstate] at hrun
    have hrecover : ∀ state, Yields (At Any state) (recover (β := β)) fun _ => At Any .idle :=
      fun state => (yields_onBus _ _).bind fun _ => yields_enter state .idle
    exact hrecover _ channel a next ⟨hstate, trivial⟩ hrun

/-- A complete transfer to flash leaves the engine idle, however it goes, and fails only by taking
too long. -/
theorem yields_write (poll : Poll) (setup : TransferSetup) (data : Bytes) :
    Yields (At Any .idle) (write (β := β) poll setup data).run fun outcome channel =>
      At Any .idle channel ∧ Ending Any Error.IsTimeout outcome := by
  have hsteps : Yields (At Any .idle) (writeSteps (β := β) poll setup data).run
      (Ending (fun _ => Any) fun e _ => e.IsTimeout) := by
    unfold writeSteps
    exact ((yields_reset poll).attempt_mono (fun _ _ h => h) fun _ _ h => h.2).attempt_bind
      fun _ => (yields_arm setup data).attempt_bind
      fun _ => (yields_runWrite poll data).attempt_mono (fun _ _ _ => trivial) fun _ _ h => h.2
  intro channel outcome next hchannel hrun
  rw [write, run_attempt_bind (run_expect_self hchannel.state_eq)] at hrun
  refine Yields.afterwards (hsteps.mono (fun _ h => h) fun outcome _ h => ?_) yields_settle
    channel outcome next hchannel hrun
  cases outcome <;> exact h

end Channel

/-! ## Reading into a buffer -/

namespace Reading

/-- The state of the engine that a reading goes through. -/
def In (state : DmaState) (reading : Reading β) : Prop := reading.channel.At Any state

/-- What is known of an action of the channel is known of it on a reading. -/
theorem yields_onChannel {m : Action (Channel β) α} {pre : Channel β → Prop}
    {post : α → Channel β → Prop} (h : Yields pre m post) :
    Yields (fun reading => pre reading.channel) (onChannel m)
      fun a reading => post a reading.channel := by
  intro reading a _ hreading hrun
  rw [run_onChannel] at hrun
  obtain ⟨⟨_, channel⟩, hm, hend⟩ := exists_of_map_eq_ok hrun
  cases hend
  exact h _ a channel hreading hm

/-- The same for an attempt. -/
theorem yields_tryOnChannel {m : Attempt Error (Channel β) α} {pre : Channel β → Prop}
    {post : α → Channel β → Prop} {fail : Error → Channel β → Prop}
    (h : Yields pre m.run (Ending post fail)) :
    Yields (fun reading => pre reading.channel) (tryOnChannel m).run
      (Ending (fun a reading => post a reading.channel)
        fun e reading => fail e reading.channel) := by
  refine (yields_onChannel h).mono (fun _ h => h) fun r _ hend => ?_
  cases r <;> exact hend

/-- The same for an attempt that does not fail where it is made. -/
theorem yields_tryOnChannel_sure {m : Attempt Error (Channel β) α} {pre : Channel β → Prop}
    {post : α → Channel β → Prop} {fail : Error → Reading β → Prop}
    (h : Yields pre m.run (Ending post fun _ _ => False)) :
    Yields (fun reading => pre reading.channel) (tryOnChannel m).run
      (Ending (fun a reading => post a reading.channel) fail) :=
  (yields_tryOnChannel h).attempt_mono (fun _ _ h => h) fun _ _ h => h.elim

/-- An access to the bus leaves the engine where it is. -/
theorem yields_onBus (m : Action β α) (state : DmaState) :
    Yields (In state) (onBus m) fun _ => In state :=
  yields_onChannel (Channel.yields_onBus m state)

theorem yields_enter (found state : DmaState) :
    Yields (In (β := β) found) (onChannel (Channel.enter state)) fun _ => In state :=
  yields_onChannel (Channel.yields_enter found state)

/-- What is booked leaves the engine alone. -/
theorem yields_book {state : DmaState} {fail : Error → Reading β → Prop}
    (book : Reading β → Reading β) (hbook : ∀ reading, (book reading).channel = reading.channel) :
    Yields (In state) (modify book : Attempt Error (Reading β) PUnit).run
      (Ending (fun _ => In state) fail) := by
  rintro reading _ _ hreading ⟨⟩
  exact (congrArg (Channel.At Any state) (hbook reading)).mpr hreading

variable [Bus β]

/-- So does the arrival of the data. -/
theorem yields_receive (state : DmaState) :
    Yields (In (β := β) state) receive fun _ => In state := by
  intro reading a next hreading hrun
  rw [run_receive] at hrun
  cases hdma : (Bus.dmaFromDevice reading.data).run reading.channel.bus with
  | error defect =>
    rw [hdma] at hrun
    cases hrun
  | ok filled =>
    rw [hdma] at hrun
    cases hrun
    exact ⟨hreading.state_eq, trivial⟩

/-- So does a correction, whatever it finds. -/
theorem yields_correctFields (g : Geometry) (state : DmaState) :
    Yields (In (β := β) state) (correctFields g) fun _ => In state := by
  intro reading a next hreading hrun
  rw [run_correctFields] at hrun
  rcases hcorrect : (Ecc.correct g reading.data).run.run reading.channel.bus with
    _ | ⟨_ | _, _⟩ <;> rw [hcorrect] at hrun <;> cases hrun <;> exact ⟨hreading.state_eq, trivial⟩

/-- How a read fails: it takes too long and the engine is left running, or the page is lost. -/
def Stops (page : Nat) (e : Error) (reading : Reading β) : Prop :=
  In .running reading ∧ e.IsTimeout ∨ In .aborted reading ∧ e.IsLossOf page

/-- A repair goes on, or stops the engine over a field that is lost. -/
theorem yields_repair (g : Geometry) (page : Nat) :
    Yields (In .running) (repair (β := β) g page).run
      (Ending (fun _ => In .running) (Stops page)) := by
  unfold repair
  refine (yields_correctFields g .running).perform.attempt_bind fun result => ?_
  cases result with
  | ok fixed =>
    exact (yields_book (credit fixed) fun _ => rfl).attempt_bind fun _ => (yields_onBus _ _).perform
  | error lost =>
    exact (yields_book debit fun _ => rfl).attempt_bind fun _ =>
      (yields_onChannel Channel.yields_abandon).perform.attempt_bind fun _ =>
        .throw fun _ hlost => .inr ⟨hlost, lost.field, rfl⟩

/-- A look at the status register repairs at most once. -/
theorem yields_look (g : Geometry) (page : Nat) :
    Yields (In .running) (look (β := β) g page).run
      (Ending (fun _ => In .running) (Stops page)) := by
  have hover : Yields (In .running) (do
      let status ← perform (onBus (Bus.read32 Register.status))
      return status &&& Bits.transferDone != 0 && status &&& Bits.eccEvent == 0 :
        Attempt Error (Reading β) Bool).run (Ending (fun _ => In .running) (Stops page)) :=
    (yields_onBus _ _).perform.attempt_bind fun _ => .pure fun _ h => h
  unfold look
  refine (yields_onBus _ _).perform.attempt_bind fun hasEvent => ?_
  cases hasEvent with
  | true => exact (yields_repair g page).attempt_bind fun _ => hover
  | false => exact hover

/-- A read that is given up is left running, and one whose page is lost is left aborted. -/
theorem yields_runRead (poll : Poll) (g : Geometry) (page : Nat) :
    Yields (In .armed) (runRead (β := β) poll g page).run
      (Ending (fun _ => In .completed) (Stops page)) := by
  have hleave : Yields (In .running) (do
      perform (onChannel (Channel.enter .completed))
      return (← get).reports : Attempt Error (Reading β) (List FieldReport)).run
      (Ending (fun _ => In .completed) (Stops page)) := by
    refine (yields_enter _ _).perform.attempt_bind fun _ => ?_
    rintro reading _ _ hreading ⟨⟩
    exact hreading
  have htimeout : ∀ reading : Reading β, In .running reading →
      Stops page (.timeout .transferIn) reading := fun _ h => .inl ⟨h, _, rfl⟩
  unfold runRead
  refine (yields_tryOnChannel_sure (Channel.yields_expect .armed)).attempt_bind fun _ =>
    (yields_enter .armed .running).perform.attempt_bind fun _ =>
    (yields_onBus _ _).perform.attempt_bind fun _ =>
    (yields_receive .running).perform.attempt_bind fun _ =>
    (yields_onBus _ _).perform.attempt_bind fun unchecked => ?_
  -- Without checking there is nothing to repair, and only the wait can fail.
  cases unchecked with
  | true =>
    exact (Yields.wait (yields_onBus _ _).perform htimeout).attempt_bind fun _ => hleave
  | false => exact (Yields.wait (yields_look g page) htimeout).attempt_bind fun _ => hleave

/-- A complete read leaves the engine idle, however it goes. -/
theorem yields_read (poll : Poll) (setup : TransferSetup) (g : Geometry) (page : Nat) :
    Yields (In .idle) (read (β := β) poll setup g page).run fun outcome reading =>
      In .idle reading ∧ Ending Any (IsFailure page) outcome := by
  have hsteps : Yields (In .idle) (readSteps (β := β) poll setup g page).run
      (Ending (fun _ => Any) fun e _ => IsFailure page e) := by
    unfold readSteps
    refine ((yields_tryOnChannel (Channel.yields_reset poll)).attempt_mono (fun _ _ h => h)
      fun _ _ h => .inl h.2).attempt_bind fun _ => ?_
    intro reading outcome next hreading hrun
    rw [run_attempt_bind (show (get : Attempt Error (Reading β) (Reading β)).run.run reading =
      .ok (.ok reading, reading) from rfl)] at hrun
    refine Yields.attempt_bind (yields_tryOnChannel_sure (Channel.yields_arm setup reading.data))
      (fun _ => (yields_runRead poll g page).attempt_mono (fun _ _ _ => trivial) fun _ _ h => ?_)
      reading outcome next hreading hrun
    exact h.imp And.right And.right
  intro reading outcome next hreading hrun
  have hexpect : (tryOnChannel (Channel.expect .idle)).run.run reading =
      .ok (.ok (), reading) := by
    rw [run_tryOnChannel, Channel.run_expect_self hreading.state_eq, endIn_ok]
  rw [read, run_attempt_bind hexpect] at hrun
  refine Yields.afterwards (hsteps.mono (fun _ h => h) fun outcome _ h => ?_)
    (yields_onChannel Channel.yields_settle) reading outcome next hreading hrun
  cases outcome <;> exact h

end Reading

/-! ## One call -/

namespace DmaCall

variable [Bus β] {poll : Poll}

/-- What a call comes to is what its steps come to. -/
theorem exists_of_run_serve {call : DmaCall} {session after : DmaSession β} {reply : DmaReply}
    (h : (call.serve poll).run session = .ok (reply, after)) :
    ∃ reading, (call.steps poll).run.run ⟨session.channel, call.data, session.stats, []⟩ =
        .ok (reply.outcome, reading) ∧ reading.channel = after.channel := by
  obtain ⟨⟨outcome, reading⟩, hsteps, hend⟩ := exists_of_bind_eq_ok h
  cases hend
  exact ⟨reading, hsteps, rfl⟩

omit [Bus β] in
/-- A step without a report yields what the channel yields. -/
theorem yields_silent {step : Attempt Error (Channel β) Unit} {state : DmaState}
    {mid : Except Error Unit → Channel β → Prop}
    {post : Except Error (List FieldReport) → Channel β → Prop}
    (h : Yields (Channel.At Any state) step.run mid)
    (hpost : ∀ r channel, mid r channel → post (r.map fun _ => []) channel) :
    Yields (Reading.In state) (silent step).run
      fun outcome reading => post outcome reading.channel := by
  intro reading outcome _ hreading hrun
  rw [run_silent] at hrun
  obtain ⟨⟨r, channel⟩, hstep, hend⟩ := exists_of_map_eq_ok hrun
  cases hend
  exact hpost r channel (h _ r channel hreading hstep)

/-- Where an accepted call leaves the engine, whatever the bus is like. -/
theorem yields_steps {call : DmaCall} {state : DmaState} (haccepts : call.Accepts state) :
    Yields (Reading.In (β := β) state) (call.steps poll).run
      fun outcome reading => call.Leaves Any Any outcome reading.channel := by
  cases call with
  | reset =>
    obtain rfl | ⟨⟨⟩, -⟩ := haccepts
    refine yields_silent (Channel.yields_reset poll) fun r channel hend => ?_
    exact leaves_of_ending id (fun _ => rfl) (fun _ he => ⟨rfl, he⟩) hend
  | arm setup data =>
    obtain rfl | ⟨⟨⟩, -⟩ := haccepts
    have harm : Yields (Channel.At (β := β) Any .resetRequested) (Channel.arm setup data).run
        (Ending (fun _ => Channel.At Any .armed) fun _ channel =>
          Channel.At Any .armed channel ∧ False) := Channel.yields_arm setup data
    refine yields_silent harm fun r channel hend => ?_
    exact leaves_of_ending id (fun _ => rfl) (fun _ he => he.elim) hend
  | runWrite data =>
    obtain rfl | ⟨⟨⟩, -⟩ := haccepts
    refine yields_silent (Channel.yields_runWrite poll data) fun r channel hend => ?_
    exact leaves_of_ending id (fun _ => rfl) (fun _ he => ⟨rfl, he⟩) hend
  | finish =>
    have hstate : state = .completed ∨ state = .aborted := haccepts.imp_right And.right
    have hfinish : Yields (Channel.At (β := β) Any state) Channel.finish.run
        (Ending (fun _ => Channel.At Any .idle) fun _ channel =>
          Channel.At Any .idle channel ∧ False) := Channel.yields_finish hstate
    refine yields_silent hfinish fun r channel hend => ?_
    exact leaves_of_ending id (fun _ => rfl) (fun _ he => he.elim) hend
  | runRead g page data =>
    obtain rfl | ⟨⟨⟩, -⟩ := haccepts
    refine (Reading.yields_runRead poll g page).mono (fun _ h => h) fun outcome reading hend => ?_
    cases outcome <;> exact leaves_of_runRead hend
  | write setup data =>
    obtain rfl | ⟨⟨⟩, -⟩ := haccepts
    refine yields_silent (Channel.yields_write poll setup data) fun r channel hend => ?_
    refine leaves_of_transfer (write setup data) trivial (fun _ h => h) hend.1 fun e he => ?_
    cases r with
    | ok _ => cases he
    | error _ =>
      cases he
      exact hend.2
  | read setup g page data =>
    obtain rfl | ⟨⟨⟩, -⟩ := haccepts
    refine (Reading.yields_read poll setup g page).mono (fun _ h => h) fun outcome _ hend => ?_
    refine leaves_of_transfer (read setup g page data) trivial (fun _ h => h) hend.1 ?_
    rintro e rfl
    exact hend.2

/-- An accepted call leaves the engine where its outcome belongs. -/
theorem leaves_of_run_serve {call : DmaCall} {session after : DmaSession β} {reply : DmaReply}
    (haccepts : call.Accepts session.channel.state)
    (hrun : (call.serve poll).run session = .ok (reply, after)) :
    call.Leaves Any Any reply.outcome after.channel := by
  obtain ⟨reading, hsteps, hchannel⟩ := exists_of_run_serve hrun
  rw [← hchannel]
  exact yields_steps haccepts _ _ _ ⟨rfl, trivial⟩ hsteps

/-- A call is answered with a refusal exactly where it does not belong. -/
theorem refused_iff {call : DmaCall} {session after : DmaSession β} {reply : DmaReply}
    (hrun : (call.serve poll).run session = .ok (reply, after)) :
    (∃ expected found, reply.outcome = .error (.dmaState expected found)) ↔
      ¬call.Accepts session.channel.state := by
  constructor
  · rintro ⟨expected, found, he⟩ haccepts
    exact not_fails_dmaState call expected found ((leaves_of_run_serve haccepts hrun).fails _ he)
  · intro hrefused
    rw [run_serve_of_not_accepts hrefused] at hrun
    cases hrun
    exact ⟨_, _, rfl⟩

/-- Only an accepted call can take too long. -/
theorem accepts_of_timedOut {call : DmaCall} {session after : DmaSession β} {reply : DmaReply}
    (hrun : (call.serve poll).run session = .ok (reply, after)) (htimeout : reply.TimedOut) :
    call.Accepts session.channel.state := by
  by_contra hrefused
  obtain ⟨expected, found, he⟩ := (refused_iff hrun).2 hrefused
  obtain ⟨awaited, hawaited⟩ := htimeout
  rw [hawaited] at he
  cases he

omit [Bus β] in
/-- A timeout leaves the engine idle after a complete transfer, and after no other call. -/
theorem leaves_timeout_eq_idle_iff {call : DmaCall} {awaited : Awaited}
    (hfails : call.Fails (.timeout awaited)) :
    call.leaves (.error (.timeout awaited)) = .idle ↔ call.IsTransfer := by
  cases call with
  | write setup data | read setup g page data => exact ⟨fun _ => trivial, fun _ => rfl⟩
  | reset | runWrite data | runRead g page data => exact ⟨nofun, fun h => h.elim⟩
  | arm setup data | finish => exact hfails.elim

omit [Bus β] in
/-- No call belongs to a running engine. -/
theorem not_accepts_running (call : DmaCall) : ¬call.Accepts .running := by
  rintro (hexpected | ⟨-, habort⟩)
  · cases call <;> cases hexpected
  · cases habort

/-- Nothing moves a running engine: by induction, every sequence of calls is refused. -/
theorem run_serve_running (calls : List DmaCall) {session : DmaSession β}
    (hrunning : session.channel.state = .running) :
    (calls.mapM (serve poll)).run session =
      .ok (calls.map fun call => ⟨.error (.dmaState call.expected .running), call.data⟩,
        session) := by
  induction calls with
  | nil => rfl
  | cons call calls ih =>
    have hrefused : ¬call.Accepts session.channel.state := hrunning ▸ not_accepts_running call
    have hcall : (call.serve poll).run session = _ := run_serve_of_not_accepts hrefused
    rw [hrunning] at hcall
    rw [List.mapM_cons]
    exact run_step hcall (run_step ih rfl)

end DmaCall

/-! ## After a timeout -/

namespace DmaSession

/-- After a timeout the engine is idle exactly if the call was a complete transfer. Then no reset,
write or read is refused next. After a step it is not idle, and every reset, write and read is
refused without an effect; a step that waits for the end of a transfer leaves the engine running,
where every sequence of calls is refused and nothing changes any more. None of this depends on what
the bus answers, or on the limit of the waits. -/
theorem only_transfers_recover [Bus β] {poll : Poll} {call : DmaCall}
    {session after : DmaSession β} {reply : DmaReply}
    (hrun : (call.serve poll).run session = .ok (reply, after)) (htimeout : reply.TimedOut) :
    after.channel.state = call.leaves reply.outcome ∧
    (after.channel.state = .idle ↔ call.IsTransfer) ∧
    (call.IsTransfer → ∀ (next : DmaCall) (answer : DmaReply) (last : DmaSession β),
      next.expected = .idle → (next.serve poll).run after = .ok (answer, last) →
      ∀ expected found, answer.outcome ≠ .error (.dmaState expected found)) ∧
    (¬call.IsTransfer → ∀ next : DmaCall, next.expected = .idle →
      (next.serve poll).run after =
        .ok (⟨.error (.dmaState .idle after.channel.state), next.data⟩, after)) ∧
    (after.channel.state = .running → ∀ calls : List DmaCall,
      (calls.mapM (DmaCall.serve poll)).run after =
        .ok (calls.map fun call => ⟨.error (.dmaState call.expected .running), call.data⟩,
          after)) := by
  have hleaves := DmaCall.leaves_of_run_serve (DmaCall.accepts_of_timedOut hrun htimeout) hrun
  obtain ⟨awaited, htimeout⟩ := htimeout
  have hidle : after.channel.state = .idle ↔ call.IsTransfer := by
    rw [hleaves.state_eq, htimeout]
    exact DmaCall.leaves_timeout_eq_idle_iff (hleaves.fails _ htimeout)
  refine ⟨hleaves.state_eq, hidle, fun htransfer next answer last hnext hanswer expected found he =>
    ?_, fun hstep next hnext => ?_, fun hrunning calls => DmaCall.run_serve_running calls hrunning⟩
  · have haccepts : next.Accepts after.channel.state := .inl ((hidle.2 htransfer).trans hnext.symm)
    exact (DmaCall.refused_iff hanswer).1 ⟨expected, found, he⟩ haccepts
  · -- A step has left the engine somewhere else than idle, where these calls do not belong.
    have hrefused : ¬next.Accepts after.channel.state := by
      rintro (hstate | ⟨rfl, -⟩)
      · exact hstep (hidle.1 (hstate.trans hnext))
      · cases hnext
    have hrefusal : (next.serve poll).run after = _ := DmaCall.run_serve_of_not_accepts hrefused
    rwa [hnext] at hrefusal

/-- A device that is never done. -/
def silentDevice : Erratic := ⟨0, fun _ _ => 0⟩

/-- On the silent device a complete transfer times out, and leaves the engine idle. -/
theorem only_transfers_recover_silentDevice : ∃ reply after,
    ((DmaCall.write ⟨.none, 0⟩ #[7]).serve ⟨some 2⟩).run ⟨⟨.idle, silentDevice⟩, ⟨0, 0⟩⟩ =
      .ok (reply, after) ∧ reply.TimedOut ∧ after.channel.state = .idle := by
  have htimeout : (((DmaCall.write ⟨.none, 0⟩ #[7]).serve ⟨some 2⟩).run
      ⟨⟨.idle, silentDevice⟩, ⟨0, 0⟩⟩).map (fun ending => ending.1.outcome) =
        .ok (.error (.timeout .transferOut)) := by decide +kernel
  obtain ⟨⟨reply, after⟩, hrun, houtcome⟩ := exists_of_map_eq_ok htimeout
  have hreply : reply.TimedOut := ⟨.transferOut, houtcome⟩
  exact ⟨reply, after, hrun, hreply, (only_transfers_recover hrun hreply).2.1.2 trivial⟩

/-- A step that times out wedges the engine: on a K9F1G08 whose transfers hang, the reset that
follows it is refused. -/
theorem timed_out_step_wedges_engine : ∃ device replies last,
    Sim.Device.new Sim.Chip.k9f1g08 = .ok device ∧
    ([DmaCall.reset, .arm ⟨.none, 0⟩ #[7], .runWrite #[7], .reset].mapM
      (DmaCall.serve ⟨some 5⟩)).run ⟨⟨.idle, device.setHang true⟩, ⟨0, 0⟩⟩ = .ok (replies, last) ∧
    replies.map (·.outcome) = [.ok [], .ok [], .error (.timeout .transferOut),
      .error (.dmaState .idle .running)] ∧
    last.channel.state = .running := by
  have hwedged : (do
      let device ← Sim.Device.new Sim.Chip.k9f1g08
      let (replies, last) ← ([DmaCall.reset, .arm ⟨.none, 0⟩ #[7], .runWrite #[7], .reset].mapM
        (DmaCall.serve ⟨some 5⟩)).run ⟨⟨.idle, device.setHang true⟩, ⟨0, 0⟩⟩
      return (replies.map (·.outcome), last.channel.state)) =
      Except.ok ([.ok [], .ok [], .error (.timeout .transferOut),
        .error (.dmaState .idle .running)], .running) := by decide +kernel
  obtain ⟨device, hdevice, hrest⟩ := exists_of_bind_eq_ok hwedged
  obtain ⟨⟨replies, last⟩, hrun, hend⟩ := exists_of_bind_eq_ok hrest
  obtain ⟨hreplies, hstate⟩ := Prod.mk.inj (Except.ok.inj hend)
  exact ⟨device, replies, last, hdevice, hrun, hreplies, hstate⟩

end DmaSession

end NandFlash
