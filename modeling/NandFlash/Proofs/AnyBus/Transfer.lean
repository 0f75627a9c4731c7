import NandFlash.Proofs.AnyBus.Correction
import NandFlash.Proofs.Layers

/-!
# Transfers on any bus

Whatever the device answers, each step of a transfer takes the engine from its one state to the
next, within a number of accesses that the limit of the polls fixes. A step that takes too long,
or loses the page, leaves the engine where settling finds it: a complete transfer ends at `idle`
however its steps have ended, and the buffer keeps its length.
-/

namespace NandFlash

variable {α β : Type} {k : Nat} {clock : β → Nat} {inv : β → Prop}

/-! ## Steps of a transfer -/

namespace Channel

/-- The clock of the bus, read on a channel. -/
def ticks (clock : β → Nat) (channel : Channel β) : Nat := clock channel.bus

/-- The engine is in some state, and `inv` holds of the bus. -/
structure At (inv : β → Prop) (state : DmaState) (channel : Channel β) : Prop where
  state_eq : channel.state = state
  bus : inv channel.bus

/-- An action of the bus leaves the state of the engine alone. -/
theorem within_onBus {m : Action β α} {pre : β → Prop} {post : α → β → Prop} {state : DmaState}
    (h : Within clock k pre m post) :
    Within (ticks clock) k (At pre state) (onBus m) fun a => At (post a) state := by
  rintro ⟨_, bus⟩ ⟨rfl, hpre⟩
  obtain ⟨a, next, hrun, hclock, hpost⟩ := h bus hpre
  exact ⟨a, _, run_onBus_ok hrun _, hclock, rfl, hpost⟩

/-- The same for an action that keeps an invariant. -/
theorem keeps_onBus {m : Action β α} {post : α → Prop} {state : DmaState}
    (h : Keeps clock k inv m post) : Keeps (ticks clock) k (At inv state) (onBus m) post :=
  (within_onBus h).mono (Nat.le_refl _) (fun _ h => h) fun _ _ h =>
    ⟨⟨h.state_eq, h.bus.1⟩, h.bus.2⟩

/-- An attempt on the bus, with what is known of its errors. -/
theorem within_tryOnBus {m : Attempt Error β α} {pre failed : β → Prop} {post : α → β → Prop}
    {fails : Error → Prop} {state : DmaState}
    (h : Within clock k pre m.run (Ending post fun e bus => failed bus ∧ fails e)) :
    Within (ticks clock) k (At pre state) (tryOnBus m).run (Ending (fun a => At (post a) state)
      fun e channel => At failed state channel ∧ fails e) := by
  refine (within_onBus h).mono (Nat.le_refl _) (fun _ h => h) fun r channel hend => ?_
  obtain ⟨hstate, hend⟩ := hend
  cases r with
  | ok a => exact ⟨hstate, hend⟩
  | error e => exact ⟨⟨hstate, hend.1⟩, hend.2⟩

/-- The check of the state costs nothing, and passes. -/
theorem within_expect {fail : Error → Channel β → Prop} (state : DmaState) :
    Within (ticks clock) 0 (At inv state) (expect state).run
      (Ending (fun _ => At inv state) fail) :=
  fun channel h => ⟨_, channel, run_expect_self h.state_eq, Nat.le_refl _, h⟩

/-- Nor does a change of the state cost anything. -/
theorem within_enter (found state : DmaState) :
    Within (ticks clock) 0 (At inv found) (enter state) fun _ => At inv state :=
  fun channel h => ⟨(), { channel with state }, rfl, Nat.le_refl _, rfl, h.bus⟩

variable [Bus β] (h : Bus.Serves clock inv) {poll : Poll} {limit : Nat}

include h

/-- A reset is two waits, with a change of the DMA control register between them. -/
theorem within_reset (hpoll : poll.Reaches limit) :
    Within (ticks clock) (2 * limit + 4) (At inv .idle) (reset (β := β) poll).run
      (Ending (fun _ => At inv .resetRequested)
        fun e channel => At inv .resetRequested channel ∧
          e.IsTimeoutOf [.engineIdle, .engineReset]) := by
  have hcontrol : Bus.HasRegister clock inv Register.dmaControl := h.register (by decide)
  have hwait : ∀ awaited ∈ [.engineIdle, .engineReset], ∀ bits,
      Within clock (1 * (limit + 1)) inv
        (poll.wait awaited (perform (Bus.allClear Register.dmaControl bits))).run
        (Ending (fun _ => inv) fun e bus => inv bus ∧
          e.IsTimeoutOf [.engineIdle, .engineReset]) :=
    fun awaited hmem bits => (Keeps.wait hpoll (hcontrol.allClear bits)).attempt_mono
      (fun _ _ h => h) fun _ _ h => ⟨h.1, awaited, hmem, h.2⟩
  unfold reset
  refine Within.le ((within_expect .idle).attempt_bind fun _ =>
    (within_enter .idle .resetRequested).perform.attempt_bind fun _ =>
    within_tryOnBus ((hwait .engineIdle (by decide) _).attempt_bind fun _ =>
      (hcontrol.setBits _).state.perform.attempt_bind fun _ =>
        hwait .engineReset (by decide) _)) ?_
  omega

/-- Setting up is a fixed number of register accesses. -/
theorem keeps_prepare (setup : TransferSetup) (data : Bytes) :
    Keeps clock 17 inv (prepare setup data) Any := by
  have hwrite : ∀ {offset}, ¬Bus.IsChipPort offset → ∀ value,
      Keeps clock 1 inv (Bus.write32 offset value) Any := fun hport => (h.register hport).write32
  have hinterrupts : Bus.HasRegister clock inv Register.interrupts := h.register (by decide)
  have hcontrol : Bus.HasRegister clock inv Register.control := h.register (by decide)
  unfold prepare
  refine ((hwrite (by decide) _).bind fun _ _ => (hinterrupts.clearBits _).bind fun _ _ =>
    (h.dmaAddress _).bind fun _ _ => (hwrite (by decide) _).bind fun _ _ =>
    (hwrite (by decide) _).bind fun _ _ => (hwrite (by decide) _).bind fun _ _ =>
    (hcontrol.configureEcc _).bind fun _ _ => (hwrite (by decide) _).bind fun _ _ =>
    (hinterrupts.clearBits _).bind fun _ _ => (hwrite (by decide) _).bind fun _ _ =>
    hcontrol.replaceBits _ _).le ?_
  omega

/-- Setting up is all register accesses, and cannot fail. -/
theorem within_arm (setup : TransferSetup) (data : Bytes) :
    Within (ticks clock) 17 (At inv .resetRequested) (arm (β := β) setup data).run
      (Ending (fun _ => At inv .armed) fun _ _ => False) := by
  unfold arm
  refine Within.le ((within_expect .resetRequested).attempt_bind fun _ =>
    (keeps_onBus (keeps_prepare h setup data)).state.perform.attempt_bind fun _ =>
    (within_enter .resetRequested .armed).perform) ?_
  omega

/-- A marker byte is read, and written at most once. -/
theorem keeps_clearMarker (i : Nat) :
    Keeps clock 2 inv (clearMarker (β := β) (Register.window + i)) Any := by
  refine (h.read8 i).bind (n := 1) fun byte _ => ?_
  by_cases herased : byte == erasedByte
  · rw [if_pos herased]
    exact h.write8 _ _
  · rw [if_neg herased]
    exact .pure trivial

/-- An abort is four accesses. -/
theorem within_abandon : Within (ticks clock) 4 (At inv .running) (abandon (β := β))
    fun _ => At inv .aborted := by
  have hwrite : ∀ {offset}, ¬Bus.IsChipPort offset → ∀ value,
      Keeps clock 1 inv (Bus.write32 offset value) Any := fun hport => (h.register hport).write32
  have hcontrol : Bus.HasRegister clock inv Register.control := h.register (by decide)
  exact (keeps_onBus ((hwrite (by decide) _).bind fun _ _ =>
    (hwrite (by decide) _).bind fun _ _ => hcontrol.setBits _)).state.bind fun _ =>
      within_enter .running .aborted

/-! ### Leaving a transfer -/

omit [Bus β] h in
/-- A channel as the steps of a transfer leave it, somewhere on the way. -/
structure Unsettled (inv : β → Prop) (channel : Channel β) : Prop where
  state_ne : channel.state ≠ .idle
  bus : inv channel.bus

omit [Bus β] h in
/-- A transfer that has begun has left `idle`. -/
theorem At.unsettled {state : DmaState} {channel : Channel β} (h : At inv state channel)
    (hstate : state ≠ .idle) : Unsettled inv channel :=
  ⟨h.state_eq ▸ hstate, h.bus⟩

omit h in
/-- The last access to the bus has acknowledged the end of a transfer. -/
structure Acknowledged (inv : β → Prop) (bus : β) : Prop where
  keeps : inv bus
  exists_write : ∃ before value, inv before ∧ value &&& Bits.transferDone = Bits.transferDone ∧
    (Bus.write32 Register.status value).run before = .ok ((), bus)

/-- The write of the status register is the access that acknowledges. -/
theorem within_write32_status {value : UInt32}
    (hvalue : value &&& Bits.transferDone = Bits.transferDone) :
    Within clock 1 inv (Bus.write32 Register.status value) fun _ => Acknowledged inv := by
  have hstatus : Bus.HasRegister clock inv Register.status := h.register (by decide)
  intro bus hbus
  obtain ⟨_, next, hrun, hclock, hnext, -⟩ := hstatus.write32 value bus hbus
  exact ⟨_, next, hrun, hclock, hnext, bus, value, hbus, hvalue, hrun⟩

/-- An engine that is acknowledged is idle again. -/
theorem within_acknowledge (state : DmaState) :
    Within (ticks clock) 1 (At inv state) (acknowledge (β := β))
      fun _ => At (Acknowledged inv) .idle :=
  (within_onBus (within_write32_status h rfl)).bind fun _ => within_enter state .idle

/-- An engine that is recovered is idle again, and the end of its transfer acknowledged. -/
theorem within_recover (state : DmaState) :
    Within (ticks clock) 4 (At inv state) (recover (β := β))
      fun _ => At (Acknowledged inv) .idle := by
  have hdma : Bus.HasRegister clock inv Register.dmaControl := h.register (by decide)
  have hcontrol : Bus.HasRegister clock inv Register.control := h.register (by decide)
  exact (within_onBus ((hdma.write32 _).state.bind fun _ => (hcontrol.setBits _).state.bind
    fun _ => within_write32_status h (by decide))).bind fun _ => within_enter state .idle

omit h in
/-- From wherever the steps of a transfer have left the engine it is brought back to `idle`, with
a bus that satisfies `ended`. -/
def Settles (clock : β → Nat) (inv ended : β → Prop) : Prop :=
  Within (ticks clock) 4 (Unsettled inv) (settle (β := β)) fun _ => At ended .idle

/-- From every state on the way there is a way back to `idle`. -/
theorem settles_acknowledged : Settles clock inv (Acknowledged inv) := by
  intro channel hchannel
  rw [run_settle]
  cases hstate : channel.state with
  | idle => exact absurd hstate hchannel.state_ne
  | completed | aborted =>
    exact (within_acknowledge h _).le (by omega) channel ⟨hstate, hchannel.bus⟩
  | resetRequested | armed | running =>
    exact within_recover h _ channel ⟨hstate, hchannel.bus⟩

/-- Finishing acknowledges the end of a transfer, and cannot fail. -/
theorem within_finish {state : DmaState} (hstate : state = .completed ∨ state = .aborted) :
    Within (ticks clock) 1 (At inv state) (finish (β := β)).run
      (Ending (fun _ => At (Acknowledged inv) .idle) fun _ _ => False) := by
  have hacknowledge : Within (ticks clock) 1 (At inv state)
      (perform acknowledge : Attempt Error (Channel β) Unit).run
      (Ending (fun _ => At (Acknowledged inv) .idle) fun _ _ => False) :=
    (within_acknowledge h state).perform
  intro channel hchannel
  have hrun : finish.run.run channel =
      (perform acknowledge : Attempt Error (Channel β) Unit).run.run channel := by
    rw [run_finish, hchannel.state_eq]
    rcases hstate with rfl | rfl <;> rfl
  rw [hrun]
  exact hacknowledge channel hchannel

/-! ### A transfer to flash -/

omit h in
/-- The three phases of a transfer to flash, as they can be told apart by the bus: before the engine
is started, while it runs, and once it has been seen to be done. -/
structure Phases (clock : β → Nat) (ready started done : β → Prop) : Prop where
  serves_ready : Bus.Serves clock ready
  serves_started : Bus.Serves clock started
  ready_of_started : ∀ bus, started bus → ready bus
  start : Within clock 2 ready (Bus.setBits Register.control Bits.startWrite) fun _ => started
  look : Within clock 1 started (Bus.anySet Register.status Bits.transferDone)
    fun isDone bus => if isDone then done bus else started bus

/-- The phases need not be told apart. -/
theorem phases : Phases clock inv inv inv where
  serves_ready := h
  serves_started := h
  ready_of_started _ hbus := hbus
  start := by
    have hcontrol : Bus.HasRegister clock inv Register.control := h.register (by decide)
    exact (hcontrol.setBits _).state
  look := by
    have hstatus : Bus.HasRegister clock inv Register.status := h.register (by decide)
    refine (hstatus.anySet _).state.mono (Nat.le_refl _) (fun _ hbus => hbus)
      fun isDone _ hbus => ?_
    cases isDone <;> exact hbus

omit [Bus β] h in
/-- What a transfer to flash waits for. -/
def writeWaits : List Awaited := [.engineIdle, .engineReset, .transferOut]

namespace Phases

variable {ready started done failed ended : β → Prop} (phases : Phases clock ready started done)

omit h

include phases

/-- A transfer to flash is started once and then waited for; given up, it is left running. -/
theorem within_runWrite (hpoll : poll.Reaches limit) (data : Bytes) :
    Within (ticks clock) (limit + 8) (At ready .armed) (runWrite (β := β) poll data).run
      (Ending (fun _ => At done .completed)
        fun e channel => At started .running channel ∧ e.IsTimeoutOf [.transferOut]) := by
  have hwait : Within clock (1 * (limit + 1)) started
      (poll.wait .transferOut (perform (Bus.anySet Register.status Bits.transferDone))).run
      (Ending (fun _ => done) fun e bus => started bus ∧ e.IsTimeoutOf [.transferOut]) :=
    (Within.wait_perform hpoll phases.look).attempt_mono (fun _ _ h => h)
      fun _ _ h => ⟨h.1, .transferOut, by decide, h.2⟩
  unfold runWrite
  refine Within.le ((within_expect .armed).attempt_bind fun _ =>
    (within_enter .armed .running).perform.attempt_bind fun _ =>
    (within_tryOnBus ((keeps_clearMarker phases.serves_ready 3).state.perform.attempt_bind fun _ =>
      (keeps_clearMarker phases.serves_ready 2).state.perform.attempt_bind fun _ =>
      phases.start.perform.attempt_bind fun _ =>
      (phases.serves_started.dmaToDevice _).state.perform.attempt_bind fun _ =>
      hwait)).attempt_bind fun _ =>
    (within_enter .running .completed).perform) ?_
  omega

/-- The steps of a transfer to flash end at `completed`, or with a timeout of one of their waits. -/
theorem within_writeSteps (hpoll : poll.Reaches limit) (setup : TransferSetup) (data : Bytes) :
    Within (ticks clock) (3 * limit + 29) (At ready .idle) (writeSteps (β := β) poll setup data).run
      (Ending (fun _ => At done .completed) fun e channel =>
        Unsettled ready channel ∧ e.IsTimeoutOf writeWaits) := by
  unfold writeSteps
  refine Within.le (((within_reset phases.serves_ready hpoll).attempt_mono (fun _ _ h => h)
      fun _ _ h => ⟨h.1.unsettled (by decide), h.2.mono (by decide)⟩).attempt_bind fun _ =>
    ((within_arm phases.serves_ready setup data).attempt_mono (fun _ _ h => h)
      fun _ _ h => h.elim).attempt_bind fun _ =>
    (phases.within_runWrite hpoll data).attempt_mono (fun _ _ h => h)
      fun _ _ h => ⟨⟨h.1.state_eq ▸ by decide, phases.ready_of_started _ h.1.bus⟩,
        h.2.mono (by decide)⟩) ?_
  omega

/-- A complete transfer ends at `idle`, once it is done as well as when it has been given up. -/
theorem within_write (hended : Settles clock done ended) (hfailed : Settles clock ready failed)
    (hpoll : poll.Reaches limit) (setup : TransferSetup) (data : Bytes) :
    Within (ticks clock) (3 * limit + 33) (At ready .idle) (write (β := β) poll setup data).run
      (Ending (fun _ => At ended .idle)
        fun e channel => At failed .idle channel ∧ e.IsTimeoutOf writeWaits) := by
  have hleave : ∀ {inv ended : β → Prop}, Settles clock inv ended → ∀ outcome : Except Error Unit,
      Within (ticks clock) 4 (Unsettled inv) (do settle; return outcome)
        fun r channel => r = outcome ∧ At ended .idle channel :=
    fun hsettles outcome => Within.bind (n := 0) hsettles fun _ => .pure fun _ h => ⟨rfl, h⟩
  have hsettle : ∀ outcome : Except Error Unit, Within (ticks clock) 4
      (Ending (fun _ => At done .completed)
        (fun e channel => Unsettled ready channel ∧ e.IsTimeoutOf writeWaits) outcome)
      (do settle; return outcome) (Ending (fun _ => At ended .idle)
        fun e channel => At failed .idle channel ∧ e.IsTimeoutOf writeWaits) := by
    rintro (e | _) channel hend
    · obtain ⟨_, next, hrun, hclock, rfl, hnext⟩ := hleave hfailed (.error e) channel hend.1
      exact ⟨_, next, hrun, hclock, hnext, hend.2⟩
    · obtain ⟨_, next, hrun, hclock, rfl, hnext⟩ :=
        hleave hended (.ok ()) channel (hend.unsettled (by decide))
      exact ⟨_, next, hrun, hclock, hnext⟩
  intro channel hchannel
  rw [write, run_attempt_bind (run_expect_self hchannel.state_eq)]
  exact (phases.within_writeSteps hpoll setup data).bind hsettle channel hchannel

end Phases

/-- The transfer to flash on a bus whose phases are all the same. -/
theorem within_runWrite (hpoll : poll.Reaches limit) (data : Bytes) :
    Within (ticks clock) (limit + 8) (At inv .armed) (runWrite (β := β) poll data).run
      (Ending (fun _ => At inv .completed)
        fun e channel => At inv .running channel ∧ e.IsTimeoutOf [.transferOut]) :=
  (phases h).within_runWrite hpoll data

/-- The complete transfer on a bus whose phases are all the same. -/
theorem within_write {ended : β → Prop} (hsettles : Settles clock inv ended)
    (hpoll : poll.Reaches limit) (setup : TransferSetup) (data : Bytes) :
    Within (ticks clock) (3 * limit + 33) (At inv .idle) (write (β := β) poll setup data).run
      fun outcome channel => At ended .idle channel ∧
        Ending Any (Error.IsTimeoutOf writeWaits) outcome := by
  refine ((phases h).within_write hsettles hsettles hpoll setup data).mono (Nat.le_refl _)
    (fun _ h => h) fun outcome channel hend => ?_
  cases outcome with
  | ok _ => exact ⟨hend, trivial⟩
  | error e => exact hend

omit [Bus β] h in
/-- A channel between two transfers. -/
def IsIdle (channel : Channel β) : Prop := channel.state = .idle

omit h in
/-- On a bus that always answers, a complete transfer returns, and leaves the engine idle. -/
theorem keeps_write (answers : Bus.Answers clock) (hpoll : poll.Reaches limit)
    (setup : TransferSetup) (data : Bytes) :
    Keeps (ticks clock) (3 * limit + 33) IsIdle (write (β := β) poll setup data).run Any :=
  (within_write answers.serves (settles_acknowledged answers.serves) hpoll setup data).mono
    (Nat.le_refl _) (fun _ hidle => ⟨hidle, trivial⟩) fun _ _ hend => ⟨hend.1.state_eq, trivial⟩

end Channel

/-! ## Reading into a buffer -/

/-- A page is lost: one of its fields has more damage than its code repairs. -/
def Error.IsLossOf (page : Nat) (e : Error) : Prop := ∃ field, e = .uncorrectable page field

namespace Reading

/-- The clock of the bus, read on a reading. -/
def ticks (clock : β → Nat) (reading : Reading β) : Nat := clock reading.channel.bus

/-- `pre` holds of the channel, and the buffer has `n` bytes. -/
structure With (n : Nat) (pre : Channel β → Prop) (reading : Reading β) : Prop where
  channel : pre reading.channel
  size_eq : reading.data.size = n

variable {n : Nat}

/-- An action of the channel leaves the buffer alone. -/
theorem within_onChannel {m : Action (Channel β) α} {pre : Channel β → Prop}
    {post : α → Channel β → Prop} (h : Within (Channel.ticks clock) k pre m post) :
    Within (ticks clock) k (With n pre) (onChannel m) fun a => With n (post a) := by
  intro reading hpre
  obtain ⟨a, channel, hrun, hclock, hpost⟩ := h reading.channel hpre.channel
  refine ⟨a, { reading with channel }, ?_, hclock, hpost, hpre.size_eq⟩
  rw [run_onChannel, hrun, endIn_ok]

/-- The same for an attempt. -/
theorem within_tryOnChannel {m : Attempt Error (Channel β) α} {pre : Channel β → Prop}
    {post : α → Channel β → Prop} {fail : Error → Channel β → Prop}
    (h : Within (Channel.ticks clock) k pre m.run (Ending post fail)) :
    Within (ticks clock) k (With n pre) (tryOnChannel m).run
      (Ending (fun a => With n (post a)) fun e => With n (fail e)) := by
  refine (within_onChannel h).mono (Nat.le_refl _) (fun _ h => h) fun r _ hend => ?_
  cases r <;> exact hend

/-- The same for an attempt that does not fail where it is made. -/
theorem within_tryOnChannel_sure {m : Attempt Error (Channel β) α} {pre : Channel β → Prop}
    {post : α → Channel β → Prop} {fail : Error → Reading β → Prop}
    (h : Within (Channel.ticks clock) k pre m.run (Ending post fun _ _ => False)) :
    Within (ticks clock) k (With n pre) (tryOnChannel m).run
      (Ending (fun a => With n (post a)) fail) :=
  (within_tryOnChannel h).attempt_mono (fun _ _ h => h) fun _ _ h => h.channel.elim

/-- So does an action of the bus, which leaves the state of the engine alone as well. -/
theorem keeps_onBus {m : Action β α} {post : α → Prop} {state : DmaState}
    (h : Keeps clock k inv m post) :
    Keeps (ticks clock) k (With n (Channel.At inv state)) (onBus m) post :=
  (within_onChannel (Channel.keeps_onBus h)).mono (Nat.le_refl _) (fun _ h => h) fun _ _ h =>
    ⟨⟨h.channel.1, h.size_eq⟩, h.channel.2⟩

variable [Bus β] (h : Bus.Serves clock inv) {poll : Poll} {limit : Nat}

include h

/-- The data arrives in one access, and fills the buffer it is given. -/
theorem keeps_receive (state : DmaState) :
    Keeps (ticks clock) 1 (With n (Channel.At inv state)) (receive (β := β)) Any := by
  intro reading hreading
  obtain ⟨filled, bus, hrun, hclock, hbus, hfilled⟩ :=
    h.dmaFromDevice reading.data reading.channel.bus hreading.channel.bus
  refine ⟨(), { reading with channel.bus := bus, data := filled }, ?_, hclock,
    ⟨⟨hreading.channel.state_eq, hbus⟩, hfilled.trans hreading.size_eq⟩, trivial⟩
  rw [run_receive, hrun]

/-- A correction looks at all fields and mends them in the buffer. -/
theorem keeps_correctFields (g : Geometry) (state : DmaState) :
    Keeps (ticks clock) 1076 (With n (Channel.At inv state)) (correctFields (β := β) g) Any := by
  intro reading hreading
  obtain ⟨result, bus, hrun, hclock, hbus, hend⟩ :=
    Ecc.ends_correct h g reading.data reading.channel.bus hreading.channel.bus
  have hchannel : Channel.At inv state { reading.channel with bus } :=
    ⟨hreading.channel.state_eq, hbus⟩
  rw [run_correctFields, hrun]
  cases result with
  | ok result =>
    exact ⟨.ok result.1, { reading with channel.bus := bus, data := result.2 }, rfl, hclock,
      ⟨hchannel, hend.size_eq.trans hreading.size_eq⟩, trivial⟩
  | error lost =>
    exact ⟨.error lost, { reading with channel.bus := bus }, rfl, hclock,
      ⟨hchannel, hreading.size_eq⟩, trivial⟩

omit [Bus β] h in
/-- What is booked leaves channel and buffer alone. -/
theorem within_book {fail : Error → Reading β → Prop} {pre : Channel β → Prop}
    (book : Reading β → Reading β) (hchannel : ∀ reading, (book reading).channel = reading.channel)
    (hdata : ∀ reading, (book reading).data = reading.data) :
    Within (ticks clock) 0 (With n pre) (modify book : Attempt Error (Reading β) PUnit).run
      (Ending (fun _ => With n pre) fail) := by
  refine fun reading h => ⟨.ok ⟨⟩, book reading, rfl, Nat.le_of_eq ?_, ?_, ?_⟩
  · rw [ticks, ticks, hchannel, Nat.add_zero]
  · rw [hchannel]
    exact h.channel
  · rw [hdata]
    exact h.size_eq

/-- A read that has lost its page, and has stopped the engine for that. -/
def Lost (inv : β → Prop) (n page : Nat) (e : Error) (reading : Reading β) : Prop :=
  With n (Channel.At inv .aborted) reading ∧ e.IsLossOf page

/-- A repair acknowledges the fields it has mended, or stops the engine over a field that is
lost. -/
theorem within_repair (g : Geometry) (page : Nat) :
    Within (ticks clock) 1080 (With n (Channel.At inv .running)) (repair (β := β) g page).run
      (Ending (fun _ => With n (Channel.At inv .running)) (Lost inv n page)) := by
  have hstatus : Bus.HasRegister clock inv Register.status := h.register (by decide)
  unfold repair
  refine (keeps_correctFields h g .running).state.perform.attempt_bind (n := 4) fun result => ?_
  cases result with
  | ok fixed =>
    exact Within.le (k := 0 + 1) ((within_book (credit fixed) (fun _ => rfl)
      fun _ => rfl).attempt_bind fun _ => (keeps_onBus (hstatus.write32 _)).state.perform)
      (by omega)
  | error lost =>
    exact Within.le (k := 0 + (4 + 0)) ((within_book debit (fun _ => rfl) fun _ => rfl).attempt_bind
      fun _ => (within_onChannel (Channel.within_abandon h)).perform.attempt_bind fun _ =>
        Within.throw fun _ hlost => ⟨hlost, lost.field, rfl⟩) (by omega)

/-- A look at the status register may take a whole repair. -/
theorem within_look (g : Geometry) (page : Nat) :
    Within (ticks clock) 1082 (With n (Channel.At inv .running)) (look (β := β) g page).run
      (Ending (fun _ => With n (Channel.At inv .running)) (Lost inv n page)) := by
  have hstatus : Bus.HasRegister clock inv Register.status := h.register (by decide)
  have hover : Within (ticks clock) 1 (With n (Channel.At inv .running)) (do
      let status ← perform (onBus (Bus.read32 Register.status))
      return status &&& Bits.transferDone != 0 && status &&& Bits.eccEvent == 0 :
        Attempt Error (Reading β) Bool).run
      (Ending (fun _ => With n (Channel.At inv .running)) (Lost inv n page)) :=
    (keeps_onBus hstatus.read32).state.perform.attempt_bind (n := 0) fun _ =>
      Within.attempt_pure fun _ h => h
  unfold look
  refine (keeps_onBus (hstatus.anySet _)).state.perform.attempt_bind (n := 1081) fun hasEvent => ?_
  cases hasEvent with
  | true => exact (within_repair h g page).attempt_bind fun _ => hover
  | false => exact hover.le (by omega)

/-- How a read fails: it takes too long and the engine is left running, or the page is lost. -/
def Fails (inv : β → Prop) (n page : Nat) (e : Error) (reading : Reading β) : Prop :=
  With n (Channel.At inv .running) reading ∧ e.IsTimeout ∨ Lost inv n page e reading

/-- A read takes at most one look for every turn of its wait. -/
theorem within_runRead (hpoll : poll.Reaches limit) (g : Geometry) (page : Nat) :
    Within (ticks clock) (1082 * (limit + 1) + 4) (With n (Channel.At inv .armed))
      (runRead (β := β) poll g page).run
      (Ending (fun _ => With n (Channel.At inv .completed)) (Fails inv n page)) := by
  have hcontrol : Bus.HasRegister clock inv Register.control := h.register (by decide)
  have hstatus : Bus.HasRegister clock inv Register.status := h.register (by decide)
  have hleave : Within (ticks clock) 0 (With n (Channel.At inv .running)) (do
      perform (onChannel (Channel.enter .completed))
      return (← get).reports : Attempt Error (Reading β) (List FieldReport)).run
      (Ending (fun _ => With n (Channel.At inv .completed)) (Fails inv n page)) :=
    (within_onChannel (Channel.within_enter _ _)).perform.attempt_bind (n := 0) fun _ =>
      fun reading h => ⟨.ok reading.reports, reading, rfl, Nat.le_refl _, h⟩
  unfold runRead
  refine Within.le ((within_tryOnChannel_sure (Channel.within_expect .armed)).attempt_bind fun _ =>
    (within_onChannel (Channel.within_enter .armed .running)).perform.attempt_bind fun _ =>
    (keeps_onBus (hcontrol.setBits _)).state.perform.attempt_bind fun _ =>
    (keeps_receive h .running).state.perform.attempt_bind fun _ =>
    (keeps_onBus (hcontrol.allClear _)).state.perform.attempt_bind
      (n := 1082 * (limit + 1)) fun unchecked => ?_) (by omega)
  -- Without checks there is a flag to look at; with them a look may take a whole repair.
  cases unchecked with
  | true =>
    have hdone : Keeps (ticks clock) 1 (With n (Channel.At inv .running))
        (onBus (Bus.anySet Register.status Bits.transferDone)) Any :=
      keeps_onBus (hstatus.anySet _)
    exact (((Keeps.wait hpoll hdone).attempt_mono (fun _ _ h => h) fun _ _ h =>
      .inl ⟨h.1, _, h.2⟩).attempt_bind fun _ => hleave).le (by omega)
  | false =>
    have hlook : Within (ticks clock) 1082 (With n (Channel.At inv .running))
        (look (β := β) g page).run (Ending (fun isReady reading =>
          if isReady then With n (Channel.At inv .running) reading
          else With n (Channel.At inv .running) reading) (Fails inv n page)) :=
      (within_look h g page).attempt_mono (fun isReady _ h => by cases isReady <;> exact h)
        fun _ _ h => .inr h
    exact (Within.wait hpoll hlook fun _ h => .inl ⟨h, _, rfl⟩).attempt_bind fun _ => hleave

/-- The ways in which a complete read can fail. -/
def IsFailure (page : Nat) (e : Error) : Prop := e.IsTimeout ∨ e.IsLossOf page

/-- The steps of a read end at `completed`, or leave the engine where settling finds it. -/
theorem within_readSteps (hpoll : poll.Reaches limit) (setup : TransferSetup) (g : Geometry)
    (page : Nat) :
    Within (ticks clock) (1084 * limit + 1107) (With n (Channel.At inv .idle))
      (readSteps (β := β) poll setup g page).run
      (Ending (fun _ => With n (Channel.At inv .completed)) fun e reading =>
        With n (Channel.Unsettled inv) reading ∧ IsFailure page e) := by
  unfold readSteps
  refine Within.le (((within_tryOnChannel (Channel.within_reset h hpoll)).attempt_mono
      (fun _ _ h => h) fun e reading h => ⟨⟨h.channel.1.unsettled (by decide), h.size_eq⟩,
        .inl h.channel.2.isTimeout⟩).attempt_bind (n := 17 + (1082 * (limit + 1) + 4))
    fun _ reading hreading => ?_) (by omega)
  rw [run_attempt_bind (show (get : Attempt Error (Reading β) (Reading β)).run.run reading =
    .ok (.ok reading, reading) from rfl)]
  refine ((within_tryOnChannel_sure (Channel.within_arm h setup reading.data)).attempt_bind fun _ =>
    (within_runRead h hpoll g page).attempt_mono (fun _ _ h => h) fun e next hfails => ?_)
    reading hreading
  rcases hfails with ⟨hrunning, he⟩ | ⟨haborted, he⟩
  · exact ⟨⟨hrunning.channel.unsettled (by decide), hrunning.size_eq⟩, .inl he⟩
  · exact ⟨⟨haborted.channel.unsettled (by decide), haborted.size_eq⟩, .inr he⟩

/-- A complete read ends at `idle` and keeps the length of the buffer, however it goes. -/
theorem within_read {ended : β → Prop} (hsettles : Channel.Settles clock inv ended)
    (hpoll : poll.Reaches limit) (setup : TransferSetup) (g : Geometry) (page : Nat) :
    Within (ticks clock) (1084 * limit + 1111) (With n (Channel.At inv .idle))
      (read (β := β) poll setup g page).run
      fun outcome reading => With n (Channel.At ended .idle) reading ∧
        Ending Any (IsFailure page) outcome := by
  intro reading hreading
  have hexpect : (tryOnChannel (Channel.expect .idle)).run.run reading = .ok (.ok (), reading) := by
    rw [run_tryOnChannel, Channel.run_expect_self hreading.channel.state_eq, endIn_ok]
  rw [read, run_attempt_bind hexpect]
  refine Within.afterwards ((within_readSteps h hpoll setup g page).mono
    (Nat.le_refl _) (fun _ h => h) fun outcome reading hend => ?_) (within_onChannel hsettles)
    reading hreading
  cases outcome with
  | ok _ => exact ⟨⟨hend.channel.unsettled (by decide), hend.size_eq⟩, trivial⟩
  | error e => exact hend

end Reading

end NandFlash
