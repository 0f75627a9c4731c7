import NandFlash.Proofs.Sim.Flipping
import NandFlash.Proofs.Sim.Queue
import NandFlash.Proofs.Sim.Tracing

/-!
# What a read leaves behind

However a read ends, the transfer is not reported to be over any more, and no report is queued. An
ECC event can be left, though: giving a page up acknowledges the event of the lost field while the
reports behind it are still queued, so that the event of the next one is raised before the queue is
dropped. The main statement says for each way in which a read can end when an event is left.
-/

namespace NandFlash.Sim

namespace Engine

variable {engine other : Engine}

/-! ## Preparing a transfer while reports are queued -/

/-- The reports that are queued behind the one being shown. -/
def leftOver (engine : Engine) : List DamageReport :=
  if engine.reading then engine.reports.drop 1 else []

variable (engine) (strength : Strength) (spareSize : Nat)

theorem hasFlag_staged_done :
    (engine.staged strength spareSize).hasFlag Bits.transferDone = false := by
  have hcleared : ~~~(Bits.transferDone &&& statusFlags) &&&
      (~~~(Bits.readyEdge &&& statusFlags) &&& Bits.transferDone) = 0 := by decide
  rw [hasFlag]
  simp (disch := decide) only [staged, clearFlags, clearBits, configureEcc, adjustControl,
    register_setRegister_of_ne, register_setRegister_self]
  rw [UInt32.and_assoc, UInt32.and_assoc, hcleared, UInt32.and_zero]
  rfl

theorem control_readied :
    (engine.readied strength spareSize).register Register.control =
      (engine.prepared strength spareSize).register Register.control := by
  rw [control_prepared, readied, register_adjustControl,
    register_acknowledge _ _ (by decide) (by decide)]
  simp (disch := decide) only [staged, clearFlags, clearBits, configureEcc, adjustControl,
    register_setRegister_of_ne, register_setRegister_self]

theorem spareSize_readied :
    (engine.readied strength spareSize).register Register.spareSize = UInt32.ofNat spareSize := by
  rw [readied, adjustControl, register_setRegister_of_ne _ _ (by decide),
    register_acknowledge _ _ (by decide) (by decide)]
  simp (disch := decide) only [staged, clearFlags, clearBits, configureEcc, adjustControl,
    register_setRegister_of_ne, register_setRegister_self]

theorem hasFlag_adjustControl (keep put flag : UInt32) :
    (engine.adjustControl keep put).hasFlag flag = engine.hasFlag flag :=
  hasFlag_congr (register_setRegister_of_ne _ _ (by decide)) flag

variable {engine}

theorem Stored.readied (h : Stored engine) : Stored (engine.readied strength spareSize) :=
  ((h.staged strength spareSize).acknowledge _).adjustControl _ (by decide)

/-- If a read is being shown, preparing the next transfer takes it one report on. -/
theorem Stored.queued_readied (h : Stored engine) (hreading : engine.reading = true) :
    Queued engine.leftOver (engine.readied strength spareSize) := by
  obtain ⟨hqueued, -, -⟩ := queued_acknowledge (h.staged strength spareSize) hreading
  rw [leftOver, if_pos hreading]
  refine hqueued.congr (h.readied strength spareSize) rfl rfl (hasFlag_adjustControl _ _ _ _)
    fun i _ => register_setRegister_of_ne _ _ ?_
  have hcontrol : Register.control = 0x8A0 := rfl
  have hfieldStatus : Register.fieldStatus = 0x8D0 := rfl
  omega

theorem Stored.flags_readied (h : Stored engine) :
    (engine.readied strength spareSize).hasFlag Bits.eccEvent = !engine.leftOver.isEmpty ∧
      (engine.readied strength spareSize).hasFlag Bits.transferDone =
        (engine.reading && engine.leftOver.isEmpty) := by
  rw [Engine.readied, hasFlag_adjustControl, hasFlag_adjustControl]
  cases hreading : engine.reading with
  | true =>
    obtain ⟨-, hevent, hdone⟩ := queued_acknowledge (h.staged strength spareSize) hreading
    rw [hevent, hdone, hasFlag_staged_done, leftOver, if_pos hreading]
    exact ⟨rfl, rfl⟩
  | false =>
    rw [acknowledge_eq (engine.staged strength spareSize) (.inl hreading), leftOver, hreading]
    exact ⟨hasFlag_clearFlags_self _ (by decide), (hasFlag_clearFlags_of_keep _ (by decide)).trans
      (engine.hasFlag_staged_done strength spareSize)⟩

/-! ## What the ECC stage finds -/

/-- Damage is looked for by the geometry that two registers hold. -/
theorem findDamage_congr
    (hcontrol : engine.register Register.control = other.register Register.control)
    (hspare : engine.register Register.spareSize = other.register Register.spareSize)
    (cache : Bytes) (reference? : Option Bytes) :
    engine.findDamage cache reference? = other.findDamage cache reference? := by
  have hsize : engine.spareSize = other.spareSize := by
    rw [Engine.spareSize, hspare, Engine.spareSize]
  have hgeometry : engine.geometry? = other.geometry? := by
    unfold geometry? strength? page
    rw [hcontrol, hsize]
  unfold findDamage
  rw [hcontrol, hgeometry, hsize]

/-- Without a check no damage is found. -/
theorem findDamage_unchecked (h : engine.register Register.control &&& Bits.eccCheck = 0)
    (cache : Bytes) (reference? : Option Bytes) : engine.findDamage cache reference? = [] := by
  unfold findDamage
  rw [h]
  rfl

/-! ## Up to the start bit -/

theorem hang_acknowledge (engine : Engine) (flags : UInt32) :
    (engine.acknowledge flags).hang = engine.hang := by
  unfold acknowledge
  simp only
  split
  · rw [presentNext_eq]
    rfl
  · rfl

/-- What is known of the controller side when a transfer has been prepared, whatever was going on
before. -/
structure Readies (old : Engine) (setup : TransferSetup) (engine : Engine) : Prop extends
    Stored engine where
  hang_eq : engine.hang = old.hang
  check_eq : engine.register Register.control &&& Bits.eccCheck =
    if setup.strength = .none then 0 else Bits.eccCheck
  damage_eq : ∀ cache reference?, engine.findDamage cache reference? =
    (old.prepared setup.strength setup.spareSize).findDamage cache reference?
  event_eq : engine.hasFlag Bits.eccEvent = !old.leftOver.isEmpty
  done_eq : engine.hasFlag Bits.transferDone = (old.reading && old.leftOver.isEmpty)
  queued : old.reading = true → Queued old.leftOver engine

theorem Stored.readies (h : Stored engine) {value : UInt32}
    (hvalue : value &&& Bits.dmaReset = Bits.dmaReset) (setup : TransferSetup) :
    Readies engine setup
      ((engine.writeDmaControl value).readied setup.strength setup.spareSize) := by
  -- What is left over from before comes through the reset, which does not stop a read.
  obtain ⟨reset, hreset⟩ : ∃ reset, reset = engine.writeDmaControl value := ⟨_, rfl⟩
  have hstored : Stored reset := hreset ▸ h.writeDmaControl value
  have hreading : reset.reading = engine.reading := by
    rw [hreset, writeDmaControl_eq hvalue]
    rfl
  have hleftOver : reset.leftOver = engine.leftOver := by
    rw [leftOver, leftOver, hreading, hreset, writeDmaControl_eq hvalue]
    rfl
  have hcontrol : (reset.readied setup.strength setup.spareSize).register Register.control =
      (engine.prepared setup.strength setup.spareSize).register Register.control := by
    rw [control_readied, control_prepared, control_prepared, hreset, register_writeDmaControl,
      if_neg (by decide)]
  obtain ⟨hevent, hdone⟩ := hstored.flags_readied setup.strength setup.spareSize
  rw [← hreset]
  refine ⟨hstored.readied _ _, ?_, ?_, findDamage_congr hcontrol ?_, ?_, ?_, fun hshown => ?_⟩
  · show ((reset.staged _ _).acknowledge _).hang = _
    rw [hang_acknowledge, hreset, writeDmaControl_eq hvalue]
    rfl
  · rw [hcontrol]
    exact eccCheck_of_eccMask (engine.ecc_prepared _ _)
  · rw [spareSize_readied, spareSize_prepared]
  · rw [hevent, hleftOver]
  · rw [hdone, hreading, hleftOver]
  · rw [← hleftOver]
    exact hstored.queued_readied _ _ (hreading.trans hshown)

end Engine

namespace Device

variable {device : Device} {setup : TransferSetup} {poll : Poll} {limit page : Nat}
  {g : Geometry}

/-! ## Up to the wait -/

/-- The reports that a read is shown: of the damage that is found, or, if the engine hangs, those
that were left in the queue. -/
def shown (device : Device) (setup : TransferSetup) : List DamageReport :=
  if device.engine.hang then device.engine.leftOver
  else (device.engine.prepared setup.strength setup.spareSize).findDamage device.latches.cache
    (device.latches.cacheRow.bind fun row => device.array.reference[row]?)

/-- The controller side when the wait for the end of a read begins: it goes through what it is
shown, or it is silent. -/
structure Begun (device : Device) (setup : TransferSetup) (engine : Engine) : Prop extends
    engine.Stored where
  check_eq : engine.register Register.control &&& Bits.eccCheck =
    if setup.strength = .none then 0 else Bits.eccCheck
  event_eq : engine.hasFlag Bits.eccEvent =
    (!device.engine.leftOver.isEmpty || !(device.shown setup).isEmpty)
  queued_or_silent : engine.Queued (device.shown setup) ∨
    engine.hasFlag Bits.transferDone = false ∧ engine.hasFlag Bits.eccEvent = false
  shown_of_done : setup.strength = .none → engine.hasFlag Bits.transferDone = true →
    device.shown setup = []

theorem queued_started {engine : Engine} {queue : List DamageReport} (h : engine.Queued queue) :
    (engine.started .fromFlash).Queued queue :=
  h.congr (h.toStored.of_register (Engine.register_started _ _ _) (Engine.register_started _ _ _))
    rfl rfl (Engine.hasFlag_congr (Engine.register_started _ _ _) _)
    fun _ _ => Engine.register_started _ _ _

/-- An engine that hangs goes on with what was left, if a read was being shown. -/
theorem begun_of_hang {engine : Engine} (h : device.engine.Readies setup engine)
    (hhang : device.engine.hang = true) : Begun device setup (engine.started .fromFlash) := by
  have hregister := engine.register_started .fromFlash
  have hflag : ∀ flag, (engine.started .fromFlash).hasFlag flag = engine.hasFlag flag :=
    Engine.hasFlag_congr (hregister _)
  have hshown : device.shown setup = device.engine.leftOver := if_pos hhang
  refine ⟨h.toStored.of_register (hregister _) (hregister _), ?_, ?_, ?_, fun _ hdone => ?_⟩
  · rw [hregister, h.check_eq]
  · rw [hflag, h.event_eq, hshown, Bool.or_self]
  · cases hreading : device.engine.reading with
    | true => exact .inl (hshown ▸ queued_started (h.queued hreading))
    | false =>
      have hnone : device.engine.leftOver = [] := by
        rw [Engine.leftOver, hreading]
        rfl
      refine .inr ⟨?_, ?_⟩
      · rw [hflag, h.done_eq, hreading, Bool.false_and]
      · rw [hflag, h.event_eq, hnone]
        rfl
  · rw [hflag, h.done_eq, Bool.and_eq_true, List.isEmpty_iff] at hdone
    rw [hshown, hdone.2]

/-- One that does not hang looks for damage, and brings up the first report of it. An event that
was up stays up. -/
theorem begun_of_served {engine served : Engine} (h : device.engine.Readies setup engine)
    (hhang : device.engine.hang = false)
    (hserved : served = { engine.served .fromFlash with
      reports := (engine.served .fromFlash).findDamage device.latches.cache
        (device.latches.cacheRow.bind fun row => device.array.reference[row]?)
      reading := true }) : Begun device setup served.presentNext := by
  -- Serving the read queues its reports and touches no register until the first is presented.
  have hregister : ∀ offset, served.register offset = engine.register offset := by
    rw [hserved]
    exact engine.register_started .fromFlash
  have hreports : served.reports = device.shown setup := by
    rw [shown, hhang, if_neg Bool.false_ne_true, ← h.damage_eq, hserved]
    exact Engine.findDamage_congr (engine.register_started _ _) (engine.register_started _ _) _ _
  have hcheck : served.presentNext.register Register.control = engine.register Register.control := by
    rw [Engine.register_presentNext _ (by decide) (by decide), hregister]
  have hstored : served.Stored := h.toStored.of_register (hregister _) (hregister _)
  have hqueued := Engine.queued_presentNext hstored (by rw [hserved])
  rw [hreports] at hqueued
  refine ⟨hqueued.toStored, ?_, ?_, .inl hqueued, fun hnone _ => ?_⟩
  · rw [hcheck, h.check_eq]
  · rw [Engine.hasFlag_presentNext, Engine.hasFlag_congr (hregister _), h.event_eq, hreports,
      Engine.event_nextFlag]
  · rw [shown, hhang, if_neg Bool.false_ne_true, ← h.damage_eq]
    refine Engine.findDamage_unchecked ?_ _ _
    rw [h.check_eq, if_pos hnone]

/-- A started read fills the buffer, or nothing, and then the wait begins. -/
theorem exists_dmaFromDevice_begun {engine : Engine} (h : device.engine.Readies setup engine)
    (data : Bytes) : ∃ filled next,
      (Bus.dmaFromDevice data).run ({ device with engine := engine.started .fromFlash } : Device) =
        .ok (filled, next) ∧ Begun device setup next.engine := by
  cases hhang : device.engine.hang with
  | true =>
    have hhang' : (engine.started .fromFlash).hang = true := h.hang_eq.trans hhang
    exact ⟨_, _, run_dmaFromDevice_hang { device with engine := engine.started .fromFlash } hhang'
      data, begun_of_hang h hhang⟩
  | false =>
    exact ⟨_, _, run_dmaFromDevice_started { device with engine } (h.hang_eq.trans hhang) data,
      begun_of_served h hhang rfl⟩

/-! ## The wait -/

/-- How the wait for the end of a read ends. -/
def Waited (device : Device) (setup : TransferSetup) (page : Nat) :
    Except Error Unit → Reading Device → Prop :=
  Ending (fun _ reading => reading.channel.state = .running ∧
      reading.channel.bus.engine.Queued [] ∧
      (reading.channel.bus.engine.hasFlag Bits.eccEvent = true ↔
        setup.strength = .none ∧ device.engine.leftOver ≠ []))
    (Fails page (device.shown setup))

theorem run_isDone (next : Device) (data : Bytes) (stats : EccStats) (fixed : List FieldReport) :
    (perform (Reading.onBus (Bus.anySet Register.status Bits.transferDone)) :
      Attempt Error (Reading Device) Bool).run.run ⟨⟨.running, next⟩, data, stats, fixed⟩ =
      .ok (.ok (next.engine.hasFlag Bits.transferDone),
        ⟨⟨.running, next⟩, data, stats, fixed⟩) := by
  rw [run_perform (Reading.run_onBus_ok (run_anySet_status _) _ _ _ _),
    flags_eq _ rfl (by decide) (by decide), seen_and _ (by decide)]

/-- A wait for something that does not happen times out, and leaves everything alone. -/
theorem exists_wait_never {ready : Attempt Error (Reading Device) Bool} {reading : Reading Device}
    (hpoll : poll.Reaches limit) (h : ready.run.run reading = .ok (.ok false, reading)) :
    (poll.wait .transferIn ready).run.run reading =
      .ok (.error (.timeout .transferIn), reading) := by
  have hnever : Follows (poll.exhaust .transferIn)
      (fun e r last => r = .error e ∧ last = reading)
      ((poll.wait .transferIn ready).run.run reading) := follows_wait_never h
  rw [hpoll.exhaust_eq] at hnever
  obtain ⟨r, last, hrun, rfl, rfl⟩ := hnever.exists_of_ok
  exact hrun

/-- With ECC switched off the wait is for the end of the transfer alone. -/
theorem exists_wait_unchecked {next : Device} (hpoll : poll.Reaches limit)
    (h : Begun device setup next.engine) (hnone : setup.strength = .none) (page : Nat)
    (data : Bytes) (stats : EccStats) (fixed : List FieldReport) :
    ∃ outcome reading, (poll.wait .transferIn
        (perform (Reading.onBus (Bus.anySet Register.status Bits.transferDone)))).run.run
        ⟨⟨.running, next⟩, data, stats, fixed⟩ = .ok (outcome, reading) ∧
      Waited device setup page outcome reading := by
  have hasked := run_isDone next data stats fixed
  -- A look changes nothing, so that the first answer is that of every look.
  cases hdone : next.engine.hasFlag Bits.transferDone with
  | true =>
    rw [hdone] at hasked
    have hshown := h.shown_of_done hnone hdone
    have hevent := h.event_eq
    rw [hshown, List.isEmpty_nil, Bool.not_true, Bool.or_false] at hevent
    refine ⟨_, _, run_wait hasked, rfl, ?_, ?_⟩
    · rcases h.queued_or_silent with hqueued | ⟨hsilent, -⟩
      · exact hshown ▸ hqueued
      · exact absurd (hdone.symm.trans hsilent) (by decide)
    · simp only [hevent, hnone, true_and, Bool.not_eq_true', List.isEmpty_eq_false_iff]
  | false =>
    rw [hdone] at hasked
    exact ⟨_, _, exists_wait_never hpoll hasked, rfl, rfl, h.toStored⟩

/-- With ECC switched on it goes through the reports. -/
theorem exists_wait_checked {next : Device} (hpoll : poll.Reaches limit)
    (h : Begun device setup next.engine) (hsome : setup.strength ≠ .none) (g : Geometry)
    (page : Nat) (data : Bytes) (stats : EccStats) (fixed : List FieldReport) :
    ∃ outcome reading, (poll.wait .transferIn (Reading.look g page)).run.run
        ⟨⟨.running, next⟩, data, stats, fixed⟩ = .ok (outcome, reading) ∧
      Waited device setup page outcome reading := by
  -- Either there is a queue to go through, or neither flag ever comes up.
  rcases h.queued_or_silent with hqueued | ⟨hdone, hevent⟩
  · obtain ⟨outcome, reading, hrun, -, hend⟩ := within_wait_look hpoll g page (device.shown setup)
      ⟨⟨.running, next⟩, data, stats, fixed⟩ ⟨rfl, [], device.shown setup, rfl, hqueued⟩
    refine ⟨outcome, reading, hrun, ?_⟩
    cases outcome with
    | error e => exact hend
    | ok _ =>
      obtain ⟨hstate, hthrough, hquiet⟩ := hend
      exact ⟨hstate, hthrough, by simp only [hquiet, hsome, Bool.false_eq_true, false_and]⟩
  · have hquiet : next.engine.register Register.status &&& (Bits.transferDone ||| Bits.eccEvent)
        &&& Bits.eccEvent = 0 := by
      rw [← bne_eq_false_iff_eq, seen_and _ (by decide), hevent]
    have hlook : (Reading.look g page).run.run ⟨⟨.running, next⟩, data, stats, fixed⟩ =
        .ok (.ok false, ⟨⟨.running, next⟩, data, stats, fixed⟩) := by
      rw [run_look_quiet _ rfl hquiet, seen_and _ (by decide), hdone]
    exact ⟨_, _, exists_wait_never hpoll hlook, rfl, rfl, h.toStored⟩

theorem exists_awaitRead {next : Device} (hpoll : poll.Reaches limit)
    (h : Begun device setup next.engine) (g : Geometry) (page : Nat) (data : Bytes)
    (stats : EccStats) (fixed : List FieldReport) :
    ∃ outcome reading, (awaitRead poll g page
        (next.engine.register Register.control &&& Bits.eccCheck == 0)).run.run
        ⟨⟨.running, next⟩, data, stats, fixed⟩ = .ok (outcome, reading) ∧
      Waited device setup page outcome reading := by
  rw [h.check_eq]
  by_cases hnone : setup.strength = .none
  · rw [if_pos hnone]
    exact exists_wait_unchecked hpoll h hnone page data stats fixed
  · rw [if_neg hnone]
    exact exists_wait_checked hpoll h hnone g page data stats fixed

/-! ## The whole read -/

/-- How the steps of a read end, before the transfer is left. -/
def Stepped (device : Device) (setup : TransferSetup) (page : Nat) :
    Except Error (List FieldReport) → Reading Device → Prop :=
  Ending (fun _ reading => reading.channel.state = .completed ∧
      reading.channel.bus.engine.Queued [] ∧
      (reading.channel.bus.engine.hasFlag Bits.eccEvent = true ↔
        setup.strength = .none ∧ device.engine.leftOver ≠ []))
    (Fails page (device.shown setup))

/-- Up to the start bit nothing fails on a device in which nothing is stored that acts at once. -/
theorem exists_ready (h : device.engine.Stored) (poll : Poll) (setup : TransferSetup)
    (data : Bytes) : ∃ reset engine,
      (Channel.reset poll).run.run ⟨.idle, device⟩ = .ok (.ok (), ⟨.resetRequested, reset⟩) ∧
      (Channel.arm setup data).run.run ⟨.resetRequested, reset⟩ =
        .ok (.ok (), ⟨.armed, { device with engine }⟩) ∧
      device.engine.Readies setup engine := by
  obtain ⟨value, hvalue, hreset⟩ := run_reset_stored h poll
  obtain ⟨reset, heq⟩ : ∃ reset, reset = device.modifyEngine (·.writeDmaControl value) := ⟨_, rfl⟩
  have hstored : reset.engine.Stored := by
    rw [heq]
    exact h.writeDmaControl value
  have hprepare := Channel.run_onBus_ok
    (run_prepare_stored hstored setup data ((hstored.staged _ _).acknowledge _)) .resetRequested
  refine ⟨reset, _, heq ▸ hreset, ?_, h.readies hvalue setup⟩
  refine run_attempt_step (Channel.run_expect_self rfl) ?_
  refine run_attempt_step (run_perform hprepare) ?_
  rw [run_perform (Channel.run_enter _ _ _), heq]
  simp only [modifyEngine]

theorem exists_readSteps (hpoll : poll.Reaches limit) (h : device.engine.Stored)
    (setup : TransferSetup) (g : Geometry) (page : Nat) (data : Bytes) (stats : EccStats)
    (fixed : List FieldReport) : ∃ outcome reading,
      (Reading.readSteps poll setup g page).run.run ⟨⟨.idle, device⟩, data, stats, fixed⟩ =
        .ok (outcome, reading) ∧ Stepped device setup page outcome reading := by
  obtain ⟨reset, engine, hreset, harm, hready⟩ := exists_ready h poll setup data
  obtain ⟨filled, next, hdma, hbegun⟩ := exists_dmaFromDevice_begun hready data
  obtain ⟨outcome, reading, hwait, hwaited⟩ :=
    exists_awaitRead hpoll hbegun g page filled stats fixed
  have harmed : ({ device with engine } : Device).engine.Stored := hready.toStored
  -- Up to the wait nothing can fail.
  have hsteps : (Reading.readSteps poll setup g page).run.run
      ⟨⟨.idle, device⟩, data, stats, fixed⟩ = (do
        awaitRead poll g page (next.engine.register Register.control &&& Bits.eccCheck == 0)
        perform (Reading.onChannel (Channel.enter .completed))
        return (← get).reports : Attempt Error (Reading Device) (List FieldReport)).run.run
        ⟨⟨.running, next⟩, filled, stats, fixed⟩ := by
    refine run_attempt_step (Reading.run_tryOnChannel_ok hreset _ _ _) ?_
    refine run_attempt_step rfl ?_
    exact run_attempt_step (Reading.run_tryOnChannel_ok harm _ _ _) (run_runRead harmed hdma)
  rw [hsteps]
  cases outcome with
  | error e => exact ⟨_, _, run_attempt_bind_error hwait, hwaited⟩
  | ok _ =>
    obtain ⟨hstate, hqueued, hevent⟩ := hwaited
    obtain ⟨⟨state, last⟩, filled, stats, fixed⟩ := reading
    exact ⟨_, _, run_attempt_step hwait (run_attempt_step (run_perform
      (Reading.run_onChannel_ok (Channel.run_enter _ _ _) _ _ _)) rfl), rfl, hqueued, hevent⟩

/-- What is left once a transfer has been left, too. -/
structure Left (event : Bool) (reading : Reading Device) : Prop where
  state_eq : reading.channel.state = .idle
  done_eq : reading.channel.bus.engine.hasFlag Bits.transferDone = false
  reports_eq : reading.channel.bus.engine.reports = []
  reading_eq : reading.channel.bus.engine.reading = false
  event_eq : reading.channel.bus.engine.hasFlag Bits.eccEvent = event

/-- A transfer that is over is left by clearing one flag; an event stays up. -/
theorem left_of_over {reading : Reading Device}
    (hstate : reading.channel.state = .completed ∨ reading.channel.state = .aborted)
    (hreports : reading.channel.bus.engine.reports = [])
    (hreading : reading.channel.bus.engine.reading = false) : ∃ last,
      (Reading.onChannel Channel.settle).run reading = .ok ((), last) ∧
      Left (reading.channel.bus.engine.hasFlag Bits.eccEvent) last := by
  obtain ⟨⟨state, next⟩, data, stats, fixed⟩ := reading
  have hacknowledge : Channel.acknowledge.run ⟨state, next⟩ =
      .ok ((), ⟨.idle, next.modifyEngine (·.clearFlags Bits.transferDone)⟩) :=
    run_step (Channel.run_onBus_ok (run_clearFlags (.inl hreading)) state)
      (Channel.run_enter _ _ _)
  have hsettle : Channel.settle.run ⟨state, next⟩ =
      .ok ((), ⟨.idle, next.modifyEngine (·.clearFlags Bits.transferDone)⟩) := by
    rw [← hacknowledge, Channel.run_settle]
    rcases hstate with h | h <;> obtain rfl : state = _ := h <;> rfl
  exact ⟨_, Reading.run_onChannel_ok hsettle _ _ _, rfl,
    Engine.hasFlag_clearFlags_self _ (by decide), hreports, hreading,
    Engine.hasFlag_clearFlags_of_keep _ (by decide)⟩

/-- One that is still going on is left by resets, and then both flags are cleared. -/
theorem left_of_running {reading : Reading Device} (hstate : reading.channel.state = .running)
    (hstored : reading.channel.bus.engine.Stored) : ∃ last,
      (Reading.onChannel Channel.settle).run reading = .ok ((), last) ∧ Left false last := by
  obtain ⟨⟨state, next⟩, data, stats, fixed⟩ := reading
  obtain rfl : state = .running := hstate
  -- It is the reset in the settling that drops the queue.
  obtain ⟨dropped, hdropped⟩ : ∃ dropped, dropped = next.modifyEngine (·.dropped) := ⟨_, rfl⟩
  obtain ⟨hreports, hreading⟩ : dropped.engine.reports = [] ∧ dropped.engine.reading = false := by
    rw [hdropped]
    exact ⟨(Engine.Stored.dropped hstored).1, (Engine.Stored.dropped hstored).2.1⟩
  have hbus : (do
      Bus.write32 Register.dmaControl (Bits.dmaEnable ||| Bits.dmaReset)
      Bus.setBits Register.control Bits.reset
      Bus.write32 Register.status (Bits.transferDone ||| Bits.eccEvent) : Action Device Unit).run
      next = .ok ((), dropped.modifyEngine (·.clearFlags (Bits.transferDone ||| Bits.eccEvent))) :=
    run_step (run_write32_dmaControl _ _) (run_step (hdropped ▸ run_reset_dropped next)
      (run_clearFlags (.inl hreading)))
  have hsettle : Channel.settle.run ⟨.running, next⟩ = .ok ((), ⟨.idle,
      dropped.modifyEngine (·.clearFlags (Bits.transferDone ||| Bits.eccEvent))⟩) := by
    rw [Channel.run_settle]
    exact run_step (Channel.run_onBus_ok hbus .running) (Channel.run_enter _ _ _)
  exact ⟨_, Reading.run_onChannel_ok hsettle _ _ _, rfl,
    Engine.hasFlag_clearFlags_self _ (by decide), hreports, hreading,
    Engine.hasFlag_clearFlags_self _ (by decide)⟩

/-- Whether an event is left behind, by how a read has ended: behind the field that was lost, or,
if nothing was checked, of an earlier read that was still being shown. -/
def LeavesEvent (device : Device) (setup : TransferSetup) (page : Nat) (event : Bool) :
    Except Error (List FieldReport) → Prop
  | .ok _ => event = true ↔ setup.strength = .none ∧ device.engine.leftOver ≠ []
  | .error (.uncorrectable lost field) => lost = page ∧ ∃ handled report rest,
      device.shown setup = handled ++ report :: rest ∧ report.field = field ∧
      (event = true ↔ rest ≠ [])
  | .error (.timeout awaited) => awaited = .transferIn ∧ event = false
  | .error _ => False

theorem exists_left {outcome : Except Error (List FieldReport)} {reading : Reading Device}
    (h : Stepped device setup page outcome reading) : ∃ event last,
      (Reading.onChannel Channel.settle).run reading = .ok ((), last) ∧ Left event last ∧
      LeavesEvent device setup page event outcome := by
  -- Only a timeout finds the transfer still going on; the other ends clear no event.
  cases outcome with
  | ok reports =>
    obtain ⟨hstate, hqueued, hevent⟩ := h
    obtain ⟨last, hrun, hleft⟩ :=
      left_of_over (.inl hstate) hqueued.reports_eq hqueued.reading_eq
    exact ⟨_, last, hrun, hleft, hevent⟩
  | error e =>
    cases e with
    | timeout awaited =>
      obtain ⟨hawaited, hstate, hstored⟩ := h
      obtain ⟨last, hrun, hleft⟩ := left_of_running hstate hstored
      exact ⟨false, last, hrun, hleft, hawaited, rfl⟩
    | uncorrectable lost field =>
      obtain ⟨hlost, hstate, hreports, hreading, handled, report, rest, hshown, hfield, hevent⟩ := h
      obtain ⟨last, hrun, hleft⟩ := left_of_over (.inr hstate) hreports hreading
      refine ⟨_, last, hrun, hleft, hlost, handled, report, rest, hshown, hfield, ?_⟩
      rw [hevent, Bool.not_eq_true', List.isEmpty_eq_false_iff]
    | _ => exact h.elim

theorem run_read {outcome : Except Error (List FieldReport)} {reading last : Reading Device}
    {data : Bytes} {stats : EccStats} {fixed : List FieldReport}
    (hsteps : (Reading.readSteps poll setup g page).run.run ⟨⟨.idle, device⟩, data, stats, fixed⟩ =
      .ok (outcome, reading))
    (hsettle : (Reading.onChannel Channel.settle).run reading = .ok ((), last)) :
    (Reading.read poll setup g page).run.run ⟨⟨.idle, device⟩, data, stats, fixed⟩ =
      .ok (outcome, last) :=
  run_attempt_step (Reading.run_expect_self .idle device _ _ _)
    (run_step hsteps (run_step hsettle rfl))

/-- A read on any device comes back, with its page, with a field that is lost or with a timeout.
It leaves no report queued and no transfer that is over, but it can leave an ECC event: if fields
behind the one that was lost are damaged as well, and if nothing was checked while reports of an
earlier read were queued. -/
theorem read_leaves_event (h : device.Reachable) (hpoll : poll.Reaches limit)
    (setup : TransferSetup) (g : Geometry) (page : Nat) (data : Bytes) (stats : EccStats)
    (fixed : List FieldReport) : ∃ outcome reading event,
      (Reading.read poll setup g page).run.run ⟨⟨.idle, device⟩, data, stats, fixed⟩ =
        .ok (outcome, reading) ∧
      Left event reading ∧ LeavesEvent device setup page event outcome := by
  obtain ⟨outcome, reading, hsteps, hend⟩ :=
    exists_readSteps hpoll h.stored setup g page data stats fixed
  obtain ⟨event, last, hsettle, hleft, hleaves⟩ := exists_left hend
  exact ⟨outcome, last, event, run_read hsteps hsettle, hleft, hleaves⟩

/-! ### A page with two damaged fields -/

/-- From rest, a read is shown the damage of the page that is in the page register. -/
theorem shown_eq_damage {layout : SpareLayout} {content : Bytes} {row column : Nat}
    (h : device.engine.AtRest g) (hfits : g.Fits layout)
    (hhang : device.engine.hang = false)
    (hdelivers : device.latches.Delivers content row column) :
    device.shown ⟨g.strength, g.spareSize⟩ =
      Engine.damage g content (device.flash.reference row) := by
  rw [shown, hhang, if_neg Bool.false_ne_true,
    Engine.findDamage_eq (Engine.armed_prepared h) hfits, hdelivers.cache_eq,
    hdelivers.cacheRow_eq]
  rfl

/-- If the first field that is damaged is lost, then so is the page. -/
theorem exists_read_lost {layout : SpareLayout} {content data : Bytes} {row column : Nat}
    {report : DamageReport} {rest : List DamageReport} (h : device.engine.AtRest g)
    (hfits : g.Fits layout) (hhang : device.engine.hang = false)
    (hdelivers : device.latches.Delivers content row column) (hdata : data.size = g.pageBytes)
    (hdamage : Engine.damage g content (device.flash.reference row) = report :: rest)
    (hlost : report.errors.length > g.correctable) (poll : Poll) (page : Nat) (stats : EccStats)
    (fixed : List FieldReport) : ∃ reading,
      (Reading.read poll ⟨g.strength, g.spareSize⟩ g page).run.run
        ⟨⟨.idle, device⟩, data, stats, fixed⟩ =
      .ok (.error (.uncorrectable page report.field), reading) := by
  obtain ⟨found, hfound⟩ : ∃ found : Repairs, found =
      ⟨data, device.engine.window.front g.spareSize, stats, fixed⟩ := ⟨_, rfl⟩
  have hread := follows_read poll page h hfits hdelivers
    (show found.data.size = _ by rw [hfound]; exact hdata) (by rw [hfound])
  rw [readOutcome, hhang, if_neg Bool.false_ne_true, hdamage] at hread
  simp only [Repairs.all, if_pos hlost] at hread
  obtain ⟨_, reading, hrun, rfl, -⟩ := hread.exists_of_ok
  rw [hfound] at hrun
  exact ⟨reading, hrun⟩

/-- A page of a fresh K9F1G08 is written and some bytes of it flip. It is loaded into the page
register, and read from there it has the damage that the flips have done. -/
theorem exists_loaded_page (poll : Poll) {offsets : List Nat} (hnodup : offsets.Nodup)
    (hlt : ∀ raw ∈ offsets, raw < 2112) :
    let g : Geometry := ⟨.p2048, 64, .t8, rfl⟩
    let layout : SpareLayout := ⟨0, 60⟩
    ∃ (device : Device) (content : Bytes), device.Reachable ∧ device.engine.hang = false ∧
      device.engine.AtRest g ∧ g.Fits layout ∧ device.latches.Delivers content 0 0 ∧
      (Engine.damage g content (device.flash.reference 0)).map
          (fun report => (report.field, report.errors.length)) =
        (List.range g.fieldCount).filterMap fun index =>
          let count := countIn g layout.parityStart offsets index
          if count = 0 then none else some (index + 1, count) := by
  intro g layout
  obtain ⟨-, -, -, -, damaged, -, hinUse, hhang, hchip, hprofile, before, hbefore, hcontent,
    hreference⟩ := Controller.exists_flipped poll offsets
  have hgenuine := hinUse.steady.genuine (hchip ▸ Chip.genuine_k9f1g08)
  have hrow : damaged.drive.rowAt .read 0 = .ok 0 :=
    hgenuine.rowAt_eq .read (by rw [hchip]; decide)
  -- The page is loaded, and nothing else has changed.
  have hsend := follows_send_read damaged.channel.bus damaged.profile.poll
    (Controller.rowCycles_pos damaged.profile.chip) 0 0
  rw [show damaged.channel.bus.chip.rowAt damaged.profile.chip.rowCycles .read 0 = .ok 0 from
    hrow] at hsend
  obtain ⟨_, device, hrun, _, -, hcommanded, hdelivers⟩ := hsend.exists_of_ok
  obtain ⟨_, -, hsame, -⟩ := (Same.inStep_send lasts_reachable damaged.profile.poll
    damaged.profile.chip.rowCycles (by decide) (some 0) (some 0)).exists_of_run
    ⟨rfl, hinUse.reachable⟩ hrun
  have hrests := hinUse.steady.rests
  have hatRest := hrests.atRest
  have hfits := hrests.settled.fits
  rw [show damaged.profile = _ from hprofile] at hatRest hfits
  change damaged.channel.bus.engine.AtRest g at hatRest
  change g.Fits layout at hfits
  refine ⟨device, damaged.channel.bus.flash.content 0, hsame.1 ▸ hsame.2,
    hcommanded.engine_eq ▸ hhang, hcommanded.engine_eq ▸ hatRest, hfits, hdelivers, ?_⟩
  rw [show device.flash = damaged.drive.flash from hcommanded.flash_eq,
    show damaged.channel.bus.flash.content 0 = _ from hcontent, hreference,
    map_damage_flipped (by decide) hfits (by rw [hbefore]; decide) hnodup
      (by rw [hbefore]; exact hlt)]

/-- More bytes of a field flip than can be repaired, and one of the next field. The page is in the
page register. -/
theorem exists_torn_page : ∃ device : Device, device.Reachable ∧
    (device.shown ⟨.t8, 64⟩).map (fun report => (report.field, report.errors.length)) =
      [(1, 9), (2, 1)] ∧
    ∃ reading, (Reading.read ⟨some 20⟩ ⟨.t8, 64⟩ ⟨.p2048, 64, .t8, rfl⟩ 0).run.run
        ⟨⟨.idle, device⟩, Bytes.filled 2048 0, ⟨0, 0⟩, []⟩ =
      .ok (.error (.uncorrectable 0 1), reading) := by
  obtain ⟨device, content, hreachable, hhang, hrest, hfits, hdelivers, hreports⟩ :=
    exists_loaded_page ⟨some 20⟩ (show [0, 1, 2, 3, 4, 5, 6, 7, 8, 512].Nodup by decide)
      (by decide)
  have hreports := hreports.trans (by decide : _ = [(1, 9), (2, 1)])
  refine ⟨device, hreachable, ?_, ?_⟩
  · rw [← hreports, ← shown_eq_damage hrest hfits hhang hdelivers]
  · obtain ⟨report, rest, hdamage, hlost, -⟩ := List.map_eq_cons_iff.1 hreports
    obtain ⟨hfield, hcount⟩ := Prod.mk.inj hlost
    obtain ⟨reading, hrun⟩ := exists_read_lost hrest hfits hhang hdelivers
      (Bytes.size_filled _ _) hdamage (by rw [hcount]; decide) ⟨some 20⟩ 0 ⟨0, 0⟩ []
    rw [hfield] at hrun
    exact ⟨reading, hrun⟩

/-- The field that is lost on the torn page is not the last one that is damaged. -/
theorem ne_nil_of_torn {handled rest : List DamageReport} {report : DamageReport}
    (h : (handled ++ report :: rest).map (fun report => (report.field, report.errors.length)) =
      [(1, 9), (2, 1)]) (hfield : report.field = 1) : rest ≠ [] := by
  rintro rfl
  have hlast := congrArg List.getLast? h
  rw [List.map_append, List.map_singleton, List.getLast?_concat] at hlast
  have hlast := (Prod.mk.inj (Option.some.inj hlast)).1
  omega

/-- Two damaged fields, the first of them lost. -/
theorem read_leaves_event_torn_page : ∃ device : Device, device.Reachable ∧
    Poll.Reaches ⟨some 20⟩ 20 ∧
    (device.shown ⟨.t8, 64⟩).map (fun report => (report.field, report.errors.length)) =
      [(1, 9), (2, 1)] ∧
    ∃ reading, (Reading.read ⟨some 20⟩ ⟨.t8, 64⟩ ⟨.p2048, 64, .t8, rfl⟩ 0).run.run
        ⟨⟨.idle, device⟩, Bytes.filled 2048 0, ⟨0, 0⟩, []⟩ =
      .ok (.error (.uncorrectable 0 1), reading) ∧ Left true reading := by
  obtain ⟨device, hreachable, hshown, reading, hrun⟩ := exists_torn_page
  have hpoll : Poll.Reaches ⟨some 20⟩ 20 := ⟨rfl, by decide⟩
  obtain ⟨outcome, last, event, hrun', hleft, hleaves⟩ := read_leaves_event hreachable hpoll
    ⟨.t8, 64⟩ ⟨.p2048, 64, .t8, rfl⟩ 0 (Bytes.filled 2048 0) ⟨0, 0⟩ []
  obtain ⟨rfl, rfl⟩ := Prod.mk.inj (Except.ok.inj (hrun.symm.trans hrun'))
  obtain ⟨-, handled, report, rest, hsplit, hfield, hevent⟩ := hleaves
  rw [hsplit] at hshown
  obtain rfl : event = true := hevent.2 (ne_nil_of_torn hshown hfield)
  exact ⟨device, hreachable, hpoll, hsplit ▸ hshown, reading, hrun, hleft⟩

/-- An event can survive a read: the page is given up at its first field, and the event of the
second one is still up when the read has been left. -/
theorem event_survives_read : ∃ device : Device, device.Reachable ∧
    ∃ reading, (Reading.read ⟨some 20⟩ ⟨.t8, 64⟩ ⟨.p2048, 64, .t8, rfl⟩ 0).run.run
        ⟨⟨.idle, device⟩, Bytes.filled 2048 0, ⟨0, 0⟩, []⟩ =
      .ok (.error (.uncorrectable 0 1), reading) ∧
    reading.channel.bus.engine.hasFlag Bits.eccEvent = true := by
  obtain ⟨device, hreachable, hshown, reading, hrun⟩ := exists_torn_page
  have hpoll : Poll.Reaches ⟨some 20⟩ 20 := ⟨rfl, by decide⟩
  obtain ⟨outcome, mid, hsteps, hend⟩ := exists_readSteps hpoll hreachable.stored ⟨.t8, 64⟩
    ⟨.p2048, 64, .t8, rfl⟩ 0 (Bytes.filled 2048 0) ⟨0, 0⟩ []
  obtain ⟨event, last, hsettle, hleft, hleaves⟩ := exists_left hend
  obtain ⟨rfl, rfl⟩ :=
    Prod.mk.inj (Except.ok.inj (hrun.symm.trans (run_read hsteps hsettle)))
  obtain ⟨-, handled, report, rest, hsplit, hfield, hevent⟩ := hleaves
  rw [hsplit] at hshown
  refine ⟨device, hreachable, reading, hrun, ?_⟩
  rw [hleft.event_eq, hevent]
  exact ne_nil_of_torn hshown hfield

end Device

end NandFlash.Sim
