import NandFlash.Proofs.Sim.AllOrNothing
import NandFlash.Proofs.Sim.ReadBack
import NandFlash.Proofs.Sim.Reachable
import NandFlash.Proofs.Sim.Transfers
import NandFlash.Proofs.Sim.Unconditional

/-!
# Going through a queue, in any state

A read may find reports of an earlier read still queued, flags still up and anything in the latches.
What the driver relies on is little: as long as a report is queued its event is up and only its
field is not clean, and when none is queued the read is over. `Queued` says just this, and a look of
the driver takes it from one report to the next, or ends the read at a field that is lost.
-/

namespace NandFlash.Sim

namespace Engine

variable {engine new : Engine} {queue : List DamageReport} {flag flags : UInt32}

/-! ## Flags -/

/-- Is a status flag up? -/
def hasFlag (engine : Engine) (flag : UInt32) : Bool :=
  engine.register Register.status &&& flag != 0

theorem hasFlag_clearFlags_self (engine : Engine) (h : flags &&& statusFlags &&& flag = flag) :
    (engine.clearFlags flags).hasFlag flag = false := by
  rw [hasFlag, clearFlags, register_setRegister_self, ← h, ← UInt32.and_assoc, UInt32.and_assoc
    (engine.register _), UInt32.not_and_self, UInt32.and_zero, UInt32.zero_and]
  rfl

theorem hasFlag_clearFlags_of_keep (engine : Engine)
    (h : ~~~(flags &&& statusFlags) &&& flag = flag) :
    (engine.clearFlags flags).hasFlag flag = engine.hasFlag flag := by
  rw [hasFlag, clearFlags, register_setRegister_self, UInt32.and_assoc, h, hasFlag]

theorem hasFlag_congr (h : new.register Register.status = engine.register Register.status)
    (flag : UInt32) : new.hasFlag flag = engine.hasFlag flag := by
  rw [hasFlag, h, hasFlag]

theorem hasFlag_or (word put flag : UInt32) :
    ((word ||| put) &&& flag != 0) = (word &&& flag != 0 || put &&& flag != 0) := by
  rw [← Bits.adjust_neg_one, Bits.adjust_and, UInt32.neg_one_and]
  by_cases hword : word &&& flag = 0
  · rw [hword, UInt32.zero_or, bne_self_eq_false, Bool.false_or]
  · have hor : word &&& flag ||| put &&& flag ≠ 0 := fun h => hword (UInt32.or_eq_zero_iff.1 h).1
    rw [bne_iff_ne.2 hor, bne_iff_ne.2 hword, Bool.true_or]

theorem hasFlag_presentNext (engine : Engine) (flag : UInt32) :
    engine.presentNext.hasFlag flag =
      (engine.hasFlag flag || nextFlag engine.reports &&& flag != 0) := by
  rw [hasFlag, status_presentNext, hasFlag_or, hasFlag]

theorem event_nextFlag (queue : List DamageReport) :
    (nextFlag queue &&& Bits.eccEvent != 0) = !queue.isEmpty := by
  cases queue with
  | nil => rfl
  | cons => exact (by decide : (Bits.eccEvent &&& Bits.eccEvent != 0) = true)

theorem done_nextFlag (queue : List DamageReport) :
    (nextFlag queue &&& Bits.transferDone != 0) = queue.isEmpty := by
  cases queue with
  | nil => rfl
  | cons => exact (by decide : (Bits.eccEvent &&& Bits.transferDone != 0) = false)

theorem nextFlag_and_self (queue : List DamageReport) :
    (nextFlag queue &&& nextFlag queue != 0) = true := by
  rw [UInt32.and_self]
  cases queue with
  | nil => rfl
  | cons => exact (by decide : (Bits.eccEvent != 0) = true)

/-! ### Statuses -/

/-- Bringing up the next report clears every status but that of its field. -/
theorem statusByte_presentNext {field : Nat} (hpos : 1 ≤ field) (hle : field ≤ 16)
    (h : ∀ report ∈ engine.reports.head?, report.field ≠ field) :
    engine.presentNext.statusByte field = 0 := by
  have hstatus : Register.status = 0x8AC := rfl
  have hfieldStatus : Register.fieldStatus = 0x8D0 := rfl
  rw [presentNext]
  cases hreports : engine.reports with
  | nil =>
    simp only [raise]
    rw [statusByte, register_setRegister_of_ne _ _ (by omega)]
    exact engine.statusByte_clearStatus hle
  | cons report rest =>
    have hne := h report (by rw [hreports]; rfl)
    exact (engine.statusByte_present _ _ _ hpos hle).trans (if_neg hne.symm)

/-- Only the field of the report that has been brought up may be damaged. -/
theorem fieldStatus_presentNext {field : Nat} (hpos : 1 ≤ field) (hle : field ≤ 16)
    (h : engine.presentNext.fieldStatus field ≠ .clean) :
    ∃ report ∈ engine.reports.head?, report.field = field := by
  by_contra hother
  refine h ?_
  rw [fieldStatus_eq, statusByte_presentNext hpos hle fun report hreport heq =>
    hother ⟨report, hreport, heq⟩]
  rfl

/-! ## What the driver relies on -/

/-- A read that goes through a queue. As long as there is a report its event is up, and only its
field may be damaged; at the end the transfer is over. -/
structure Queued (queue : List DamageReport) (engine : Engine) : Prop extends Stored engine where
  reports_eq : engine.reports = queue
  reading_eq : engine.reading = !queue.isEmpty
  hasFlag_next : engine.hasFlag (nextFlag queue) = true
  head_of_damaged : ∀ field, 1 ≤ field → field ≤ 16 → engine.fieldStatus field ≠ .clean →
    ∃ report ∈ queue.head?, report.field = field

/-- Between reports only the end of the read is up, and none of the flags has to be looked at but
that of the event. -/
theorem Queued.eq_nil (h : Queued queue engine) (hquiet : engine.hasFlag Bits.eccEvent = false) :
    queue = [] := by
  cases queue with
  | nil => rfl
  | cons report rest => exact absurd (hquiet.symm.trans h.hasFlag_next) Bool.false_ne_true

/-- Registers that say nothing about a queue may change. -/
theorem Queued.congr (h : Queued queue engine) (hstored : Stored new)
    (hreports : new.reports = engine.reports) (hreading : new.reading = engine.reading)
    (hflag : new.hasFlag (nextFlag queue) = engine.hasFlag (nextFlag queue))
    (hstatus : ∀ i < Register.fieldStatusWords, new.register (Register.fieldStatus + 4 * i) =
      engine.register (Register.fieldStatus + 4 * i)) : Queued queue new := by
  refine ⟨hstored, hreports.trans h.reports_eq, hreading.trans h.reading_eq,
    hflag.trans h.hasFlag_next, fun field hpos hle hdamaged => h.head_of_damaged field hpos hle ?_⟩
  rwa [fieldStatus, hstatus _ (show _ < 4 by omega)] at hdamaged

/-- Bringing up the next report of a read that is being shown. -/
theorem queued_presentNext (h : Stored engine) (hreading : engine.reading = true) :
    Queued engine.reports engine.presentNext := by
  refine ⟨h.presentNext, ?_, ?_, ?_, fun _ hpos hle => fieldStatus_presentNext hpos hle⟩
  · rw [presentNext_eq]
  · rw [presentNext_eq]
    simp only [hreading, Bool.true_and]
  · rw [hasFlag_presentNext, nextFlag_and_self, Bool.or_true]

/-- Acknowledging an event while a read is being shown takes it one report on. -/
theorem queued_acknowledge (h : Stored engine) (hreading : engine.reading = true) :
    Queued (engine.reports.drop 1) (engine.acknowledge Bits.eccEvent) ∧
      (engine.acknowledge Bits.eccEvent).hasFlag Bits.eccEvent =
        !(engine.reports.drop 1).isEmpty ∧
      (engine.acknowledge Bits.eccEvent).hasFlag Bits.transferDone =
        (engine.hasFlag Bits.transferDone || (engine.reports.drop 1).isEmpty) := by
  obtain ⟨advanced, hadvanced⟩ : ∃ advanced : Engine, advanced =
      { engine.clearFlags Bits.eccEvent with reports := engine.reports.drop 1 } := ⟨_, rfl⟩
  -- Acknowledging the event takes the report off, and presents what is next.
  have hnext : engine.acknowledge Bits.eccEvent = advanced.presentNext := by
    rw [hadvanced]
    exact if_pos (by rw [Bool.and_eq_true]; exact ⟨by decide, hreading⟩)
  have hreports : advanced.reports = engine.reports.drop 1 := by rw [hadvanced]
  have hstored : Stored advanced := by
    rw [hadvanced]
    exact ⟨(h.clearFlags _).control_eq, (h.clearFlags _).dmaControl_eq⟩
  have hflag : ∀ flag, advanced.hasFlag flag = (engine.clearFlags Bits.eccEvent).hasFlag flag :=
    hasFlag_congr (by rw [hadvanced]; rfl)
  have hqueued := queued_presentNext hstored (by rw [hadvanced]; exact hreading)
  rw [hreports] at hqueued
  rw [hnext, hasFlag_presentNext, hasFlag_presentNext, hflag, hflag, hreports, event_nextFlag,
    done_nextFlag, hasFlag_clearFlags_self _ (by decide), hasFlag_clearFlags_of_keep _ (by decide)]
  exact ⟨hqueued, Bool.false_or _, rfl⟩

/-- With every acknowledgement the queue gets shorter, and its event is down when it is empty. -/
theorem Queued.acknowledge (h : Queued queue engine) :
    Queued (queue.drop 1) (engine.acknowledge Bits.eccEvent) ∧
      (engine.acknowledge Bits.eccEvent).hasFlag Bits.eccEvent = !(queue.drop 1).isEmpty := by
  cases queue with
  | nil =>
    have hclear : engine.acknowledge Bits.eccEvent = engine.clearFlags Bits.eccEvent :=
      acknowledge_eq engine (.inl h.reading_eq)
    rw [hclear]
    refine ⟨h.congr (h.toStored.clearFlags _) rfl rfl (hasFlag_clearFlags_of_keep _ (by decide))
      fun i _ => register_setRegister_of_ne _ _ ?_, hasFlag_clearFlags_self _ (by decide)⟩
    have hstatus : Register.status = 0x8AC := rfl
    have hfieldStatus : Register.fieldStatus = 0x8D0 := rfl
    omega
  | cons report rest =>
    have hnext := queued_acknowledge h.toStored h.reading_eq
    rw [h.reports_eq] at hnext
    exact ⟨hnext.1, hnext.2.1⟩

/-! ## Resets -/

/-- The controller side when both the transfer engine and the NAND side have been reset. -/
def dropped (engine : Engine) : Engine :=
  let engine := engine.writeDmaControl (Bits.dmaEnable ||| Bits.dmaReset)
  engine.writeControl (engine.register Register.control ||| Bits.reset)

/-- The queue is dropped, but the flags stay up. -/
theorem Stored.dropped (h : Stored engine) :
    engine.dropped.reports = [] ∧ engine.dropped.reading = false ∧
      ∀ flag, engine.dropped.hasFlag flag = engine.hasFlag flag := by
  have hstored := h.writeDmaControl (Bits.dmaEnable ||| Bits.dmaReset)
  simp only [Engine.dropped, hstored.writeControl_reset]
  refine ⟨rfl, rfl, hasFlag_congr ?_⟩
  rw [register_setRegister_of_ne _ _ (by decide)]
  exact (register_writeDmaControl _ _ _).trans (if_neg (by decide))

/-! ## Repairs -/

/-- Repairs change the window, and what lies behind it. -/
structure Kept (old new : Engine) : Prop where
  register_eq : ∀ offset < Register.window, new.register offset = old.register offset
  reports_eq : new.reports = old.reports
  reading_eq : new.reading = old.reading

theorem Kept.refl (engine : Engine) : Kept engine engine := ⟨fun _ _ => rfl, rfl, rfl⟩

theorem Queued.kept (h : Queued queue engine) (hkept : Kept engine new) : Queued queue new :=
  h.congr (h.toStored.of_register (hkept.register_eq _ (by decide))
      (hkept.register_eq _ (by decide)))
    hkept.reports_eq hkept.reading_eq (hasFlag_congr (hkept.register_eq _ (by decide)) _)
    fun i hi => hkept.register_eq _ (by
      have hi' : i < 4 := hi
      have hfieldStatus : Register.fieldStatus = 0x8D0 := rfl
      have hwindow : Register.window = 0xA00 := rfl
      omega)

end Engine

namespace Device

variable {device next : Device} {engine : Engine} {g : Geometry} {data : Bytes}

theorem AfterWrite.kept {offset : Nat} (h : device.AfterWrite offset next)
    (hoffset : Register.window ≤ offset) : device.engine.Kept next.engine := by
  cases h with
  | dmaControl | control | status | command | address | data => exact absurd hoffset (by decide)
  | window => exact ⟨fun _ _ => rfl, rfl, rfl⟩
  | plain _ value =>
    exact ⟨fun other hother => Engine.register_setRegister_of_ne _ _ (by omega), rfl, rfl⟩

theorem keeps_read8 (engine : Engine) (i : Nat) :
    Keeps (fun _ => 0) 1 (fun device : Device => engine.Kept device.engine)
      (Bus.read8 (Register.window + i)) Any := by
  intro device h
  obtain ⟨value, next, hrun⟩ := device.exists_read8 (Register.window + i)
  refine ⟨value, next, hrun, Nat.zero_le _, ?_, trivial⟩
  show engine.Kept next.engine
  rwa [(AfterRead.of_read8 hrun).fixed.engine_eq]

theorem keeps_write8 (engine : Engine) (i : Nat) (value : UInt8) :
    Keeps (fun _ => 0) 1 (fun device : Device => engine.Kept device.engine)
      (Bus.write8 (Register.window + i) value) Any := by
  intro device h
  have hport : ¬Bus.IsChipPort (Register.window + i) := fun hport =>
    absurd (Nat.le_trans (Nat.le_add_right _ i) hport.2) (by decide)
  obtain ⟨next, hrun⟩ := device.exists_write8 hport value
  have hkept := (AfterWrite.of_write8 hrun).kept (Nat.le_add_right _ i)
  exact ⟨(), next, hrun, Nat.zero_le _, ⟨fun offset hoffset =>
    (hkept.register_eq offset hoffset).trans (h.register_eq offset hoffset),
    hkept.reports_eq.trans h.reports_eq, hkept.reading_eq.trans h.reading_eq⟩, trivial⟩

/-- Correction comes to an end on every device. It changes nothing if a field is lost. -/
theorem exists_run_correct (device : Device) (g : Geometry) (data : Bytes) :
    ∃ outcome next, (Ecc.correct g data).run.run device = .ok (outcome, next) ∧
      match outcome with
      | .ok _ => device.engine.Kept next.engine
      | .error lost => next = device ∧ device.engine.Lost g data.size lost.field := by
  by_cases hlost : ∃ field, device.engine.Lost g data.size field
  · obtain ⟨field, hfield, hlowest⟩ := exists_first hlost
    exact ⟨_, device, run_correct_of_lost hfield hlowest, rfl, hfield⟩
  · rw [not_exists] at hlost
    have hloop : Keeps (fun _ => 0) (2 * (device.engine.correctionsOf g).length)
        (fun next : Device => device.engine.Kept next.engine)
        ((device.engine.correctionsOf g).foldlM Ecc.applyCorrection data)
        fun fixed => fixed.size = data.size :=
      Ecc.keeps_corrections (keeps_read8 _) (keeps_write8 _) fun c hc hplace => by
        have hwithin := Engine.within_of_mem_correctionsOf hlost hc
        rwa [Correction.Within, hplace] at hwithin
    obtain ⟨fixed, next, hrun, -, hkept, -⟩ := hloop device (.refl _)
    exact ⟨_, next, run_attempt_step (run_plan_of_not_lost hlost)
      (run_attempt_step (run_perform hrun) rfl), hkept⟩

/-! ## A look -/

variable {page : Nat} {shown : List DamageReport} {reading : Reading Device}

/-- A read somewhere on its way through the reports that it is shown. -/
def Facing (shown : List DamageReport) (reading : Reading Device) : Prop :=
  reading.channel.state = .running ∧ ∃ handled queue, shown = handled ++ queue ∧
    reading.channel.bus.engine.Queued queue

/-- A read that has gone through all reports, with no event left. -/
def Through (reading : Reading Device) : Prop :=
  reading.channel.state = .running ∧ reading.channel.bus.engine.Queued [] ∧
    reading.channel.bus.engine.hasFlag Bits.eccEvent = false

/-- A read that has been given up, and the queue dropped, at a report that is lost. The event of
the next report is up all the same, if there was one. -/
structure Abandoned (shown : List DamageReport) (field : Nat) (reading : Reading Device) :
    Prop where
  state_eq : reading.channel.state = .aborted
  reports_eq : reading.channel.bus.engine.reports = []
  reading_eq : reading.channel.bus.engine.reading = false
  event_iff : ∃ handled report rest, shown = handled ++ report :: rest ∧ report.field = field ∧
    reading.channel.bus.engine.hasFlag Bits.eccEvent = !rest.isEmpty

/-- How a read fails before the transfer is left. -/
def Fails (page : Nat) (shown : List DamageReport) : Error → Reading Device → Prop
  | .timeout awaited, reading => awaited = .transferIn ∧ reading.channel.state = .running ∧
    reading.channel.bus.engine.Stored
  | .uncorrectable lost field, reading => lost = page ∧ Abandoned shown field reading
  | _, _ => False

/-- With the reset of the NAND side, after that of the transfer engine, the queue is dropped. -/
theorem run_reset_dropped (device : Device) :
    (Bus.setBits Register.control Bits.reset).run
      (device.modifyEngine (·.writeDmaControl (Bits.dmaEnable ||| Bits.dmaReset))) =
      .ok ((), device.modifyEngine (·.dropped)) := by
  rw [Bus.setBits, run_modify32_control]
  simp only [modifyEngine, Engine.dropped]

/-- Giving a page up acknowledges its event, and drops the queue only then. -/
theorem run_abandon_queued (device : Device) {report : DamageReport} {rest : List DamageReport}
    (h : device.engine.Queued (report :: rest)) (state : DmaState) :
    ∃ next, Channel.abandon.run ⟨state, device⟩ = .ok ((), ⟨.aborted, next⟩) ∧
      next.engine.reports = [] ∧ next.engine.reading = false ∧
      next.engine.hasFlag Bits.eccEvent = !rest.isEmpty := by
  obtain ⟨hqueued, hevent⟩ := h.acknowledge
  have hbus : (do
      Bus.write32 Register.status Bits.eccEvent
      Bus.write32 Register.dmaControl (Bits.dmaEnable ||| Bits.dmaReset)
      Bus.setBits Register.control Bits.reset : Action Device Unit).run device =
      .ok ((), (device.modifyEngine (·.acknowledge Bits.eccEvent)).modifyEngine (·.dropped)) :=
    run_step (run_write32_status device _) <| run_step (run_write32_dmaControl _ _) <|
      run_reset_dropped _
  obtain ⟨hreports, hreading, hflag⟩ := hqueued.toStored.dropped
  exact ⟨_, run_step (Channel.run_onBus_ok hbus state) (Channel.run_enter _ _ _), hreports,
    hreading, (hflag _).trans hevent⟩

/-- What the driver has seen of the flags that it looks at. -/
theorem seen_and (engine : Engine) {flag : UInt32}
    (hflag : (Bits.transferDone ||| Bits.eccEvent) &&& flag = flag) :
    (engine.register Register.status &&& (Bits.transferDone ||| Bits.eccEvent) &&& flag != 0) =
      engine.hasFlag flag := by
  rw [UInt32.and_assoc, hflag, Engine.hasFlag]

theorem run_answer_flags (reading : Reading Device) :
    answer.run.run reading = .ok (.ok (reading.channel.bus.engine.hasFlag Bits.transferDone &&
      !reading.channel.bus.engine.hasFlag Bits.eccEvent), reading) := by
  have hquiet : ∀ word : UInt32, (word == 0) = !(word != 0) := fun _ => (Bool.not_not _).symm
  obtain ⟨⟨state, device⟩, data, stats, fixed⟩ := reading
  rw [run_answer state data stats fixed rfl, hquiet, seen_and _ (by decide),
    seen_and _ (by decide)]

/-- A look at a field that is lost gives the page up. -/
theorem run_look_abandoned {device : Device} {lost : LostField} {stats : EccStats}
    {fixed : List FieldReport} (hevent : device.engine.hasFlag Bits.eccEvent = true)
    (hcorrect : (Ecc.correct g data).run.run device = .ok (.error lost, device))
    {report : DamageReport} {rest : List DamageReport}
    (hqueued : device.engine.Queued (report :: rest)) (hfield : report.field = lost.field)
    {handled : List DamageReport} (hshown : shown = handled ++ report :: rest) :
    ∃ next, (Reading.look g page).run.run ⟨⟨.running, device⟩, data, stats, fixed⟩ =
        .ok (.error (.uncorrectable page lost.field), next) ∧
      Abandoned shown lost.field next := by
  obtain ⟨dropped, hrun, hreports, hreading, hflag⟩ := run_abandon_queued device hqueued .running
  have hfields : (Reading.correctFields g).run ⟨⟨.running, device⟩, data, stats, fixed⟩ =
      .ok (.error lost, ⟨⟨.running, device⟩, data, stats, fixed⟩) := by
    rw [Reading.run_correctFields, hcorrect]
  refine ⟨⟨⟨.aborted, dropped⟩, data, { stats with failed := stats.failed + 1 }, fixed⟩, ?_, rfl,
    hreports, hreading, handled, report, rest, hshown, hfield, hflag⟩
  rw [run_look_event rfl ((seen_and _ (by decide)).trans hevent)]
  refine run_attempt_bind_error (run_attempt_step (run_perform hfields) ?_)
  refine run_attempt_step (run_perform rfl) ?_
  exact run_attempt_step (run_perform (Reading.run_onChannel_ok hrun _ _ _)) rfl

/-- A look that finds nothing lost acknowledges the event, and is the last one if no report is left
by that. -/
theorem run_look_acknowledged {device next : Device} {stats : EccStats} {fixed : List FieldReport}
    {result : List FieldReport × Bytes} (hevent : device.engine.hasFlag Bits.eccEvent = true)
    (hcorrect : (Ecc.correct g data).run.run device = .ok (.ok result, next)) :
    ∃ last, (Reading.look g page).run.run ⟨⟨.running, device⟩, data, stats, fixed⟩ =
        .ok (.ok (last.channel.bus.engine.hasFlag Bits.transferDone &&
          !last.channel.bus.engine.hasFlag Bits.eccEvent), last) ∧
      last.channel = ⟨.running, next.modifyEngine (·.acknowledge Bits.eccEvent)⟩ := by
  have hfields : (Reading.correctFields g).run ⟨⟨.running, device⟩, data, stats, fixed⟩ =
      .ok (.ok result.1, ⟨⟨.running, next⟩, result.2, stats, fixed⟩) := by
    rw [Reading.run_correctFields, hcorrect]
  obtain ⟨last, hrepair, hlast⟩ : ∃ last, (Reading.repair g page).run.run
      ⟨⟨.running, device⟩, data, stats, fixed⟩ = .ok (.ok (), last) ∧
      last.channel = ⟨.running, next.modifyEngine (·.acknowledge Bits.eccEvent)⟩ := by
    unfold Reading.repair
    exact ⟨_, run_attempt_step (run_perform hfields) (run_attempt_step rfl
      (run_perform (Reading.run_onBus_ok (run_write32_status _ _) _ _ _ _))), rfl⟩
  rw [run_look_event rfl ((seen_and _ (by decide)).trans hevent), run_attempt_bind hrepair,
    run_answer_flags]
  exact ⟨last, rfl, hlast⟩

/-- A read whose event is up as long as a report is queued is through when none is. -/
theorem through_or_facing {handled queue : List DamageReport}
    (hstate : reading.channel.state = .running) (hshown : shown = handled ++ queue)
    (hqueued : reading.channel.bus.engine.Queued queue)
    (hevent : reading.channel.bus.engine.hasFlag Bits.eccEvent = !queue.isEmpty) :
    if reading.channel.bus.engine.hasFlag Bits.transferDone &&
      !reading.channel.bus.engine.hasFlag Bits.eccEvent then Through reading
    else Facing shown reading := by
  rw [hevent, Bool.not_not]
  cases queue with
  | nil =>
    rw [show reading.channel.bus.engine.hasFlag Bits.transferDone = true from hqueued.hasFlag_next]
    exact ⟨hstate, hqueued, hevent⟩
  | cons report rest =>
    rw [List.isEmpty_cons, Bool.and_false]
    exact ⟨hstate, handled, _, hshown, hqueued⟩

/-- One look: it takes the read one report on, or to its end, or gives the page up. -/
theorem within_look (g : Geometry) (page : Nat) (shown : List DamageReport) :
    Within (fun _ => 0) 0 (Facing shown) (Reading.look g page).run
      (Ending (fun isOver reading => if isOver then Through reading else Facing shown reading)
        (Fails page shown)) := by
  rintro ⟨⟨state, device⟩, data, stats, fixed⟩ ⟨hstate, handled, queue, hshown, hqueued⟩
  obtain rfl : state = .running := hstate
  change device.engine.Queued queue at hqueued
  cases hevent : device.engine.hasFlag Bits.eccEvent with
  | false =>
    -- Nothing is queued any more, so that the end of the read is up.
    obtain rfl := hqueued.eq_nil hevent
    have hdone : device.engine.hasFlag Bits.transferDone = true := hqueued.hasFlag_next
    have hquiet : device.engine.register Register.status &&& (Bits.transferDone ||| Bits.eccEvent)
        &&& Bits.eccEvent = 0 := by
      rw [← bne_eq_false_iff_eq, seen_and _ (by decide), hevent]
    refine ⟨_, _, run_look_quiet _ rfl hquiet, Nat.zero_le _, ?_⟩
    rw [seen_and _ (by decide), hdone]
    exact ⟨rfl, hqueued, hevent⟩
  | true =>
    obtain ⟨outcome, next, hcorrect, hend⟩ := device.exists_run_correct g data
    cases outcome with
    | error lost =>
      obtain ⟨rfl, hpos, hle, hdamaged⟩ := hend
      -- Only the field of the first report is not clean, so that it is the one that is lost.
      obtain ⟨report, hreport, hfield⟩ := hqueued.head_of_damaged lost.field hpos
        (Nat.le_trans hle g.fieldCount_le) fun hclean => by rwa [hclean] at hdamaged
      obtain ⟨rest, rfl⟩ : ∃ rest, queue = report :: rest := by
        cases queue with
        | nil => cases hreport
        | cons head rest =>
          cases hreport
          exact ⟨rest, rfl⟩
      obtain ⟨last, hrun, habandoned⟩ :=
        run_look_abandoned hevent hcorrect hqueued hfield hshown
      exact ⟨_, last, hrun, Nat.zero_le _, rfl, habandoned⟩
    | ok result =>
      obtain ⟨last, hrun, hlast⟩ := run_look_acknowledged hevent hcorrect
      -- Repairs do not touch the queue, and the acknowledgement takes one report off it.
      obtain ⟨hnext, hflag⟩ := (hqueued.kept hend).acknowledge
      have hengine : last.channel.bus.engine = next.engine.acknowledge Bits.eccEvent := by
        rw [hlast]
        rfl
      rw [← hengine] at hnext hflag
      have hrest : shown = (handled ++ queue.take 1) ++ queue.drop 1 := by
        rw [hshown, List.append_assoc, List.take_append_drop]
      have hstate : last.channel.state = .running := by rw [hlast]
      exact ⟨_, last, hrun, Nat.zero_le _, through_or_facing hstate hrest hnext hflag⟩

/-- The wait for the end of a read, by what one look does. -/
theorem within_wait_look {poll : Poll} {limit : Nat} (hpoll : poll.Reaches limit) (g : Geometry)
    (page : Nat) (shown : List DamageReport) :
    Within (fun _ => 0) (0 * (limit + 1)) (Facing shown)
      (poll.wait .transferIn (Reading.look g page)).run
      (Ending (fun _ => Through) (Fails page shown)) :=
  Within.wait hpoll (within_look g page shown)
    fun _ ⟨hstate, _, _, _, hqueued⟩ => ⟨rfl, hstate, hqueued.toStored⟩

end Device

end NandFlash.Sim
