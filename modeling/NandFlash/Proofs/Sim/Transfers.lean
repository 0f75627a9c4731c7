import NandFlash.Proofs.Sim.Damage
import NandFlash.Proofs.Sim.DataPort
import NandFlash.Proofs.Sim.ReadTransfer

/-!
# Transfers on the simulated device

Whole transfers, from rest to rest. What a transfer comes to is a function of the page register or
of the staged spare area, and of whether the engine hangs.
-/

namespace NandFlash.Sim

namespace Engine

variable {engine : Engine} {g : Geometry}

/-! ## Starting -/

/-- The controller side after a start bit has been set. -/
def started (engine : Engine) (direction : Direction) : Engine :=
  { engine with transfer := some direction }.setRegister Register.control
    (engine.register Register.control)

/-- The controller side when a started transfer is served. -/
def served (engine : Engine) (direction : Direction) : Engine :=
  { engine.started direction with transfer := none }

theorem register_started (engine : Engine) (direction : Direction) (offset : Nat) :
    (engine.started direction).register offset = engine.register offset := by
  rw [started, register_setRegister]
  split
  · next h => rw [h]
  · rfl

theorem Armed.started (h : Armed g engine) (direction : Direction) :
    Programmed g (engine.started direction) :=
  h.toProgrammed.of_register (register_started _ _ _) (register_started _ _ _)

theorem Armed.served (h : Armed g engine) (direction : Direction) :
    Armed g (engine.served direction) := by
  have hregister : ∀ offset, (engine.served direction).register offset = engine.register offset :=
    register_started engine direction
  have hprogrammed := h.toProgrammed.of_register (hregister _) (hregister _)
  refine ⟨⟨⟨hprogrammed.toStored, rfl, h.reports_eq, h.reading_eq⟩, hprogrammed.page_eq,
    hprogrammed.auto_eq⟩, ?_, ?_, ?_⟩ <;> rw [hregister]
  · exact h.status_eq
  · exact h.spareSize_eq
  · exact h.ecc_eq

end Engine

namespace Device

variable {device : Device} {g : Geometry} {layout : SpareLayout}

theorem run_startRead (h : device.engine.Stored) :
    (Bus.setBits Register.control Bits.startRead).run device =
      .ok ((), device.modifyEngine (·.started .fromFlash)) := by
  rw [Bus.setBits, run_modify32_control]
  simp only [modifyEngine, h.writeControl_startRead, Engine.started]

theorem run_startWrite (h : device.engine.Stored) :
    (Bus.setBits Register.control Bits.startWrite).run device =
      .ok ((), device.modifyEngine (·.started .toFlash)) := by
  rw [Bus.setBits, run_modify32_control]
  simp only [modifyEngine, h.writeControl_startWrite, Engine.started]

/-! ## Transfers from flash -/

/-- What a read of a page comes to whose content is in the page register. -/
def readOutcome (poll : Poll) (g : Geometry) (page : Nat) (hang : Bool) (content : Bytes)
    (reference? : Option Bytes) (found : Repairs) :
    Except Crash (Except Error (List FieldReport) × Repairs) := do
  if hang then
    return (.error (← poll.exhaust .transferIn), found)
  else
    let (outcome, repairs) := Repairs.all poll g page 0 (Engine.damage g content reference?)
      { found with data := found.data.overlay 0 (content.extract 0 g.pageBytes) }
    return (outcome.map fun _ => repairs.reports, repairs)

/-- An engine that does not hang serves a started read. -/
theorem run_dmaFromDevice_started (device : Device) (hhang : device.engine.hang = false)
    (data : Bytes) :
    (Bus.dmaFromDevice data).run (device.modifyEngine (·.started .fromFlash)) =
      .ok ((device.modifyEngine (·.served .fromFlash)).deliver data) := by
  have hnothang : (device.modifyEngine (·.started .fromFlash)).engine.hang = false := hhang
  have htransfer : (device.modifyEngine (·.started .fromFlash)).engine.transfer =
      some .fromFlash := rfl
  show (dmaFromDevice data).run _ = _
  rw [dmaFromDevice, run_bind (show (get : Action Device Device).run _ = .ok (_, _) from rfl)]
  simp only [hnothang, Bool.false_eq_true, if_false, htransfer, if_true]
  rfl

/-- A served read fills the buffer and shows the first report. -/
theorem run_dmaFromDevice (h : device.engine.Armed g) (hfits : g.Fits layout) {content : Bytes}
    {row column : Nat} (hdelivers : device.latches.Delivers content row column)
    (hhang : device.engine.hang = false) (data : Bytes) :
    ∃ engine, (Bus.dmaFromDevice data).run (device.modifyEngine (·.started .fromFlash)) =
        .ok (data.overlay 0 (content.extract 0 g.pageBytes), { device with engine }) ∧
      engine.Showing g (Engine.damage g content (device.flash.reference row)) ∧
      device.engine.Untouched engine ∧
      engine.register Register.control = device.engine.register Register.control := by
  obtain ⟨served, hserved⟩ : ∃ served, served = device.engine.served .fromFlash := ⟨_, rfl⟩
  have harmed := h.served .fromFlash
  rw [← hserved] at harmed
  have hreports : served.findDamage content (device.latches.cacheRow.bind
      fun row => device.array.reference[row]?) =
      Engine.damage g content (device.flash.reference row) := by
    rw [Engine.findDamage_eq harmed hfits, hdelivers.cacheRow_eq]
    rfl
  -- The damage is queued before the first report of it is brought up.
  obtain ⟨queued, hqueued⟩ : ∃ queued : Engine, queued = { served with
      reports := Engine.damage g content (device.flash.reference row), reading := true } :=
    ⟨_, rfl⟩
  have hregister : ∀ offset, queued.register offset = device.engine.register offset := by
    intro offset
    rw [hqueued, hserved]
    exact Engine.register_started _ _ _
  obtain ⟨hshowing, huntouched⟩ := Engine.showing_presentNext queued (g := g)
    (h.toProgrammed.of_register (hregister _) (hregister _))
    (by rw [hqueued]; exact harmed.transfer_eq) (by rw [hqueued])
    (by rw [hregister]; exact h.spareSize_eq) (by rw [hregister]; exact h.status_eq)
    (by
      rw [hqueued]
      exact fun report hreport => (Engine.legible_of_mem_damage hfits hreport).field_lt)
  have hqueue : queued.reports = Engine.damage g content (device.flash.reference row) := by
    rw [hqueued]
  rw [hqueue] at hshowing
  refine ⟨queued.presentNext, ?_, hshowing, ?_, ?_⟩
  · have hdeliver : (device.modifyEngine (·.served .fromFlash)).deliver data =
        (data.overlay 0 (content.extract 0 g.pageBytes),
          { device with engine := queued.presentNext }) := by
      rw [modifyEngine, ← hserved, deliver]
      simp only [harmed.dialled.page_eq_page, hdelivers.cache_eq, hreports, modifyEngine, hqueued]
      rfl
    rw [run_dmaFromDevice_started device hhang, hdeliver]
  · refine Engine.Untouched.trans ?_ huntouched
    rw [hqueued, hserved]
    exact ⟨rfl, rfl⟩
  · rw [Engine.register_presentNext _ (by decide) (by decide), hregister]

/-- A hanging engine serves nothing. -/
theorem run_dmaFromDevice_hang (device : Device) (hhang : device.engine.hang = true)
    (data : Bytes) :
    (Bus.dmaFromDevice data).run device = .ok (data, device) := by
  show (dmaFromDevice data).run device = _
  rw [dmaFromDevice, run_bind (show (get : Action Device Device).run _ = .ok (_, _) from rfl)]
  simp only [hhang, if_true]
  rfl

theorem run_receive {state : DmaState} {data filled : Bytes} {next : Device}
    (h : (Bus.dmaFromDevice data).run device = .ok (filled, next)) (stats : EccStats)
    (reports : List FieldReport) :
    Reading.receive.run ⟨⟨state, device⟩, data, stats, reports⟩ =
      .ok ((), ⟨⟨state, next⟩, filled, stats, reports⟩) := by
  rw [Reading.run_receive, h]

/-- How the driver waits for the end of a read. -/
def awaitRead (poll : Poll) (g : Geometry) (page : Nat) (isUnchecked : Bool) :
    Attempt Error (Reading Device) Unit :=
  if isUnchecked then
    poll.wait .transferIn
      (perform (Reading.onBus (Bus.anySet Register.status Bits.transferDone)))
  else
    poll.wait .transferIn (Reading.look g page)

/-- A started read, up to the wait for its end. -/
theorem run_runRead {next : Device} {data filled : Bytes} {stats : EccStats}
    {reports : List FieldReport} {poll : Poll} {page : Nat} (h : device.engine.Stored)
    (hdma : (Bus.dmaFromDevice data).run (device.modifyEngine (·.started .fromFlash)) =
      .ok (filled, next)) :
    (Reading.runRead poll g page).run.run ⟨⟨.armed, device⟩, data, stats, reports⟩ =
      (do
        awaitRead poll g page (next.engine.register Register.control &&& Bits.eccCheck == 0)
        perform (Reading.onChannel (Channel.enter .completed))
        return (← get).reports : Attempt Error (Reading Device) (List FieldReport)).run.run
        ⟨⟨.running, next⟩, filled, stats, reports⟩ := by
  have hstart := Reading.run_onBus_ok (run_startRead h) .running data stats reports
  have hreceive : Reading.receive.run ⟨⟨.running, device.modifyEngine (·.started .fromFlash)⟩, data,
      stats, reports⟩ = .ok ((), ⟨⟨.running, next⟩, filled, stats, reports⟩) :=
    run_receive hdma _ _
  have henter : (Reading.onChannel (Channel.enter .running)).run
        ⟨⟨.armed, device⟩, data, stats, reports⟩ =
      .ok ((), ⟨⟨.running, device⟩, data, stats, reports⟩) :=
    rfl
  have hclear : (Bus.allClear Register.control Bits.eccCheck).run next =
      .ok (next.engine.register Register.control &&& Bits.eccCheck == 0, next) :=
    run_allClear (by decide) _
  -- The register says whether codewords are checked, and with that which wait it is.
  have hcheck := Reading.run_onBus_ok hclear .running filled stats reports
  unfold Reading.runRead
  rw [run_attempt_bind (Reading.run_expect_self .armed device data stats reports),
    run_attempt_bind (run_perform henter),
    run_attempt_bind (run_perform hstart), run_attempt_bind (run_perform hreceive),
    run_attempt_bind (run_perform hcheck)]
  cases next.engine.register Register.control &&& Bits.eccCheck == 0 <;> rfl

/-- The wait for the end of a read that is served. -/
theorem run_awaitRead (poll : Poll) (page : Nat) {content : Bytes} {reference? : Option Bytes}
    {repairs : Repairs} {reading : Reading Device} {isUnchecked : Bool} (hfits : g.Fits layout)
    (hunchecked : isUnchecked = true ↔ g.strength = .none)
    (h : device.Held g.spareSize .running (Engine.Showing g (Engine.damage g content reference?))
      repairs reading) (hdata : repairs.data.size = g.pageBytes) :
    ∃ state next, (awaitRead poll g page isUnchecked).run.run reading =
        .ok ((Repairs.all poll g page 0 (Engine.damage g content reference?) repairs).1, next) ∧
      device.Held g.spareSize state
        (Over g (Repairs.all poll g page 0 (Engine.damage g content reference?) repairs).1 state)
        (Repairs.all poll g page 0 (Engine.damage g content reference?) repairs).2 next := by
  cases isUnchecked with
  | true =>
    -- Without a check nothing is reported, so that the end of the transfer is up at once.
    have hclean : Engine.damage g content reference? = [] := by
      unfold Engine.damage
      rw [if_pos (hunchecked.1 rfl)]
    rw [hclean] at h ⊢
    obtain ⟨engine, rfl, hhang, hfront, hshowing⟩ := h
    refine ⟨.running, _, run_wait (run_perform ?_), engine, rfl, hhang, hfront,
      hshowing.toProgrammed, fun _ => ⟨rfl, hshowing⟩⟩
    rw [Reading.run_onBus_ok (run_anySet_status _), flags_eq _ hshowing.flags_eq (by decide)
      (by decide)]
    rfl
  | false =>
    have hroom := Engine.length_damage_le (g := g) content reference?
    have hturns : Poll.maxTurns = 2 ^ 32 - 1 := rfl
    exact run_waitWithin_look rfl (by omega) h
      (fun report hreport => Engine.legible_of_mem_damage hfits hreport) hdata hfits.spareSize_le
      hfits.parityBytes_le

/-- An engine that raises no flag is waited for until the wait is given up, and is left alone. -/
theorem follows_awaitRead_never (device : Device) (poll : Poll) (page : Nat) (found : Repairs)
    (hflags : device.engine.register Register.status &&& (Bits.transferDone ||| Bits.eccEvent) = 0)
    (isUnchecked : Bool) :
    Follows (poll.exhaust .transferIn)
      (fun e r reading => r = .error e ∧
        reading = ⟨⟨.running, device⟩, found.data, found.stats, found.reports⟩)
      ((awaitRead poll g page isUnchecked).run.run
        ⟨⟨.running, device⟩, found.data, found.stats, found.reports⟩) := by
  cases isUnchecked with
  | true =>
    refine follows_wait_never (run_perform ?_)
    rw [Reading.run_onBus_ok (run_anySet_status _), flags_eq _ hflags (by decide) (by decide)]
    rfl
  | false => exact follows_wait_never (run_look_quiet 0 hflags UInt32.zero_and)

/-- A read on an engine that hangs fills nothing and raises nothing. -/
theorem follows_runRead_hang (poll : Poll) (page : Nat) {found : Repairs}
    (h : device.engine.Armed g) (hhang : device.engine.hang = true)
    (hfront : device.engine.window.front g.spareSize = found.spare) :
    Follows (poll.exhaust .transferIn)
      (fun e r reading => r = .error e ∧
        ∃ state, device.Held g.spareSize state (Leavable g state) found reading)
      ((Reading.runRead poll g page).run.run
        ⟨⟨.armed, device⟩, found.data, found.stats, found.reports⟩) := by
  obtain ⟨started, hstarted⟩ : ∃ started, started = device.engine.started .fromFlash := ⟨_, rfl⟩
  have hdma := run_dmaFromDevice_hang (device.modifyEngine (·.started .fromFlash)) hhang found.data
  -- A device that hangs raises neither flag, so that every look finds nothing.
  have hflags :
      started.register Register.status &&& (Bits.transferDone ||| Bits.eccEvent) = 0 := by
    rw [hstarted, Engine.register_started]
    exact h.status_eq
  rw [run_runRead h.toStored hdma, modifyEngine, ← hstarted, ExceptT.run_bind]
  refine (follows_awaitRead_never { device with engine := started } poll page found hflags
    _).finish fun e r reading hend => ?_
  obtain ⟨rfl, rfl⟩ := hend
  refine ⟨_, _, rfl, rfl, .running, started, rfl, ?_, ?_, ?_⟩ <;> rw [hstarted]
  · rfl
  · exact hfront
  · exact h.started _

/-- A read on an engine that does not hang goes through the damage of the page. -/
theorem exists_runRead (poll : Poll) (page : Nat) {row column : Nat} {content : Bytes}
    {found filled : Repairs} (h : device.engine.Armed g) (hfits : g.Fits layout)
    (hdelivers : device.latches.Delivers content row column) (hhang : device.engine.hang = false)
    (hfilled : filled = { found with
      data := found.data.overlay 0 (content.extract 0 g.pageBytes) })
    (hdata : found.data.size = g.pageBytes)
    (hfront : device.engine.window.front g.spareSize = found.spare) :
    let served := Repairs.all poll g page 0
      (Engine.damage g content (device.flash.reference row)) filled
    ∃ state reading, (Reading.runRead poll g page).run.run
        ⟨⟨.armed, device⟩, found.data, found.stats, found.reports⟩ =
        .ok (served.1.map fun _ => served.2.reports, reading) ∧
      device.Held g.spareSize state (Leavable g state) served.2 reading := by
  intro served
  obtain ⟨engine, hdma, hshowing, huntouched, hcontrol⟩ :=
    run_dmaFromDevice h hfits hdelivers hhang found.data
  rw [run_runRead h.toStored hdma]
  -- The driver looks for ECC events exactly if the engine checks.
  have hunchecked : (engine.register Register.control &&& Bits.eccCheck == 0) = true ↔
      g.strength = .none := by
    rw [hcontrol, h.dialled.check_eq]
    cases g.strength <;> decide
  have hheld : device.Held g.spareSize .running
      (Engine.Showing g (Engine.damage g content (device.flash.reference row))) filled
      ⟨⟨.running, { device with engine }⟩, filled.data, filled.stats, filled.reports⟩ :=
    ⟨engine, rfl, huntouched.hang_eq, by rw [huntouched.window_eq, hfront, hfilled], hshowing⟩
  obtain ⟨state, next, hrun, hnext⟩ := run_awaitRead poll page hfits
    hunchecked hheld (by rw [hfilled]; exact (Bytes.size_overlay _ _ _).trans hdata)
  change (awaitRead poll g page _).run.run _ = .ok (served.1, next) at hrun
  change device.Held g.spareSize state (Over g served.1 state) served.2 next at hnext
  rw [show filled.data = found.data.overlay 0 (content.extract 0 g.pageBytes) by rw [hfilled],
    show filled.stats = found.stats by rw [hfilled],
    show filled.reports = found.reports by rw [hfilled]] at hrun
  cases houtcome : served.1 with
  | error e =>
    rw [houtcome] at hrun hnext
    exact ⟨state, next, run_attempt_bind_error hrun, hnext.mono fun _ hover => hover.1⟩
  | ok done =>
    rw [houtcome] at hrun hnext
    obtain ⟨last, rfl, hhang', hfront', -, hdone⟩ := hnext
    obtain ⟨rfl, hlast⟩ := hdone rfl
    exact ⟨.completed, _, run_attempt_step hrun (run_attempt_step (run_perform
      (Reading.run_onChannel_ok (Channel.run_enter _ _ _) _ _ _)) rfl), last, rfl, hhang', hfront',
      hlast.atRest⟩

/-- A read whose page is in the page register. -/
theorem follows_runRead (poll : Poll) (page : Nat) {row column : Nat} {content : Bytes}
    {found : Repairs} (h : device.engine.Armed g) (hfits : g.Fits layout)
    (hdelivers : device.latches.Delivers content row column)
    (hdata : found.data.size = g.pageBytes)
    (hfront : device.engine.window.front g.spareSize = found.spare) :
    Follows (readOutcome poll g page device.engine.hang content (device.flash.reference row) found)
      (fun result r reading => r = result.1 ∧
        ∃ state, device.Held g.spareSize state (Leavable g state) result.2 reading)
      ((Reading.runRead poll g page).run.run
        ⟨⟨.armed, device⟩, found.data, found.stats, found.reports⟩) := by
  unfold readOutcome
  cases hhang : device.engine.hang with
  | true =>
    exact (follows_runRead_hang poll page h hhang hfront).finish_left
      fun _ _ _ hend => ⟨_, rfl, hend⟩
  | false =>
    obtain ⟨state, reading, hrun, hheld⟩ :=
      exists_runRead poll page h hfits hdelivers hhang rfl hdata hfront
    exact Follows.of_ok hrun ⟨rfl, state, hheld⟩

/-- Setting up a transfer from rest. -/
theorem run_prepareTransfer (h : device.engine.AtRest g) (poll : Poll) (data : Bytes) :
    ∃ reset next, (Channel.reset poll).run.run ⟨.idle, device⟩ =
        .ok (.ok (), ⟨.resetRequested, reset⟩) ∧
      (Channel.arm ⟨g.strength, g.spareSize⟩ data).run.run ⟨.resetRequested, reset⟩ =
        .ok (.ok (), ⟨.armed, next⟩) ∧ device.Driven (Engine.Armed g) next := by
  obtain ⟨_, hreset, engine, rfl, huntouched, hrest⟩ := run_reset h poll
  obtain ⟨_, harm, armed, rfl, huntouched', harmed⟩ :=
    run_arm { device with engine } hrest data
  exact ⟨_, _, hreset, harm, armed, rfl, huntouched.trans huntouched', harmed⟩

/-- A complete read, from rest to rest. -/
theorem follows_read (poll : Poll) (page : Nat) {row column : Nat} {content : Bytes}
    {found : Repairs}
    (h : device.engine.AtRest g) (hfits : g.Fits layout)
    (hdelivers : device.latches.Delivers content row column)
    (hdata : found.data.size = g.pageBytes)
    (hfront : device.engine.window.front g.spareSize = found.spare) :
    Follows (readOutcome poll g page device.engine.hang content (device.flash.reference row) found)
      (fun result r reading => r = result.1 ∧
        device.Held g.spareSize .idle (Engine.AtRest g) result.2 reading)
      ((Reading.read poll ⟨g.strength, g.spareSize⟩ g page).run.run
        ⟨⟨.idle, device⟩, found.data, found.stats, found.reports⟩) := by
  obtain ⟨_, _, hreset, harm, armed, rfl, huntouched, harmed⟩ :=
    run_prepareTransfer h poll found.data
  have hsteps : Follows (readOutcome poll g page device.engine.hang content
      (device.flash.reference row) found)
      (fun result r reading => r = result.1 ∧
        ∃ state, device.Held g.spareSize state (Leavable g state) result.2 reading)
      ((Reading.readSteps poll ⟨g.strength, g.spareSize⟩ g page).run.run
        ⟨⟨.idle, device⟩, found.data, found.stats, found.reports⟩) := by
    refine Follows.attempt_step (Reading.run_tryOnChannel_ok hreset _ _ _) ?_
    refine Follows.attempt_step rfl ?_
    refine Follows.attempt_step (Reading.run_tryOnChannel_ok harm _ _ _) ?_
    have harmed : ({ device with engine := armed } : Device).engine.Armed g := harmed
    have hrun := follows_runRead poll page harmed hfits hdelivers hdata
      (by rw [← hfront, ← huntouched.window_eq])
    rw [show armed.hang = device.engine.hang from huntouched.hang_eq] at hrun
    refine hrun.mono fun result r reading hend => ⟨hend.1, ?_⟩
    obtain ⟨state, engine, heq, hhang, hheld⟩ := hend.2
    exact ⟨state, engine, heq, hhang.trans huntouched.hang_eq, hheld⟩
  refine Follows.attempt_step (Reading.run_expect_self .idle device _ _ _) ?_
  -- However the steps end, settling leaves the engine at rest and the window as it is.
  refine Follows.finish hsteps fun result r reading hend => ?_
  obtain ⟨rfl, state, engine, rfl, hhang, hwindow, hleavable⟩ := hend
  obtain ⟨_, hsettle, rested, rfl, huntouched, hrest⟩ :=
    run_settle { device with engine } hleavable
  refine ⟨_, _, run_step (Reading.run_onChannel_ok hsettle _ _ _) rfl, rfl, rested, rfl, ?_, ?_,
    hrest⟩
  · rw [huntouched.hang_eq, hhang]
  · rw [huntouched.window_eq, hwindow]

/-! ## Transfers to flash -/

/-- The spare area that goes to flash with a page: the written mark is set, and with ECC each
field's parity is filled in. -/
def encode (g : Geometry) (data spare : Bytes) : Bytes :=
  let marked := sealed (sealed spare 3) 2
  if g.strength = .none then marked
  else (Engine.generateParity g g.spareSize data (Window.erased.overlay 0 marked)).front g.spareSize

theorem size_encode {g : Geometry} (hspare : g.spareSize ≤ windowLen) (data : Bytes) {spare : Bytes}
    (hsize : spare.size = g.spareSize) : (encode g data spare).size = g.spareSize := by
  unfold encode
  split
  · rw [size_sealed, size_sealed, hsize]
  · exact Window.size_front hspare

/-- What comes in goes into the page that is being collected, and behind it the spare area from the
window. Parity is generated only with ECC. -/
theorem receive_armed (device : Device) (h : device.engine.Armed g) (hfits : g.Fits layout)
    {data : Bytes} (hdata : data.size = g.pageBytes) {window : Window}
    (hwindow : window = if g.strength = .none then device.engine.window
      else Engine.generateParity g g.spareSize data device.engine.window) :
    device.receive data = { device with
      latches := device.latches.receive data g.pageBytes (window.front g.spareSize)
        (decide (g.strength ≠ .none))
      engine := { device.engine with window }.raise Bits.transferDone } := by
  have hwhole : data.extract 0 g.page.bytes = data := by
    rw [← Geometry.pageBytes, ← hdata, Array.extract_size]
  rw [receive]
  simp only [h.isAuto, h.dialled.page_eq_page, h.dialled.geometry?_eq hfits.spareSize_le,
    h.dialled.spareSize_eq_spareSize hfits.spareSize_le, hwhole, if_true, hwindow]
  by_cases hnone : g.strength = .none
  · simp only [hnone, if_true]
    rfl
  · simp only [hnone, if_false, ne_eq, not_false_eq_true, decide_true]
    rfl

/-- A served write fills the page being collected. -/
theorem run_dmaToDevice (device : Device) (h : device.engine.Armed g) (hfits : g.Fits layout)
    {data : Bytes} (hdata : data.size = g.pageBytes) {row cursor : Nat} {buffer : Bytes} {ecc : Bool}
    (hpending : device.latches.pending = some ⟨row, buffer, cursor, ecc⟩)
    (hhang : device.engine.hang = false) :
    ∃ engine latches, (Bus.dmaToDevice data).run (device.modifyEngine (·.started .toFlash)) =
        .ok ((), { device with engine, latches }) ∧
      engine.AtRest g ∧ engine.hang = device.engine.hang ∧
      engine.register Register.status &&& Bits.transferDone ≠ 0 ∧
      engine.window = (if g.strength = .none then device.engine.window
        else Engine.generateParity g g.spareSize data device.engine.window) ∧
      latches.pending = some ⟨row,
        (buffer.overlay cursor data).overlay g.pageBytes (engine.window.front g.spareSize), cursor,
        g.strength ≠ .none⟩ := by
  obtain ⟨served, hserved⟩ : ∃ served, served = device.engine.served .toFlash := ⟨_, rfl⟩
  have harmed : ({ device with engine := served } : Device).engine.Armed g :=
    hserved ▸ h.served .toFlash
  obtain ⟨window, hwindow⟩ : ∃ window, window = (if g.strength = .none then device.engine.window
      else Engine.generateParity g g.spareSize data device.engine.window) := ⟨_, rfl⟩
  have hservedWindow : served.window = device.engine.window := by
    rw [hserved]
    rfl
  -- The parity is generated into the window before page and window are collected.
  have hreceive := receive_armed { device with engine := served } harmed hfits hdata
    (hwindow.trans (by rw [hservedWindow]))
  refine ⟨{ served with window }.raise Bits.transferDone,
    device.latches.receive data g.pageBytes (window.front g.spareSize)
      (decide (g.strength ≠ .none)), ?_,
    (harmed.toAtRest.setWindow window).setRegister _ (by decide), ?_, ?_, hwindow, ?_⟩
  · show (dmaToDevice data).run _ = _
    have hnothang : (device.modifyEngine (·.started .toFlash)).engine.hang = false := hhang
    have htransfer : (device.modifyEngine (·.started .toFlash)).engine.transfer =
        some .toFlash := rfl
    have hserve : (device.modifyEngine (·.started .toFlash)).modifyEngine (fun engine =>
        { engine with transfer := none }) = { device with engine := served } := by
      rw [hserved]
      rfl
    rw [dmaToDevice, run_bind (show (get : Action Device Device).run _ = .ok (_, _) from rfl)]
    simp only [hnothang, Bool.not_false, if_true, htransfer, hserve, hreceive]
    rfl
  · rw [hserved]
    rfl
  · rw [Engine.raise, Engine.register_setRegister_self, Bits.or_and_self]
    decide
  · simp only [Latches.receive, hpending]
    rfl

/-- A hanging engine serves nothing. -/
theorem run_dmaToDevice_hang (hhang : device.engine.hang = true) (data : Bytes) :
    (Bus.dmaToDevice data).run device = .ok ((), device) := by
  show (dmaToDevice data).run device = _
  rw [dmaToDevice, run_bind (show (get : Action Device Device).run _ = .ok (_, _) from rfl)]
  simp only [hhang, Bool.not_true]
  rfl

/-- What is left of a write once it has been started. -/
def finishWrite (poll : Poll) (data : Bytes) : Attempt Error Device Unit := do
  perform (Bus.dmaToDevice data)
  poll.wait .transferOut (perform (Bus.anySet Register.status Bits.transferDone))

/-- A write, up to its start bit. -/
theorem run_runWrite (device : Device) (h : device.engine.Armed g) (hfits : g.Fits layout)
    (poll : Poll) (data : Bytes) :
    ∃ window, window.front g.spareSize =
        sealed (sealed (device.engine.window.front g.spareSize) 3) 2 ∧
      (Channel.runWrite poll data).run.run ⟨.armed, device⟩ =
        (Channel.tryOnBus (finishWrite poll data) >>= fun _ =>
          perform (Channel.enter .completed)).run.run
          ⟨.running, (device.setWindow window).modifyEngine (·.started .toFlash)⟩ := by
  have hspare := hfits.spareSize_le
  have hstart := hfits.parityStart_eq
  have hfour := Geometry.Fits.four_le_parityStart layout
  obtain ⟨w₃, hclear₃, hfront₃⟩ := run_clearMarker device
    (show 3 < g.spareSize by omega) hspare
  obtain ⟨window, hclear₂, hfront₂⟩ := run_clearMarker (device.setWindow w₃)
    (show 2 < g.spareSize by omega) hspare
  have hstarted : (Bus.setBits Register.control Bits.startWrite).run (device.setWindow window) =
      .ok ((), (device.setWindow window).modifyEngine (·.started .toFlash)) :=
    run_startWrite (h.setWindow window).toStored
  refine ⟨window, by rw [hfront₂, ← hfront₃]; rfl, ?_⟩
  -- The markers are cleared in the window before the transfer is started.
  have hbus : (do
      perform (Channel.clearMarker (Register.window + 3))
      perform (Channel.clearMarker (Register.window + 2))
      perform (Bus.setBits Register.control Bits.startWrite)
      perform (Bus.dmaToDevice data)
      poll.wait .transferOut (perform (Bus.anySet Register.status Bits.transferDone)) :
        Attempt Error Device Unit).run.run device =
      (finishWrite poll data).run.run
        ((device.setWindow window).modifyEngine (·.started .toFlash)) :=
    run_attempt_step (run_perform hclear₃) <| run_attempt_step (run_perform hclear₂) <|
      run_attempt_step (run_perform hstarted) rfl
  unfold Channel.runWrite
  refine run_attempt_step (Channel.run_expect_self rfl) ?_
  refine run_attempt_step (run_perform (Channel.run_enter _ _ _)) ?_
  rw [ExceptT.run_bind, ExceptT.run_bind, StateT.run_bind, StateT.run_bind, Channel.run_tryOnBus,
    Channel.run_tryOnBus, hbus]

/-- What stands in the window at the end is the encoding of the bytes that were staged, whatever
lies behind them. -/
theorem front_eq_encode (hfits : g.Fits layout) (data : Bytes) {staged : Bytes} {window : Window}
    (hwindow : window.front g.spareSize = sealed (sealed staged 3) 2) :
    (if g.strength = .none then window
      else Engine.generateParity g g.spareSize data window).front g.spareSize =
      encode g data staged := by
  have hmarked : (sealed (sealed staged 3) 2).size = g.spareSize := by
    rw [← hwindow]
    exact Window.size_front hfits.spareSize_le
  rw [encode]
  by_cases hnone : g.strength = .none
  · rw [if_pos hnone, if_pos hnone, hwindow]
  · have hfour := Geometry.Fits.four_le_parityStart layout
    have hstart := hfits.parityStart_eq
    have hmetadata : metadataLen = 3 := rfl
    rw [if_neg hnone, if_neg hnone]
    -- The parity covers bytes of the spare area only, and there the two windows agree.
    refine Window.front_generateParity_congr g data hfits.spareSize_le (by omega) ?_
    have hstaged := Window.front_overlay_zero Window.erased
      (le_of_eq_of_le hmarked hfits.spareSize_le)
    rw [hmarked] at hstaged
    rw [hwindow, hstaged]

/-- A complete write, from rest to rest, on an engine that serves it. -/
theorem run_write (poll : Poll) (h : device.engine.AtRest g) (hfits : g.Fits layout)
    {data : Bytes} (hdata : data.size = g.pageBytes) {row cursor : Nat} {buffer : Bytes}
    {ecc : Bool} (hpending : device.latches.pending = some ⟨row, buffer, cursor, ecc⟩)
    (hhang : device.engine.hang = false) :
    ∃ engine latches, (Channel.write poll ⟨g.strength, g.spareSize⟩ data).run.run
        ⟨.idle, device⟩ = .ok (.ok (), ⟨.idle, { device with engine, latches }⟩) ∧
      engine.AtRest g ∧ engine.hang = device.engine.hang ∧
      engine.window.front g.spareSize =
        encode g data (device.engine.window.front g.spareSize) ∧
      latches.pending = some ⟨row, (buffer.overlay cursor data).overlay g.pageBytes
        (encode g data (device.engine.window.front g.spareSize)), cursor,
        g.strength ≠ .none⟩ := by
  obtain ⟨_, _, hreset, harm, armed, rfl, huntouched, harmed⟩ := run_prepareTransfer h poll data
  obtain ⟨window, hwindow, hrunWrite⟩ :=
    run_runWrite { device with engine := armed } harmed hfits poll data
  have hwindow : window.front g.spareSize =
      sealed (sealed (device.engine.window.front g.spareSize) 3) 2 := by
    rw [hwindow, ← huntouched.window_eq]
  obtain ⟨engine, latches, hdma, hrest, hhang', hdone, hfilled, hcollected⟩ :=
    run_dmaToDevice { device with engine := { armed with window } }
      (harmed.setWindow window) hfits hdata hpending (huntouched.hang_eq.trans hhang)
  -- The parity is that of the page with its markers cleared, which is how a page is encoded.
  have hencoded : engine.window.front g.spareSize =
      encode g data (device.engine.window.front g.spareSize) := by
    rw [hfilled]
    exact front_eq_encode hfits data hwindow
  have hwait : (finishWrite poll data).run.run (({ device with
      engine := armed } : Device).setWindow window |>.modifyEngine (·.started .toFlash)) =
      .ok (.ok (), { device with engine, latches }) := by
    refine run_attempt_step (run_perform hdma) (run_wait (run_perform ?_))
    rw [run_anySet_status, ← Bits.adjust_neg_one, Bits.adjust_and, UInt32.neg_one_and,
      show Bits.ready &&& Bits.transferDone = 0 by decide, UInt32.or_zero, bne_iff_ne.2 hdone]
  obtain ⟨_, hsettle, rested, rfl, huntouched', hrested⟩ :=
    run_settle { device with engine, latches }
      (show Leavable g .completed engine from hrest)
  refine ⟨rested, latches, ?_, hrested, ?_, ?_, ?_⟩
  · refine run_attempt_step (Channel.run_expect_self rfl) ?_
    refine run_step (a := .ok ()) ?_ (run_step hsettle rfl)
    refine run_attempt_step hreset (run_attempt_step harm ?_)
    rw [hrunWrite]
    exact run_attempt_step (Channel.run_tryOnBus_ok hwait _) (run_perform (Channel.run_enter _ _ _))
  · rw [huntouched'.hang_eq, hhang', ← huntouched.hang_eq]
  · rw [huntouched'.window_eq, hencoded]
  · rw [hcollected, hencoded]

/-- A write that hangs leaves the device at rest as well. -/
theorem follows_write_hang (poll : Poll) (h : device.engine.AtRest g) (hfits : g.Fits layout)
    (data : Bytes) (hhang : device.engine.hang = true) :
    Follows (poll.exhaust .transferOut)
      (fun e r channel => r = .error e ∧ ∃ engine, channel = ⟨.idle, { device with engine }⟩ ∧
        engine.AtRest g ∧ engine.hang = device.engine.hang)
      ((Channel.write poll ⟨g.strength, g.spareSize⟩ data).run.run ⟨.idle, device⟩) := by
  obtain ⟨_, _, hreset, harm, armed, rfl, huntouched, harmed⟩ := run_prepareTransfer h poll data
  obtain ⟨window, -, hrunWrite⟩ :=
    run_runWrite { device with engine := armed } harmed hfits poll data
  obtain ⟨started, hstarted⟩ : ∃ started, started =
      ({ armed with window } : Engine).started .toFlash := ⟨_, rfl⟩
  have hflags : started.register Register.status &&& Bits.transferDone = 0 := by
    rw [hstarted, Engine.register_started]
    exact Bits.and_eq_zero_of_le harmed.status_eq (by decide)
  have hstartedHang : started.hang = device.engine.hang := by
    rw [hstarted]
    exact huntouched.hang_eq
  -- An engine that hangs takes nothing, and the end of the transfer never comes up.
  have hnever : Follows (poll.exhaust .transferOut)
      (fun e r next => r = .error e ∧ next = { device with engine := started })
      ((finishWrite poll data).run.run { device with engine := started }) := by
    refine Follows.attempt_step (run_perform (run_dmaToDevice_hang
      (hstartedHang.trans hhang) data)) (follows_wait_never (run_perform ?_))
    rw [run_anySet_status, ← Bits.adjust_neg_one, Bits.adjust_and, UInt32.neg_one_and, hflags]
    rfl
  have hsteps : Follows (poll.exhaust .transferOut)
      (fun e r channel => r = .error e ∧
        channel = ⟨.running, { device with engine := started }⟩)
      ((Channel.writeSteps poll ⟨g.strength, g.spareSize⟩ data).run.run ⟨.idle, device⟩) := by
    refine Follows.attempt_step hreset (Follows.attempt_step harm ?_)
    have hnext : (({ device with engine := armed } : Device).setWindow window).modifyEngine
        (·.started .toFlash) = { device with engine := started } := by
      rw [hstarted]
      rfl
    rw [hrunWrite, hnext]
    refine Follows.attempt_error ?_
    rw [Channel.run_tryOnBus]
    refine (hnever.mono fun e r next hend => ?_).endIn
    obtain ⟨rfl, rfl⟩ := hend
    exact ⟨e, rfl, rfl, rfl⟩
  refine Follows.attempt_step (Channel.run_expect_self rfl) ?_
  refine Follows.finish hsteps fun e r channel hend => ?_
  obtain ⟨rfl, rfl⟩ := hend
  obtain ⟨_, hsettle, rested, rfl, huntouched', hrested⟩ :=
    run_settle { device with engine := started }
      (show Leavable g .running started from hstarted ▸ (harmed.setWindow window).started _)
  exact ⟨_, _, run_step hsettle rfl, rfl, rested, rfl, hrested,
    huntouched'.hang_eq.trans hstartedHang⟩

end Device

end NandFlash.Sim
