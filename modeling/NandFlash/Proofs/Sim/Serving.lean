import NandFlash.Proofs.Sim.Drive

/-!
# Serving requests on the simulated device

A controller at rest on a simulated device serves every request as its drive does, and is at rest
again afterwards. Nothing that the drive leaves out has a say in it.
-/

namespace NandFlash.Controller

open Sim

variable {controller : Controller Device} {device : Device}

/-! ## Controllers at rest -/

/-- The drive that a controller and its device amount to. -/
def drive (controller : Controller Device) : Drive :=
  ⟨controller.profile, controller.channel.bus.chip, controller.channel.bus.flash,
    controller.channel.bus.engine.hang, controller.stats⟩

/-- What holds between two operations. -/
structure Rests (controller : Controller Device) : Prop where
  settled : controller.profile.Settled
  isIdle : controller.channel.state = .idle
  size_eq : controller.staging.bytes.size = controller.profile.geometry.spareSize
  atRest : controller.channel.bus.engine.AtRest controller.profile.geometry

/-- A controller whose device has changed. -/
def withBus (controller : Controller Device) (device : Device) : Controller Device :=
  { controller with channel.bus := device }

theorem Rests.withBus (h : controller.Rests)
    (hrest : device.engine.AtRest controller.profile.geometry) :
    (controller.withBus device).Rests :=
  ⟨h.settled, h.isIdle, h.size_eq, hrest⟩

theorem run_onBus_withBus {α : Type} {m : Action Device α} {a : α}
    (h : m.run controller.channel.bus = .ok (a, device)) :
    (onBus m).run controller = .ok (a, controller.withBus device) := by
  rw [run_onBus, h]
  rfl

theorem run_tryOnBus_withBus {ε α : Type} {m : Attempt ε Device α} {r : Except ε α}
    (h : m.run.run controller.channel.bus = .ok (r, device)) :
    (tryOnBus m).run.run controller = .ok (r, controller.withBus device) :=
  run_onBus_withBus h

/-- Commands alone leave a controller at rest. -/
theorem Rests.commanded (h : controller.Rests)
    (hcommanded : controller.channel.bus.Commanded device) :
    (controller.withBus device).Rests ∧ (controller.withBus device).drive = controller.drive := by
  refine ⟨h.withBus (hcommanded.engine_eq ▸ h.atRest), ?_⟩
  show (⟨_, device.chip, device.flash, device.engine.hang, _⟩ : Drive) = _
  rw [hcommanded.chip_eq, hcommanded.flash_eq, hcommanded.engine_eq]
  rfl

/-! ## Commands -/

theorem run_command {cmd : Command} (hcmd : cmd ≠ .readSpare) (column row : Option Nat) :
    (command cmd column row).run.run controller = endIn controller.withBus
      ((Framing.send controller.profile.poll controller.profile.chip.rowCycles cmd column
        row).run.run controller.channel.bus) := by
  unfold command
  rw [run_attempt_bind (run_getProfile controller)]
  cases cmd <;> first | exact absurd rfl hcmd | exact run_tryOnBus _ _

/-- The small-page spare command goes out as a read behind the page data. -/
theorem run_command_readSpare (row : Nat) :
    (command .readSpare (some 0) (some row)).run.run controller = endIn controller.withBus
      ((Framing.send controller.profile.poll controller.profile.chip.rowCycles .read
        (some controller.profile.geometry.pageBytes) (some row)).run.run
          controller.channel.bus) := by
  have hpage := controller.profile.geometry.pageBytes_le
  have hword : word64 (0 + controller.profile.geometry.pageBytes) =
      .ok controller.profile.geometry.pageBytes := by
    rw [Nat.zero_add, word64_eq_ok]
    exact ⟨Nat.lt_of_le_of_lt hpage (by decide), rfl⟩
  unfold command
  rw [run_attempt_bind (run_getProfile controller)]
  exact run_attempt_step (run_lift hword) (run_tryOnBus _ _)

theorem rowCycles_pos (chip : ChipInfo) : 0 < chip.rowCycles := by
  unfold ChipInfo.rowCycles
  split <;> omega

theorem follows_endIn {ε α γ : Type} {x : Except Crash γ} {post : γ → α → Device → Prop}
    {run : Except Crash (Except ε α × Device)}
    (h : Follows x (fun c r next => ∃ a, r = .ok a ∧ post c a next) run) :
    Follows x (fun c r next => ∃ a, r = .ok a ∧
      ∃ device, next = controller.withBus device ∧ post c a device)
      (endIn controller.withBus run) := by
  refine Follows.endIn (h.mono fun c r next hend => ?_)
  obtain ⟨a, ha, hpost⟩ := hend
  exact ⟨a, ha, next, rfl, hpost⟩

/-- A command does to the device below what it does on its own. -/
theorem follows_command (controller : Controller Device) {cmd : Command} (hcmd : cmd ≠ .readSpare)
    {column row : Option Nat} {γ : Type} {x : Except Crash γ} {post : γ → Unit → Device → Prop}
    (h : Follows x (fun c r next => ∃ a, r = .ok a ∧ post c a next)
      ((Framing.send controller.profile.poll controller.profile.chip.rowCycles cmd column
        row).run.run controller.channel.bus)) :
    Follows x (fun c r next => ∃ a, r = .ok a ∧
        ∃ device, next = controller.withBus device ∧ post c a device)
      ((command cmd column row).run.run controller) := by
  rw [run_command hcmd]
  exact follows_endIn h

/-- The spare area of a row is delivered. -/
theorem follows_command_readSpare (controller : Controller Device) (row : Nat) :
    Follows (controller.drive.rowAt .read row)
      (fun row r next => ∃ a, r = .ok a ∧ ∃ device, next = controller.withBus device ∧
        controller.channel.bus.Commanded device ∧
        device.latches.Delivers (controller.drive.flash.content row) row
          controller.profile.geometry.pageBytes)
      ((command .readSpare (some 0) (some row)).run.run controller) := by
  have hpage := controller.profile.geometry.pageBytes_le
  have hread := Device.follows_send_read controller.channel.bus controller.profile.poll
    (rowCycles_pos controller.profile.chip) controller.profile.geometry.pageBytes row
  rw [Nat.mod_eq_of_lt (by omega)] at hread
  rw [run_command_readSpare]
  exact follows_endIn hread

/-- Wait for the end of a program or an erase. -/
theorem run_awaitSuccess (controller : Controller Device) (failure : Error) {isSound : Bool}
    (hstatus : controller.channel.bus.latches.status =
      if isSound then Latches.statusReady else Latches.statusFailed) :
    ∃ device, (awaitSuccess failure).run.run controller =
        .ok (if isSound then .ok () else .error failure, controller.withBus device) ∧
      controller.channel.bus.Commanded device := by
  obtain ⟨device, hrun, hcommanded, houtput, hkept⟩ := Device.run_send_status
    controller.channel.bus controller.profile.poll controller.profile.chip.rowCycles
  -- The chip is ready at once, and its status byte tells how it went.
  have hwait : (tryOnBus (Framing.waitReady controller.profile.poll)).run.run controller =
      .ok (.ok (), controller) :=
    run_tryOnBus_withBus (Device.run_waitReady _)
  have hcommand : (command .status none none).run.run controller =
      .ok (.ok (), controller.withBus device) := by
    rw [run_command (by decide), hrun]
    rfl
  have hbyte : (onBus Framing.readByte).run (controller.withBus device) =
      .ok (device.latches.status, controller.withBus device) :=
    run_onBus_withBus (Device.run_readByte_status houtput)
  refine ⟨device, ?_, hcommanded⟩
  refine run_attempt_step (run_getProfile controller) (run_attempt_step hwait ?_)
  refine run_attempt_step (run_attempt_step hcommand (run_perform hbyte)) ?_
  rw [hkept, hstatus]
  cases isSound <;> rfl

/-! ## Programs and erases -/

/-- How a program or an erase leaves the controller. -/
structure Concludes (controller : Controller Device) (flash : Flash)
    (next : Controller Device) : Prop where
  rests : next.Rests
  drive_eq : next.drive = { controller.drive with flash }

/-- The end of a program or an erase that has been waited for. -/
theorem run_conclude (h : controller.Rests) {isSound : Bool} {flash : Flash} (failure : Error)
    (hdone : controller.channel.bus.Concluded isSound flash device) :
    ∃ next, (awaitSuccess failure).run.run (controller.withBus device) =
        .ok (if isSound then .ok () else .error failure, next) ∧
      controller.Concludes flash next := by
  obtain ⟨last, hrun, hcommanded⟩ := run_awaitSuccess (controller.withBus device) failure
    hdone.status_eq
  have hengine : last.engine = controller.channel.bus.engine :=
    hcommanded.engine_eq.trans hdone.engine_eq
  refine ⟨_, hrun, (h.withBus (hengine ▸ h.atRest) : (controller.withBus last).Rests), ?_⟩
  have hchip : last.chip = controller.channel.bus.chip := hcommanded.chip_eq.trans hdone.chip_eq
  have hflash : last.flash = flash := hcommanded.flash_eq.trans hdone.flash_eq
  show (⟨_, last.chip, last.flash, last.engine.hang, _⟩ : Drive) = _
  rw [hchip, hflash, hengine]
  rfl

/-- The collected page is programmed. -/
theorem follows_program (h : controller.Rests) {row cursor : Nat} {buffer : Bytes} {ecc : Bool}
    (hpending : controller.channel.bus.latches.pending = some ⟨row, buffer, cursor, ecc⟩)
    (failure : Error) :
    Follows (controller.drive.chip.programRow controller.drive.flash row buffer ecc)
      (fun result r next => r = (if result.1 then .ok () else .error failure) ∧
        controller.Concludes result.2 next)
      ((do command .program none none; awaitSuccess failure :
        Attempt Error (Controller Device) Unit).run.run controller) := by
  have hcommand := follows_command controller (by decide) (Device.follows_send_program
    controller.channel.bus controller.profile.poll controller.profile.chip.rowCycles hpending)
  refine hcommand.attempt_finish fun result _ next hend => ?_
  obtain ⟨device, rfl, hdone⟩ := hend
  obtain ⟨last, hrun, hlast⟩ := run_conclude h failure hdone
  exact ⟨_, last, hrun, rfl, hlast⟩

/-- A block is erased. -/
theorem follows_erase (h : controller.Rests) (first : Nat) (failure : Error) :
    Follows (do
        let row ← controller.drive.rowAt .eraseSetup first
        controller.drive.chip.eraseRow controller.drive.flash row)
      (fun result r next => r = (if result.1 then .ok () else .error failure) ∧
        controller.Concludes result.2 next)
      ((do command .eraseSetup none (some first); command .erase none none; awaitSuccess failure :
        Attempt Error (Controller Device) Unit).run.run controller) := by
  have hsetup := follows_command controller (by decide) (Device.follows_send_eraseSetup
    controller.channel.bus controller.profile.poll (rowCycles_pos controller.profile.chip) first)
  refine hsetup.attempt_bind fun row _ next hend => ?_
  obtain ⟨device, rfl, hcommanded, hrow⟩ := hend
  have hrest : (controller.withBus device).Rests := h.withBus (hcommanded.engine_eq ▸ h.atRest)
  have herase := follows_command (controller.withBus device) (by decide)
    (Device.follows_send_erase device controller.profile.poll controller.profile.chip.rowCycles)
  rw [hrow, hcommanded.chip_eq, hcommanded.flash_eq] at herase
  refine herase.attempt_finish fun result _ next hend => ?_
  obtain ⟨last, rfl, hdone⟩ := hend
  -- The chip reports on the two commands together.
  have hdone : controller.channel.bus.Concluded result.1 result.2 last :=
    ⟨hdone.chip_eq.trans hcommanded.chip_eq, hdone.engine_eq.trans hcommanded.engine_eq,
      hdone.flash_eq, hdone.status_eq⟩
  obtain ⟨last, hrun, hlast⟩ := run_conclude h failure hdone
  exact ⟨_, last, hrun, rfl, hlast⟩

/-! ## The staging area -/

/-- A controller whose staging area and window have been filled. -/
def staged (controller : Controller Device) (bytes : Bytes) : Controller Device :=
  { controller.withBus (controller.channel.bus.setWindow
      (controller.channel.bus.engine.window.overlay 0 bytes)) with staging := ⟨bytes⟩ }

theorem run_stage_eq (controller : Controller Device) (fill : StagingArea → StagingArea)
    {bytes : Bytes} (hfill : fill controller.staging = ⟨bytes⟩) (hsize : bytes.size ≤ windowLen) :
    (stage fill).run controller = .ok ((), controller.staged bytes) := by
  rw [run_stage, hfill, Device.run_store hsize]
  rfl

/-- Unstaging copies the front of the window. -/
theorem run_unstage_eq (controller : Controller Device) {bytes : Bytes} {n : Nat}
    (hsize : controller.staging.bytes.size = n) (hn : n ≤ windowLen)
    (hfront : controller.channel.bus.engine.window.front n = bytes) :
    unstage.run controller = .ok (bytes, { controller with staging := ⟨bytes⟩ }) := by
  subst hsize hfront
  rw [run_unstage, Device.run_load hn]

theorem front_staged {bytes : Bytes} (hsize : bytes.size ≤ windowLen) :
    (controller.staged bytes).channel.bus.engine.window.front bytes.size = bytes :=
  Window.front_overlay_zero _ hsize

theorem Rests.staged (h : controller.Rests) {bytes : Bytes}
    (hsize : bytes.size = controller.profile.geometry.spareSize) :
    (controller.staged bytes).Rests ∧ (controller.staged bytes).drive = controller.drive :=
  ⟨⟨h.settled, h.isIdle, hsize, h.atRest.setWindow _⟩, rfl⟩

/-! ## Reading -/

/-- The spare area is read, and put into the window. -/
theorem follows_readSpare (h : controller.Rests) {pages page spareLen : Nat}
    (hpages : controller.profile.chip.pages = .ok pages) (hpage : page < pages)
    (hspare : spareLen = controller.profile.geometry.spareSize) :
    Follows (controller.drive.rowAt .read page)
      (fun row r next => ∃ spare, r = .ok spare ∧ spare = controller.drive.spareOf row ∧
        next.Rests ∧ next.drive = controller.drive ∧
        next.channel.bus.engine.window.front controller.profile.geometry.spareSize = spare)
      ((readSpare page spareLen).run.run controller) := by
  have hwindow := h.settled.fits.spareSize_le
  unfold readSpare
  refine Follows.attempt_step (run_requirePage_pass hpages hpage) ?_
  refine Follows.attempt_step (run_getProfile controller) ?_
  refine Follows.attempt_step (run_requireSize_pass _ hspare) ?_
  refine (follows_command_readSpare controller page).attempt_finish fun row _ next hend => ?_
  obtain ⟨device, rfl, hcommanded, hdelivers⟩ := hend
  obtain ⟨last, hread, hlast⟩ := Device.run_readData hdelivers spareLen
  have hkept := hcommanded.trans hlast
  have hfilled : Device.pageBytes (controller.drive.flash.content row)
      controller.profile.geometry.pageBytes spareLen = controller.drive.spareOf row := by
    rw [hspare]
    rfl
  have hsize : (controller.drive.spareOf row).size = controller.profile.geometry.spareSize :=
    controller.drive.size_spareOf row
  -- What has been read is staged, so that the window shows it from its beginning.
  have hstaged : controller.staging.overlay (controller.drive.spareOf row) =
      ⟨controller.drive.spareOf row⟩ :=
    congrArg StagingArea.mk (Bytes.overlay_zero_of_size_eq (hsize.trans h.size_eq.symm))
  have hread : (readBuffer spareLen).run (controller.withBus device) =
      .ok (controller.drive.spareOf row, controller.withBus last) :=
    run_onBus_withBus (hread.trans (by rw [hfilled]))
  have hstage := run_stage_eq (controller.withBus last)
    (fun staging => staging.overlay (controller.drive.spareOf row)) hstaged
    (le_of_eq_of_le hsize hwindow)
  obtain ⟨hrest, hdrive⟩ := h.commanded hkept
  obtain ⟨hstagedRest, hstagedDrive⟩ := hrest.staged hsize
  refine ⟨_, _, run_attempt_step (run_perform hread) (run_attempt_step (run_perform hstage) rfl),
    _, rfl, rfl, hstagedRest, hstagedDrive.trans hdrive, ?_⟩
  rw [← hsize]
  exact front_staged (le_of_eq_of_le hsize hwindow)

/-- A page is moved into a buffer, and the repaired spare area is copied back. -/
theorem follows_transferIn (h : controller.Rests) (page : Nat) {row column : Nat}
    {content data spare : Bytes}
    (hdelivers : controller.channel.bus.latches.Delivers content row column)
    (hdata : data.size = controller.profile.geometry.pageBytes)
    (hfront : controller.channel.bus.engine.window.front controller.profile.geometry.spareSize =
      spare) {buffer : Bytes} (hbuffer : buffer.size = controller.profile.geometry.spareSize) :
    Follows (Device.readOutcome controller.drive.profile.poll controller.drive.geometry page
        controller.drive.hang content (controller.drive.flash.reference row)
        ⟨data, spare, controller.drive.stats, []⟩)
      (fun result r next => r = ⟨result.1, result.2.data, result.2.spare⟩ ∧ next.Rests ∧
        next.drive = { controller.drive with stats := result.2.stats })
      ((do
        let (outcome, data) ← transferIn page data
        let spare ← buffer.replaceFrom 0 (← unstage)
        return ⟨outcome, data, spare⟩ : Action (Controller Device) PageRead).run controller) := by
  obtain ⟨profile, ⟨state, device⟩, staging, stats⟩ := controller
  obtain rfl : state = .idle := h.isIdle
  have hread := Device.follows_read profile.poll page h.atRest h.settled.fits hdelivers
    (show (⟨data, spare, stats, []⟩ : Repairs).data.size = _ from hdata) hfront
  have htransfer : Follows (Device.readOutcome profile.poll profile.geometry page
      device.engine.hang content (device.flash.reference row) ⟨data, spare, stats, []⟩)
      (fun result r next => r = (result.1, result.2.data) ∧ ∃ engine,
        next = ⟨profile, ⟨.idle, { device with engine }⟩, staging, result.2.stats⟩ ∧
        engine.hang = device.engine.hang ∧
        engine.window.front profile.geometry.spareSize = result.2.spare ∧
        engine.AtRest profile.geometry)
      ((transferIn page data).run ⟨profile, ⟨.idle, device⟩, staging, stats⟩) := by
    rw [run_transferIn]
    refine (hread.mono fun result r reading hend => ?_).map
    obtain ⟨rfl, engine, rfl, hhang, hwindow, hrest⟩ := hend
    exact ⟨rfl, engine, rfl, hhang, hwindow, hrest⟩
  -- The repairs have gone into the window too, from which the spare area is taken back.
  refine htransfer.finish fun result r next hend => ?_
  obtain ⟨rfl, engine, rfl, hhang, hwindow, hrest⟩ := hend
  have hload := run_unstage_eq ⟨profile, ⟨.idle, { device with engine }⟩, staging, result.2.stats⟩
    h.size_eq h.settled.fits.spareSize_le hwindow
  have hsize : result.2.spare.size = profile.geometry.spareSize := by
    rw [← hwindow]
    exact Window.size_front h.settled.fits.spareSize_le
  have hreplace := Bytes.replaceFrom_zero (hsize.trans hbuffer.symm)
  refine ⟨_, _, run_step hload (run_step (run_action_lift hreplace) rfl), rfl,
    ⟨h.settled, rfl, hsize, hrest⟩, ?_⟩
  · show (⟨profile, device.chip, device.flash, engine.hang, result.2.stats⟩ : Drive) = _
    rw [hhang]
    rfl

/-- A page is read. -/
theorem follows_readPage (h : controller.Rests) {pages page : Nat} {data spare : Bytes}
    (hpages : controller.profile.chip.pages = .ok pages) (hpage : page < pages)
    (hdata : data.size = controller.profile.geometry.pageBytes)
    (hspare : spare.size = controller.profile.geometry.spareSize) :
    Follows (controller.drive.perform (.readPage page data spare))
      (fun result r next => r.outcome.map .repaired = result.1.1 ∧ r.data = result.1.2.1 ∧
        r.spare = result.1.2.2 ∧ next.Rests ∧ next.drive = result.2)
      ((readPage page data spare).run controller) := by
  have hfetch : Follows (controller.drive.rowAt .read page)
      (fun row r next => ∃ spare, r = .ok spare ∧ spare = controller.drive.spareOf row ∧
        next.Rests ∧ next.drive = controller.drive ∧
        next.channel.bus.engine.window.front controller.profile.geometry.spareSize = spare)
      ((do requireSize .page data.size controller.profile.geometry.pageBytes
           readSpare page spare.size :
        Attempt Error (Controller Device) Bytes).run.run controller) :=
    Follows.attempt_step (run_requireSize_pass _ hdata)
      (follows_readSpare h hpages hpage hspare)
  unfold readPage
  refine Follows.step (show (get : Action _ _).run controller = .ok (controller, controller)
    from rfl) ?_
  refine hfetch.bind fun row r next hend => ?_
  obtain ⟨_, rfl, rfl, hrest, hdrive, hfront⟩ := hend
  -- The spare area has been read; a second command loads the page for the transfer.
  have hcommand : Follows (next.drive.rowAt .read page) _ _ :=
    follows_command next (by decide) (Device.follows_send_read next.channel.bus
      next.profile.poll (rowCycles_pos next.profile.chip) 0 page)
  rw [hdrive] at hcommand
  refine hcommand.bind fun row' r loaded hend => ?_
  obtain ⟨_, rfl, device, rfl, hcommanded, hdelivers⟩ := hend
  obtain ⟨hloaded, hloadedDrive⟩ := hrest.commanded hcommanded
  have hprofile : next.profile = controller.profile := congrArg Drive.profile hdrive
  have hflash : next.channel.bus.flash = controller.drive.flash := congrArg Drive.flash hdrive
  rw [← hprofile, ← hcommanded.engine_eq] at hfront
  have hread : (controller.drive.spareOf row).size = next.profile.geometry.spareSize := by
    rw [hprofile]
    exact controller.drive.size_spareOf row
  have htransfer := follows_transferIn hloaded page hdelivers (hprofile ▸ hdata) hfront hread
  rw [hloadedDrive, hdrive, hflash] at htransfer
  refine htransfer.finish_left fun result r next hend => ?_
  obtain ⟨rfl, hrest, hdrive⟩ := hend
  exact ⟨_, rfl, rfl, rfl, rfl, hrest, hdrive⟩

/-! ## Writing -/

/-- A page that a hanging engine does not take is given up, and the controller is at rest. -/
theorem follows_transferOut_hang (h : controller.Rests)
    (hhang : controller.channel.bus.engine.hang = true) (data : Bytes) (parityStart : Nat) :
    Follows (controller.profile.poll.exhaust .transferOut)
      (fun e r next => r = .error e ∧ next.Rests ∧ next.drive = controller.drive)
      ((do
        tryOnChannel (Channel.write controller.profile.poll (setup controller.profile) data)
        let staged ← perform unstage
        staged.slice parityStart staged.size :
          Attempt Error (Controller Device) Bytes).run.run controller) := by
  obtain ⟨profile, ⟨state, device⟩, staging, stats⟩ := controller
  obtain rfl : state = .idle := h.isIdle
  have hwrite := Device.follows_write_hang profile.poll h.atRest h.settled.fits data hhang
  refine Follows.attempt_error ?_
  rw [run_tryOnChannel]
  refine (hwrite.mono fun e r channel hend => ?_).endIn
  obtain ⟨rfl, engine, rfl, hrest, hhang'⟩ := hend
  refine ⟨e, rfl, rfl, ⟨h.settled, rfl, h.size_eq, hrest⟩, ?_⟩
  show (⟨profile, device.chip, device.flash, engine.hang, stats⟩ : Drive) = _
  rw [hhang']
  rfl

/-- A page is moved to the chip, and the window is copied back. -/
theorem follows_transferOut (h : controller.Rests) {data spare buffer : Bytes} {row : Nat}
    {ecc : Bool} (hdata : data.size = controller.profile.geometry.pageBytes)
    (hpending : controller.channel.bus.latches.pending = some ⟨row, buffer, 0, ecc⟩)
    (hfront : controller.channel.bus.engine.window.front controller.profile.geometry.spareSize =
      spare) {parityStart : Nat} (hstart : parityStart ≤ controller.profile.geometry.spareSize) :
    Follows controller.drive.transferOut
      (fun failure? r next => next.Rests ∧ next.drive = controller.drive ∧ match failure? with
        | some error => r = .error error
        | none => r = .ok ((Device.encode controller.drive.geometry data spare).extract parityStart
              (Device.encode controller.drive.geometry data spare).size) ∧
            next.channel.bus.latches.pending = some ⟨row, (buffer.overlay 0 data).overlay
              controller.drive.geometry.pageBytes
              (Device.encode controller.drive.geometry data spare), 0,
              controller.drive.geometry.strength ≠ .none⟩)
      ((do
        tryOnChannel (Channel.write controller.profile.poll (setup controller.profile) data)
        let staged ← perform unstage
        staged.slice parityStart staged.size :
          Attempt Error (Controller Device) Bytes).run.run controller) := by
  unfold Drive.transferOut
  -- A device that hangs does not answer, and any other encodes the page at once.
  cases hhang : controller.drive.hang with
  | true =>
    simp only [if_true]
    exact (follows_transferOut_hang h hhang data parityStart).finish_left
      fun e r next hend => ⟨some e, rfl, hend.2.1, hend.2.2, hend.1⟩
  | false =>
    obtain ⟨profile, ⟨state, device⟩, staging, stats⟩ := controller
    obtain rfl : state = .idle := h.isIdle
    have hfits := h.settled.fits
    obtain ⟨engine, latches, hrun, hrest, hhang', hwritten, hcollected⟩ :=
      Device.run_write profile.poll h.atRest hfits hdata hpending hhang
    have hwritten : engine.window.front profile.geometry.spareSize =
        Device.encode profile.geometry data spare := by
      rw [hwritten, ← hfront]
    have hload := run_unstage_eq ⟨profile, ⟨.idle, { device with engine, latches }⟩, staging, stats⟩
      h.size_eq hfits.spareSize_le hwritten
    have hsize : (Device.encode profile.geometry data spare).size = profile.geometry.spareSize := by
      rw [← hwritten]
      exact Window.size_front hfits.spareSize_le
    have hslice := Bytes.slice_eq_ok (hstart.trans_eq hsize.symm) (Nat.le_refl _)
    have hwrite : (tryOnChannel (Channel.write profile.poll (setup profile) data)).run.run
        ⟨profile, ⟨.idle, device⟩, staging, stats⟩ = .ok (.ok (),
          ⟨profile, ⟨.idle, { device with engine, latches }⟩, staging, stats⟩) := by
      rw [run_tryOnChannel]
      show endIn _ ((Channel.write _ ⟨_, _⟩ data).run.run ⟨.idle, device⟩) = _
      rw [hrun]
      rfl
    simp only [Bool.false_eq_true, if_false]
    refine Follows.of_ok (run_attempt_step hwrite (run_attempt_step (run_perform hload)
      (run_lift hslice))) ⟨⟨h.settled, rfl, hsize, hrest⟩, ?_, rfl, ?_⟩
    · show (⟨profile, device.chip, device.flash, engine.hang, stats⟩ : Drive) = _
      rw [hhang']
      rfl
    · rw [hcollected, hfront]
      rfl

/-- Everything of a page program up to the end of its transfer. -/
theorem follows_fillPage (h : controller.Rests) {pages page : Nat} {data spare : Bytes}
    (hpages : controller.profile.chip.pages = .ok pages) (hpage : page < pages)
    (hdata : data.size = controller.profile.geometry.pageBytes)
    (hspare : spare.size = controller.profile.geometry.spareSize) :
    Follows (do
        let row ← controller.drive.rowAt .programSetup page
        let failure? ← controller.drive.transferOut
        return (row, failure?))
      (fun result r next => next.Rests ∧ next.drive = controller.drive ∧ match result.2 with
        | some error => r = .error error
        | none => r = .ok ((controller.drive.spareFor data spare).extract
              controller.profile.layout.parityStart (controller.drive.spareFor data spare).size) ∧
            next.channel.bus.latches.pending = some ⟨result.1, (controller.drive.pageWith 0
              data).overlay controller.drive.geometry.pageBytes
              (controller.drive.spareFor data spare), 0, controller.drive.geometry.strength ≠ .none⟩)
      ((fillPage page data spare).run.run controller) := by
  have hwindow := h.settled.fits.spareSize_le
  have hstart := h.settled.fits.parityStart_le
  unfold fillPage
  refine Follows.attempt_step (run_requirePage_pass hpages hpage) ?_
  refine Follows.attempt_step (run_getProfile controller) ?_
  refine Follows.attempt_step (run_requireSize_pass _ hdata) ?_
  refine Follows.attempt_step (run_requireSize_pass _ hspare) ?_
  have hsetup : Follows (controller.drive.rowAt .programSetup page) _ _ :=
    follows_command controller (by decide) (Device.follows_send_programSetup
      controller.channel.bus controller.profile.poll (rowCycles_pos controller.profile.chip) 0 page)
  refine hsetup.attempt_bind fun row _ next hend => ?_
  obtain ⟨device, rfl, hcommanded, hpending⟩ := hend
  obtain ⟨hrest, hdrive⟩ := h.commanded hcommanded
  -- What is staged is the part before the parity, over erased bytes.
  obtain ⟨marks, hmarks⟩ :
      ∃ marks, marks = (Bytes.erased controller.profile.geometry.spareSize).overlay
      0 (spare.extract 0 controller.profile.layout.parityStart) := ⟨_, rfl⟩
  have hsize : marks.size = controller.profile.geometry.spareSize := by
    rw [hmarks, Bytes.size_overlay, Bytes.size_erased]
  have hfill : controller.staging.fillErased.overlay
      (spare.extract 0 controller.profile.layout.parityStart) = ⟨marks⟩ := by
    rw [hmarks, StagingArea.fillErased, h.size_eq]
    rfl
  have hstage := run_stage_eq (controller.withBus device) (fun staging =>
    staging.fillErased.overlay (spare.extract 0 controller.profile.layout.parityStart)) hfill
    (le_of_eq_of_le hsize hwindow)
  obtain ⟨hstaged, hstagedDrive⟩ := hrest.staged hsize
  have hfront : ((controller.withBus device).staged marks).channel.bus.engine.window.front
      controller.profile.geometry.spareSize = marks := by
    rw [← hsize]
    exact front_staged (le_of_eq_of_le hsize hwindow)
  have htransfer := follows_transferOut hstaged hdata hpending hfront hstart
  rw [hstagedDrive, hdrive] at htransfer
  refine Follows.attempt_step (run_lift (Bytes.slice_eq_ok (Nat.zero_le _) (by rwa [hspare]))) ?_
  refine Follows.attempt_step (run_perform hstage)
    (htransfer.finish_left fun failure? r next hend => ?_)
  obtain ⟨hnext, hnextDrive, hend⟩ := hend
  refine ⟨_, rfl, hnext, hnextDrive, ?_⟩
  rw [hmarks] at hend
  exact hend

/-- The ideal write, with the page latched before anything is made of it. -/
theorem perform_writePage_eq_bind (drive : Drive) (page : Nat) (data spare : Bytes) :
    drive.perform (.writePage page data spare) = (do
      let row ← drive.rowAt .programSetup page
      let failure? ← drive.transferOut
      return (row, failure?)) >>= fun result => match result.2 with
        | some error => pure ((.error error, data, spare), drive)
        | none => do
          let (isSound, flash) ← drive.chip.programRow drive.flash result.1
            ((drive.pageWith 0 data).overlay drive.geometry.pageBytes (drive.spareFor data spare))
            (drive.geometry.strength ≠ .none)
          return ((Drive.outcomeOf isSound (.programFailed page), data,
            spare.extract 0 drive.profile.layout.parityStart ++
              (drive.spareFor data spare).extract drive.profile.layout.parityStart
                (drive.spareFor data spare).size), { drive with flash }) := by
  simp only [bind_assoc, pure_bind]
  rfl

/-- A page is written. -/
theorem follows_writePage (h : controller.Rests) {pages page : Nat} {data spare : Bytes}
    (hpages : controller.profile.chip.pages = .ok pages) (hpage : page < pages)
    (hdata : data.size = controller.profile.geometry.pageBytes)
    (hspare : spare.size = controller.profile.geometry.spareSize) :
    Follows (controller.drive.perform (.writePage page data spare))
      (fun result r next => (r.1.map fun _ => Answer.done) = result.1.1 ∧ data = result.1.2.1 ∧
        r.2 = result.1.2.2 ∧ next.Rests ∧ next.drive = result.2)
      ((writePage page data spare).run controller) := by
  have hfill := follows_fillPage h hpages hpage hdata hspare
  rw [perform_writePage_eq_bind]
  unfold writePage
  refine Follows.step (show (get : Action _ _).run controller = .ok (controller, controller)
    from rfl) ?_
  refine hfill.bind fun result r next hend => ?_
  obtain ⟨row, failure?⟩ := result
  obtain ⟨hrest, hdrive, hend⟩ := hend
  -- A transfer that fails ends the request; otherwise the page that it has filled is programmed.
  cases failure? with
  | some error =>
    obtain rfl := hend
    exact Follows.of_ok rfl ⟨rfl, rfl, rfl, hrest, hdrive⟩
  | none =>
    obtain ⟨rfl, hpending⟩ := hend
    -- The parity is as long as what the buffer has behind the bytes of the user.
    have hfits : controller.drive.geometry.Fits controller.profile.layout := h.settled.fits
    have hadd : controller.profile.layout.parityStart + controller.drive.geometry.parityBytes =
      controller.drive.geometry.spareSize := hfits.parityStart_add
    have hspare : spare.size = controller.drive.geometry.spareSize := hspare
    have hparity : controller.profile.layout.parityStart + ((controller.drive.spareFor data
        spare).extract controller.profile.layout.parityStart
        (controller.drive.spareFor data spare).size).size = spare.size := by
      rw [Array.size_extract, controller.drive.size_spareFor hfits.spareSize_le]
      omega
    have hprogram := follows_program hrest hpending (.programFailed page)
    rw [hdrive] at hprogram
    refine Follows.step (run_action_lift (Bytes.replaceFrom_eq_ok hparity)) ?_
    refine hprogram.bind fun result r next hend => ?_
    obtain ⟨isSound, flash⟩ := result
    obtain ⟨rfl, hnext⟩ := hend
    refine Follows.of_ok rfl ⟨?_, rfl, rfl, hnext.rests, ?_⟩
    · cases isSound <;> rfl
    · rw [hnext.drive_eq, hdrive]

/-! ## Blocks -/

theorem follows_firstRow (block : Nat) :
    Follows (controller.drive.firstRow block)
      (fun first r next => ∃ a, r = .ok a ∧ a = first ∧ next = controller)
      ((firstRow block).run.run controller) := by
  unfold firstRow Drive.firstRow
  refine Follows.attempt_step (run_getProfile controller) ?_
  show Follows (controller.profile.chip.pagesPerBlock >>= fun pagesPerBlock =>
    word32 (block * pagesPerBlock)) _ _
  cases hpages : controller.profile.chip.pagesPerBlock with
  | error defect => exact Follows.of_error rfl
  | ok pagesPerBlock =>
    refine Follows.attempt_step (run_lift rfl) ?_
    show Follows (word32 (block * pagesPerBlock)) _ _
    cases word32 (block * pagesPerBlock) with
    | error defect => exact Follows.of_error rfl
    | ok first => exact Follows.of_ok rfl ⟨first, rfl, rfl, rfl⟩

section

variable {blocks block : Nat} (h : controller.Rests)
  (hblocks : controller.profile.chip.blocks = .ok blocks) (hblock : block < blocks)

include h hblocks hblock

/-- A block is erased. -/
theorem follows_eraseBlock :
    Follows (controller.drive.perform (.eraseBlock block))
      (fun result r next => result.1 = (r.map fun _ => .done, #[], #[]) ∧ next.Rests ∧
        next.drive = result.2)
      ((eraseBlock block).run.run controller) := by
  unfold eraseBlock
  refine Follows.attempt_step (run_requireBlock_pass hblocks hblock) ?_
  refine (follows_firstRow block).attempt_bind fun first _ next hend => ?_
  obtain ⟨rfl, rfl⟩ := hend
  rw [← bind_assoc]
  refine (follows_erase h _ (.eraseFailed block)).finish_left fun result r next hend => ?_
  obtain ⟨isSound, flash⟩ := result
  obtain ⟨rfl, hnext⟩ := hend
  refine ⟨_, rfl, ?_, hnext.rests, hnext.drive_eq⟩
  cases isSound <;> rfl

/-- The marker of a block is looked at. -/
theorem follows_isBad :
    Follows (controller.drive.perform (.isBad block))
      (fun result r next => result.1 = (r.map .marked, #[], #[]) ∧ next.Rests ∧
        next.drive = result.2)
      ((isBad block).run.run controller) := by
  unfold isBad
  refine Follows.attempt_step (run_requireBlock_pass hblocks hblock) ?_
  refine (follows_firstRow block).attempt_bind fun first _ next hend => ?_
  obtain ⟨rfl, rfl⟩ := hend
  refine (follows_command_readSpare next _).attempt_bind fun row _ read hend => ?_
  obtain ⟨device, rfl, hcommanded, hdelivers⟩ := hend
  obtain ⟨last, hrun, hlast, -⟩ := Device.run_readByte_page hdelivers
  have hbyte : (onBus Framing.readByte).run (next.withBus device) =
      .ok ((next.drive.flash.content row).getD next.profile.geometry.pageBytes erasedByte,
        next.withBus last) := run_onBus_withBus hrun
  obtain ⟨hrest, hdrive⟩ := h.commanded (hcommanded.trans hlast)
  exact Follows.of_ok (run_attempt_step (run_perform hbyte) rfl) ⟨rfl, hrest, hdrive⟩

/-- A block is marked bad. -/
theorem follows_markBad :
    Follows (controller.drive.perform (.markBad block))
      (fun result r next => result.1 = (r.map fun _ => .done, #[], #[]) ∧ next.Rests ∧
        next.drive = result.2)
      ((markBad block).run.run controller) := by
  have hpage := controller.profile.geometry.pageBytes_le
  unfold markBad
  refine Follows.attempt_step (run_requireBlock_pass hblocks hblock) ?_
  refine (follows_firstRow block).attempt_bind fun _ first next hend => ?_
  obtain ⟨rfl, rfl⟩ := hend
  refine Follows.attempt_step (run_getProfile next) ?_
  -- The marker goes to the first spare bytes, straight through the data port.
  have hsetup := Device.follows_send_programSetup next.channel.bus next.profile.poll
    (rowCycles_pos next.profile.chip) next.profile.geometry.pageBytes first
  rw [Nat.mod_eq_of_lt (by omega)] at hsetup
  refine (follows_command next (by decide) hsetup).attempt_bind fun row _ collecting hend => ?_
  obtain ⟨device, rfl, hcommanded, hpending⟩ := hend
  obtain ⟨last, hrun, hlast, hcollected⟩ := Device.run_writeData hpending badBlockMarker
  have hwrite : (writeBuffer badBlockMarker).run (next.withBus device) =
      .ok ((), next.withBus last) := run_onBus_withBus hrun
  obtain ⟨hrest, hdrive⟩ := h.commanded (hcommanded.trans hlast)
  refine Follows.attempt_step (run_perform hwrite) ?_
  have hprogram := follows_program hrest hcollected (.programFailed first)
  rw [hdrive] at hprogram
  refine hprogram.finish_left fun result r marked hend => ?_
  obtain ⟨isSound, flash⟩ := result
  obtain ⟨rfl, hmarked⟩ := hend
  refine ⟨_, rfl, ?_, hmarked.rests, ?_⟩
  · cases isSound <;> rfl
  · rw [hmarked.drive_eq, hdrive]

end

/-! ## Identification and reset -/

theorem follows_readId (h : controller.Rests) :
    Follows (controller.drive.perform .readId)
      (fun result r next => result.1 = (r.map .id, #[], #[]) ∧ next.Rests ∧
        next.drive = result.2)
      (readId.run.run controller) := by
  have hread := Device.follows_readId controller.channel.bus controller.profile.poll
  have hideal : controller.drive.perform .readId = controller.channel.bus.chip.rowCycles >>=
      fun _ => pure ((.ok (.id controller.drive.chip.id), #[], #[]), controller.drive) := by
    show (discard controller.channel.bus.chip.rowCycles >>= fun _ => _) = _
    cases controller.channel.bus.chip.rowCycles <;> rfl
  unfold readId
  refine Follows.attempt_step (run_getProfile controller) ?_
  rw [hideal, run_tryOnBus]
  refine Follows.endIn (hread.finish_left fun _ r device hend => ?_)
  obtain ⟨_, rfl, hcommanded, rfl⟩ := hend
  obtain ⟨hrest, hdrive⟩ := h.commanded hcommanded
  exact ⟨_, rfl, rfl, hrest, hdrive⟩

theorem run_reset (h : controller.Rests) :
    ∃ next, reset.run.run controller = .ok (.ok (), next) ∧ next.Rests ∧
      next.drive = controller.drive := by
  obtain ⟨device, hrun, hcommanded⟩ := Device.run_send_reset controller.channel.bus
    controller.profile.poll controller.profile.chip.rowCycles
  refine ⟨controller.withBus device, ?_, h.commanded hcommanded⟩
  unfold reset
  rw [run_command (by decide), hrun]
  rfl

/-! ## Requests -/

section

variable (h : controller.Rests) {page block : Nat} {data spare : Bytes} {error : Error}

include h

/-- The first check that fails refuses a request. -/
theorem run_readSpare_refused
    (hrefused : (Request.readSpare page spare).refusal? controller.profile = .ok (some error)) :
    (readSpare page spare.size).run.run controller = .ok (.error error, controller) := by
  obtain ⟨pages, hpages⟩ := h.settled.exists_pages
  simp only [Request.refusal?, hpages, bind, Except.bind] at hrefused
  unfold readSpare
  by_cases hpage : page < pages
  · rw [if_neg (Nat.not_le.2 hpage)] at hrefused
    refine run_attempt_step (run_requirePage_pass hpages hpage)
      (run_attempt_step (run_getProfile controller) ?_)
    by_cases hspare : spare.size = controller.profile.geometry.spareSize
    · rw [if_neg (not_not_intro hspare)] at hrefused
      cases hrefused
    · rw [if_pos hspare] at hrefused
      cases hrefused
      exact run_attempt_bind_error (run_requireSize_fail _ hspare)
  · rw [if_pos (Nat.not_lt.1 hpage)] at hrefused
    cases hrefused
    exact run_attempt_bind_error (run_requirePage_fail hpages hpage)

theorem run_readPage_refused
    (hrefused : (Request.readPage page data spare).refusal? controller.profile =
      .ok (some error)) :
    (readPage page data spare).run controller = .ok (⟨.error error, data, spare⟩, controller) := by
  have hchecks : (do requireSize .page data.size controller.profile.geometry.pageBytes
                     readSpare page spare.size :
      Attempt Error (Controller Device) Bytes).run.run controller =
      .ok (.error error, controller) := by
    by_cases hdata : data.size = controller.profile.geometry.pageBytes
    · refine run_attempt_step (run_requireSize_pass _ hdata) ?_
      refine run_readSpare_refused h (Eq.trans ?_ hrefused)
      rw [Request.refusal?, Request.refusal?, if_neg (not_not_intro hdata)]
    · simp only [Request.refusal?] at hrefused
      rw [if_pos hdata] at hrefused
      cases hrefused
      exact run_attempt_bind_error (run_requireSize_fail _ hdata)
  unfold readPage
  exact run_step rfl (run_step hchecks rfl)

omit h in
/-- The same for a page program, which needs no device for it. -/
theorem run_fillPage_refused {β : Type} [Bus β] {controller : Controller β}
    (hsettled : controller.profile.Settled)
    (hrefused : (Request.writePage page data spare).refusal? controller.profile =
      .ok (some error)) :
    (fillPage page data spare).run.run controller = .ok (.error error, controller) := by
  obtain ⟨pages, hpages⟩ := hsettled.exists_pages
  simp only [Request.refusal?, hpages, bind, Except.bind] at hrefused
  unfold fillPage
  -- The checks are made in the order in which a refusal goes through them.
  by_cases hpage : page < pages
  · rw [if_neg (Nat.not_le.2 hpage)] at hrefused
    refine run_attempt_step (run_requirePage_pass hpages hpage)
      (run_attempt_step (run_getProfile controller) ?_)
    by_cases hdata : data.size = controller.profile.geometry.pageBytes
    · rw [if_neg (not_not_intro hdata)] at hrefused
      refine run_attempt_step (run_requireSize_pass _ hdata) ?_
      by_cases hspare : spare.size = controller.profile.geometry.spareSize
      · rw [if_neg (not_not_intro hspare)] at hrefused
        cases hrefused
      · rw [if_pos hspare] at hrefused
        cases hrefused
        exact run_attempt_bind_error (run_requireSize_fail _ hspare)
    · rw [if_pos hdata] at hrefused
      cases hrefused
      exact run_attempt_bind_error (run_requireSize_fail _ hdata)
  · rw [if_pos (Nat.not_lt.1 hpage)] at hrefused
    cases hrefused
    exact run_attempt_bind_error (run_requirePage_fail hpages hpage)

/-- An operation on a block that does not exist ends with its first check. -/
theorem run_requireBlock_refused
    (hrefused : (Request.eraseBlock block).refusal? controller.profile = .ok (some error)) :
    (requireBlock block).run.run controller = .ok (.error error, controller) := by
  obtain ⟨blocks, hblocks⟩ := h.settled.exists_blocks
  simp only [Request.refusal?, hblocks, bind, Except.bind] at hrefused
  by_cases hblock : block < blocks
  · rw [if_neg (Nat.not_le.2 hblock)] at hrefused
    cases hrefused
  · rw [if_pos (Nat.not_lt.1 hblock)] at hrefused
    cases hrefused
    exact run_requireBlock_fail hblocks hblock

/-- A request that is refused changes nothing. -/
theorem run_dispatch_refused {request : Request}
    (hrefused : request.refusal? controller.profile = .ok (some error)) :
    (dispatch request).run controller =
      .ok ((.error error, request.data, request.spare), controller) := by
  cases request with
  | readPage page data spare => exact run_step (run_readPage_refused h hrefused) rfl
  | writePage page data spare =>
    exact run_step (run_step rfl (run_step (run_fillPage_refused h.settled hrefused) rfl)) rfl
  | readSpare page spare => exact run_step (run_readSpare_refused h hrefused) rfl
  | eraseBlock block | isBad block | markBad block =>
    exact run_step (run_attempt_bind_error (run_requireBlock_refused h hrefused)) rfl
  | readId | reset => cases hrefused

end

/-- A request that is not refused is carried out as the drive says. -/
theorem follows_dispatch (h : controller.Rests) {request : Request}
    (haccepted : request.refusal? controller.profile = .ok none) :
    Follows (controller.drive.perform request)
      (fun result r next => r = result.1 ∧ next.Rests ∧ next.drive = result.2)
      ((dispatch request).run controller) := by
  obtain ⟨pages, hpages⟩ := h.settled.exists_pages
  obtain ⟨blocks, hblocks⟩ := h.settled.exists_blocks
  have hvalid := (Request.refusal?_eq_none_iff hpages hblocks request).1 haccepted
  cases request with
  | readPage page data spare =>
    obtain ⟨hpage, hdata, hspare⟩ := hvalid
    refine (follows_readPage h hpages hpage hdata hspare).finish fun result r next hend => ?_
    obtain ⟨houtcome, hread, hspared, hrest, hdrive⟩ := hend
    exact ⟨_, _, rfl, Prod.ext houtcome (Prod.ext hread hspared), hrest, hdrive⟩
  | writePage page data spare =>
    obtain ⟨hpage, hdata, hspare⟩ := hvalid
    refine (follows_writePage h hpages hpage hdata hspare).finish fun result r next hend => ?_
    obtain ⟨houtcome, hread, hspared, hrest, hdrive⟩ := hend
    exact ⟨_, _, rfl, Prod.ext houtcome (Prod.ext hread hspared), hrest, hdrive⟩
  | readSpare page spare =>
    obtain ⟨hpage, hspare⟩ := hvalid
    refine Follows.bind (follows_readSpare h hpages hpage hspare) fun row r next hend => ?_
    obtain ⟨_, rfl, rfl, hrest, hdrive, -⟩ := hend
    exact Follows.of_ok rfl ⟨rfl, hrest, hdrive⟩
  | eraseBlock block =>
    exact (follows_eraseBlock h hblocks hvalid).finish fun result r next hend =>
      ⟨_, _, rfl, hend.1.symm, hend.2⟩
  | isBad block =>
    exact (follows_isBad h hblocks hvalid).finish fun result r next hend =>
      ⟨_, _, rfl, hend.1.symm, hend.2⟩
  | markBad block =>
    exact (follows_markBad h hblocks hvalid).finish fun result r next hend =>
      ⟨_, _, rfl, hend.1.symm, hend.2⟩
  | readId =>
    exact (follows_readId h).finish fun result r next hend => ⟨_, _, rfl, hend.1.symm, hend.2⟩
  | reset =>
    obtain ⟨next, hrun, hrest, hdrive⟩ := run_reset h
    exact Follows.of_ok (run_step hrun rfl) ⟨rfl, hrest, hdrive⟩

/-- A controller at rest serves every request as its drive does, and is at rest again. -/
theorem follows_serve (h : controller.Rests) (request : Request) :
    Follows (controller.drive.serve request)
      (fun result reply next => reply = result.1 ∧ next.Rests ∧ next.drive = result.2)
      ((serve request).run controller) := by
  obtain ⟨refusal?, hrefusal⟩ := request.exists_refusal h.settled
  have hdrive : request.refusal? controller.drive.profile = .ok refusal? := hrefusal
  unfold Drive.serve
  simp only [hdrive, bind, Except.bind]
  cases refusal? with
  | some error =>
    exact Follows.of_ok (run_step (run_dispatch_refused h hrefusal) rfl) ⟨rfl, h, rfl⟩
  | none =>
    show Follows (controller.drive.perform request >>= fun result => _) _ _
    refine (follows_dispatch h hrefusal).bind fun result r next hend => ?_
    obtain ⟨rfl, hrest, hnext⟩ := hend
    obtain ⟨⟨outcome, data, spare⟩, drive⟩ := result
    obtain rfl := hnext
    exact Follows.of_ok rfl ⟨rfl, hrest, rfl⟩

end NandFlash.Controller
