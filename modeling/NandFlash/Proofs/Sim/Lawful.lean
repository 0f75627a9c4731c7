import NandFlash.Proofs.Sim.InUse
import NandFlash.Proofs.Sim.Protocol

/-!
# Keeping to the protocol

A controller keeps to the protocol of the chip at every moment, whatever state it finds the device
in and however its operations end. This is why no session crashes.
-/

namespace NandFlash

namespace Trail

open Sim

/-- The chip is the one that is there, and it has only seen what it expects. -/
structure Orderly (chip : Chip) (rowCycles : Nat) (past : List (Moment Device)) (device : Device) :
    Prop where
  lawful : Lawful rowCycles past
  chip_eq : device.chip = chip

/-- The last thing that the chip has seen is a command that opens a phase. -/
structure Awaiting (chip : Chip) (rowCycles : Nat) (phase : AddressPhase)
    (past : List (Moment Device)) (device : Device) : Prop where
  exists_opening : ∃ before opening, past = before ++ [opening] ∧ Lawful rowCycles before ∧
    opening.event = .write32 Register.command phase.command.code.toUInt32 ∧
    opening.device = device
  chip_eq : device.chip = chip
  phase_eq : device.latches.phase = some phase
  address_eq : device.latches.address = []

section

variable {α : Type} {chip : Chip} {rowCycles : Nat}

/-- A quiet call that the device always answers. -/
theorem inStep_quiet {action : Action Device α} {event : α → BusEvent}
    (hquiet : ∀ a, (event a).IsQuiet)
    (hrun : ∀ device : Device, device.chip = chip → ∃ a next, action.run device = .ok (a, next) ∧
      next.chip = chip) :
    InStep Never (Behind (Orderly chip rowCycles)) action (pass action event) Any := by
  refine (parallel_pass (fun past device a next hkeep hstep => ?_)
    fun past device defect hkeep hcrash => ?_).inStep
  · obtain ⟨b, next', hrun', hchip⟩ := hrun device hkeep.chip_eq
    cases hstep.symm.trans hrun'
    exact ⟨hkeep.lawful.access (hquiet _), hchip⟩
  · obtain ⟨b, next', hrun', -⟩ := hrun device hkeep.chip_eq
    cases hcrash.symm.trans hrun'

/-- A phase on a device and on its trail: first its command, then all of its bytes. -/
theorem parallel_open (phase : AddressPhase) :
    Parallel Never (Behind (Orderly chip rowCycles))
      (Framing.writeCommand phase.command) (Framing.writeCommand phase.command)
      fun _ => Behind (Awaiting chip rowCycles phase) := by
  unfold Framing.writeCommand
  refine parallel_pass (fun past device a next hkeep hstep => ?_)
    fun past device defect hkeep hcrash => ?_
  · obtain ⟨next', hrun, hchip, hphase, haddress⟩ := Device.run_open device phase
    cases hstep.symm.trans hrun
    exact ⟨⟨past, _, rfl, hkeep.lawful, rfl, rfl⟩, hchip.trans hkeep.chip_eq, hphase, haddress⟩
  · obtain ⟨next', hrun, -⟩ := Device.run_open device phase
    cases hcrash.symm.trans hrun

variable (h : chip.Addressable rowCycles)

include h

theorem parallel_address {phase : AddressPhase} {column row : Option Nat}
    (hsent : phase.Sent column row) :
    Parallel Never (Behind (Awaiting chip rowCycles phase))
      ((Framing.addressWords rowCycles phase.command column row).forM fun word =>
        Bus.write32 Register.address word)
      ((Framing.addressWords rowCycles phase.command column row).forM fun word =>
        Bus.write32 Register.address word) fun _ => Behind (Orderly chip rowCycles) := by
  rintro device ⟨_, past⟩ ⟨rfl, hpast⟩
  obtain ⟨before, opening, rfl, hlawful, hevent, hopened⟩ := hpast.exists_opening
  obtain ⟨next, hrun, hchip, hholds⟩ := Device.exists_address (hpast.chip_eq ▸ h) hsent
    hpast.phase_eq hpast.address_eq
  obtain ⟨moments, hrun', hevents, hlast⟩ := run_forM_write32 _ (before ++ [opening]) hrun
  obtain ⟨hlength, hmarked⟩ := Framing.framed_addressWords h.rowCycles_pos hsent
  refine .inl ⟨(), next, _, hrun, hrun', rfl, ?_, hchip.trans hpast.chip_eq⟩
  rw [List.append_assoc]
  refine hlawful.phase ⟨rfl, ?_, hlength, hmarked, fun last hmem => ?_⟩
  · rw [List.singleton_append, List.map_cons, hevent, hevents]
  · rw [List.singleton_append, List.getLast?_cons] at hmem
    cases hmem
    -- The last moment shows the device as the phase has left it.
    have hdevice : (moments.getLast?.getD opening).device = next := by
      rw [← hlast, ← hopened]
      cases moments.getLast? <;> rfl
    rw [hdevice]
    exact hholds

theorem inStep_writeCommand {command : Command} (hbare : command.IsBare) :
    InStep Never (Behind (Orderly chip rowCycles)) (Framing.writeCommand command)
      (Framing.writeCommand command) Any := by
  have hquiet : (BusEvent.write32 Register.command command.code.toUInt32).IsQuiet :=
    ⟨by decide, fun _ => ⟨command, hbare, rfl⟩⟩
  unfold Framing.writeCommand
  refine inStep_quiet (fun _ => hquiet) fun device hchip => ?_
  subst hchip
  obtain ⟨next, hrun⟩ := Device.exists_writeCommand h hbare.1
  exact ⟨(), next, hrun, (Device.AfterWrite.of_write32 hrun).chip_eq⟩

/-! ### Commands -/

omit h in
theorem inStep_read32 (offset : Nat) :
    InStep Never (Behind (Orderly chip rowCycles)) (Bus.read32 offset)
      (Bus.read32 offset) Any :=
  inStep_quiet (fun _ => trivial) fun device hchip => by
    obtain ⟨value, next, hrun⟩ := device.exists_read32 offset
    exact ⟨value, next, hrun, (Device.AfterRead.of_read32 hrun).fixed.chip_eq.trans hchip⟩

theorem inStep_conclude {poll : Poll} (hpoll : Patient Never poll) {command : Command}
    (hcommand : command ≠ .columnRead) :
    TryInStep Never (Behind (Orderly chip rowCycles)) (Framing.conclude poll command)
      (Framing.conclude poll command) Any := by
  refine Framing.inStep_conclude hpoll (fun command hmem => inStep_writeCommand h ?_)
    ((inStep_read32 _).next fun _ => .pure trivial) hcommand
  simp only [List.mem_cons, List.not_mem_nil, or_false] at hmem
  rcases hmem with rfl | rfl | rfl <;> exact ⟨by decide, fun phase => by cases phase <;> decide⟩

theorem inStep_sendPhase {poll : Poll} (hpoll : Patient Never poll)
    {phase : AddressPhase} {column row : Option Nat} (hsent : phase.Sent column row)
    {cycles : Nat} (hwords : Framing.addressWords cycles phase.command column row =
      Framing.addressWords rowCycles phase.command column row) :
    TryInStep Never (Behind (Orderly chip rowCycles))
      (Framing.send poll cycles phase.command column row)
      (Framing.send poll cycles phase.command column row) Any := by
  have hcommand : phase.command ≠ .columnRead := by
    cases hsent with
    | page row hphase => rcases hphase with rfl | rfl <;> decide
    | block row => decide
    | id => decide
  unfold Framing.send
  rw [hwords]
  refine TryInStep.of_parallel ((parallel_open phase).perform.attempt_bind fun _ => ?_)
  refine (parallel_address h hsent).perform.attempt_bind fun _ => ?_
  exact (inStep_conclude h hpoll hcommand).parallel_any

theorem inStep_sendBare {poll : Poll} (hpoll : Patient Never poll) {command : Command}
    (hbare : command.IsBare) (cycles : Nat) :
    TryInStep Never (Behind (Orderly chip rowCycles))
      (Framing.send poll cycles command none none) (Framing.send poll cycles command none none)
      Any := by
  have hid : command ≠ .readId := Ne.symm (hbare.2 .readId)
  have hwords : Framing.addressWords cycles command none none = [] := by
    rw [Framing.addressWords, if_neg hid]
    rfl
  unfold Framing.send
  rw [hwords]
  refine (TryInStep.perform (inStep_writeCommand h hbare)).next fun _ => ?_
  refine (TryInStep.perform (InStep.pure trivial)).next fun _ => ?_
  exact inStep_conclude h hpoll (Ne.symm (hbare.2 .columnRead))

/-- The identification that comes is the one of the chip. -/
theorem inStep_readId {poll : Poll} (hpoll : Patient Never poll) :
    TryInStep Never (Behind (Orderly chip rowCycles)) (Framing.readId poll)
      (Framing.readId poll) fun id => id = chip.id := by
  have hany : TryInStep Never (Behind (Orderly chip rowCycles)) (Framing.readId poll)
      (Framing.readId poll) Any :=
    Framing.inStep_readId (inStep_sendPhase h hpoll .id rfl) (inStep_read32 _)
  refine Parallel.mono (Parallel.and_of_run (P := fun r => Ending (· = chip.id) Any r) hany
    fun device trail r next hbehind hrun => ?_) (fun _ _ hst => hst)
    fun r _ _ hend => ⟨hend.1.1, hend.2⟩
  have hchip : device.chip = chip := hbehind.past.chip_eq
  have hfollows := Device.follows_readId device poll
  rw [hchip, h.rowCycles_eq] at hfollows
  obtain ⟨_, next', hrun', id, rfl, -, hid⟩ := hfollows.exists_of_ok
  cases hrun.symm.trans hrun'
  exact hid

/-! ### Everything else -/

omit h

theorem inStep_write32 {offset : Nat} (hport : ¬Bus.IsChipPort offset) (value : UInt32) :
    InStep Never (Behind (Orderly chip rowCycles)) (Bus.write32 offset value)
      (Bus.write32 offset value) Any := by
  have hquiet : (BusEvent.write32 offset value).IsQuiet := by
    refine ⟨?_, ?_⟩
    · rintro rfl
      exact hport (by decide)
    · rintro rfl
      exact absurd (by decide) hport
  refine inStep_quiet (fun _ => hquiet) fun device hchip => ?_
  obtain ⟨next, hrun⟩ := device.exists_write32 hport value
  exact ⟨(), next, hrun, (Device.AfterWrite.of_write32 hrun).chip_eq.trans hchip⟩

theorem inStep_modifyControl (change : UInt32 → UInt32) :
    InStep Never (Behind (Orderly chip rowCycles))
      (Bus.modify32 Register.control change) (Bus.modify32 Register.control change) Any :=
  (inStep_read32 _).next fun value => inStep_write32 (by decide) (change value)

theorem inStep_configureEcc (bits? : Option UInt32) :
    InStep Never (Behind (Orderly chip rowCycles)) (Bus.configureEcc bits?)
      (Bus.configureEcc bits?) Any := by
  unfold Bus.configureEcc
  cases bits? with
  | none => exact inStep_modifyControl _
  | some bits => exact (inStep_modifyControl _).next fun _ => inStep_modifyControl _

theorem inStep_programGeometry (g : Geometry) :
    InStep Never (Behind (Orderly chip rowCycles)) (Controller.programGeometry g)
      (Controller.programGeometry g) Any := by
  unfold Controller.programGeometry
  refine (inStep_modifyControl _).next fun _ => (inStep_write32 (by decide) _).next fun _ => ?_
  refine (inStep_modifyControl _).next fun _ => (inStep_modifyControl _).next fun _ => ?_
  exact inStep_configureEcc _

include h

/-- Probing keeps to the protocol. -/
theorem wakes {poll : Poll} (hpoll : Patient Never poll) :
    Bus.Wakes Never poll (Behind (Orderly chip rowCycles))
      (Behind (Orderly chip rowCycles)) (· = chip.id) fun _ => Behind (Orderly chip rowCycles) where
  enable offset hoffset value := by
    simp only [List.mem_cons, List.not_mem_nil, or_false] at hoffset
    rcases hoffset with rfl | rfl <;> exact inStep_write32 (by decide) value
  selectChip := (inStep_modifyControl _).parallel
  unlock := inStep_write32 (by decide) _
  reset := inStep_modifyControl _
  isReset := (inStep_read32 _).next fun _ => .pure trivial
  sendReset := inStep_sendBare h hpoll ⟨by decide, fun phase => by cases phase <;> decide⟩ _
  readId := inStep_readId h hpoll
  programGeometry g := (inStep_programGeometry g).parallel

/-- The operations of a controller keep to the protocol, if it sends as many row cycles as the chip
takes. -/
theorem tolerates {profile : Profile} (hcycles : profile.chip.rowCycles = rowCycles)
    (hpoll : Patient Never profile.poll) :
    Bus.Tolerates Never profile (Behind (Orderly chip rowCycles)) where
  read32 _ := inStep_read32 _
  write32 hport _ value := inStep_write32 hport value
  writeSpareSize := inStep_write32 (by decide) _
  setControl _ _ := inStep_modifyControl _
  selectChip := inStep_modifyControl _
  configureEcc := inStep_configureEcc _
  read8 _ := inStep_quiet (fun _ => trivial) fun device hchip => by
    obtain ⟨value, next, hrun⟩ := device.exists_read8 _
    exact ⟨value, next, hrun, (Device.AfterRead.of_read8 hrun).fixed.chip_eq.trans hchip⟩
  write8 i value := inStep_quiet (fun _ => Nat.le_add_right _ _) fun device hchip => by
    have hport : ¬Bus.IsChipPort (Register.window + i) := fun hport =>
      absurd (Nat.le_trans (Nat.le_add_right _ i) hport.2) (by decide)
    obtain ⟨next, hrun⟩ := device.exists_write8 hport value
    exact ⟨(), next, hrun, (Device.AfterWrite.of_write8 hrun).chip_eq.trans hchip⟩
  dmaAddress _ := inStep_quiet (fun _ => trivial) fun device hchip => ⟨_, device, rfl, hchip⟩
  dmaToDevice data := inStep_quiet (fun _ => trivial) fun device hchip => by
    obtain ⟨next, hrun⟩ := device.exists_dmaToDevice data
    exact ⟨(), next, hrun, (Device.AfterDmaToDevice.of_run hrun).chip_eq.trans hchip⟩
  dmaFromDevice data := inStep_quiet (fun _ => trivial) fun device hchip => by
    obtain ⟨filled, next, hrun, -⟩ := device.exists_dmaFromDevice data
    exact ⟨filled, next, hrun, (Device.AfterDmaFromDevice.of_run hrun).chip_eq.trans hchip⟩
  send haddressed := by
    subst hcycles
    rcases haddressed.opens_or_isBare with ⟨phase, rfl, hsent⟩ | ⟨hbare, rfl, rfl⟩
    · exact inStep_sendPhase h hpoll hsent rfl
    · exact inStep_sendBare h hpoll hbare _
  readId := (inStep_readId h hpoll).mono fun _ _ => trivial
  readPort := inStep_read32 _
  writePort value := by
    have hquiet : (BusEvent.write32 Register.data value).IsQuiet :=
      ⟨by decide, fun hport => absurd hport (by decide)⟩
    exact inStep_quiet (fun _ => hquiet) fun device hchip =>
      ⟨(), _, Device.run_write32_data device value, hchip⟩

end

end Trail

namespace Controller

open Sim Trail

/-- No session ever breaks the protocol of the chip, and so none crashes. Take a chip that can be
counted and whose size is on the same side of the limit as the size that its identification tells,
in a device in any state whatsoever, any power-on setting, and waits whose counter reaches their
limit. Then probing returns, and if a controller comes up, it serves any events with a reply,
requests with any arguments among them. All that went over the bus from the first call on consists
of quiet calls and of complete address phases that the chip has understood. -/
theorem keeps_to_protocol {chip : Chip} {size limit : Nat} {config : Config} {device : Device}
    (hpages : 0 < chip.pagesPerBlock) (hcount : chip.blocks * chip.pagesPerBlock < UInt32.size)
    (hsize : chip.size = .ok size)
    (hside : ∀ info, ChipInfo.decode chip.id = .ok info →
      (smallChipLimit < size ↔ smallChipLimit < info.chipSize))
    (hpoll : config.poll.Reaches limit) (hchip : device.chip = chip) (setting : PowerOn) :
    ∃ rowCycles outcome trail, chip.rowCycles = .ok rowCycles ∧
      (bringUp setting config).run.run (Trail.begin device) = .ok (outcome, trail) ∧
      Lawful rowCycles trail.past ∧
      probe setting config device = .ok (outcome.map (start · trail.device)) ∧
      ∀ profile, outcome = .ok profile → ∀ events : List Event, ∃ replies last watched,
        (events.mapM play).run (start profile trail.device) = .ok (replies, last) ∧
        (events.mapM Trail.play).run (start profile trail) = .ok (replies, watched) ∧
        watched.channel.bus.device = last.channel.bus ∧
        Lawful rowCycles watched.channel.bus.past := by
  obtain ⟨rowCycles, haddressable, hcycles⟩ := Chip.exists_addressable hpages hcount hsize hside
  have hpatient : Patient Never config.poll := .inr ⟨limit, hpoll⟩
  obtain ⟨outcome, probed, trail, hrun, hrun', hend⟩ :=
    (parallel_bringUp (wakes haddressable hpatient) hpatient setting).exists_run
      (behind_begin ⟨.begin, hchip⟩)
  have hbehind : Behind (Orderly chip rowCycles) probed trail := by
    cases outcome with
    | ok profile => exact hend.1
    | error e => exact hend
  obtain ⟨hdevice, hpast⟩ := hbehind
  subst hdevice
  have hprobe : probe setting config device = .ok (outcome.map (start · trail.device)) := by
    unfold probe
    rw [show (bringUp setting config).run device = .ok (outcome, trail.device) from hrun]
    cases outcome <;> rfl
  refine ⟨rowCycles, outcome, trail, haddressable.rowCycles_eq, hrun', hpast.lawful, hprobe, ?_⟩
  rintro profile rfl events
  have hidentified : Identified (· = chip.id) config.poll profile := hend.2
  obtain ⟨_, rfl, hdecode⟩ := hidentified.exists_id
  have hpatient' : Patient Never profile.poll := hidentified.poll_eq ▸ hpatient
  have htouch : ∀ change, IsOutside change → ∀ past device,
      Orderly chip rowCycles past device → Orderly chip rowCycles past (change device) :=
    fun change houtside past device h => ⟨h.lawful, (houtside.chip_eq device).trans h.chip_eq⟩
  -- What has been lawful up to here stays so, whatever is played next.
  obtain ⟨replies, last, watched, hplay, hplay', hpaired, -⟩ := (inStep_playAll
    (tolerates haddressable (hcycles _ hdecode) hpatient') hidentified.settled hpatient' htouch
    events).exists_run (paired_start profile ⟨rfl, hpast⟩)
  exact ⟨replies, last, watched, hplay, hplay', hpaired.channel.bus.device_eq,
    hpaired.channel.bus.past.lawful⟩

/-- A K9F1G08 that has been left in the middle of an address phase: a controller comes up all the
same, and every session with it comes to an end. -/
theorem keeps_to_protocol_half_sent_address : ∃ (device : Device) (controller : Controller Device),
    device.chip = Chip.k9f1g08 ∧ device.latches.phase = some .program ∧
    device.latches.address = [0x05] ∧
    probe .unset ⟨Bits.defaultTiming, ⟨some 20⟩⟩ device = .ok (.ok controller) ∧
    ∀ events : List Event, ∃ replies last, ∃ watched : Trail Device,
      (events.mapM play).run controller = .ok (replies, last) ∧
      watched.device = last.channel.bus ∧ Lawful 2 watched.past := by
  obtain ⟨fresh, hfresh⟩ : ∃ fresh, Device.new Chip.k9f1g08 = .ok fresh := ⟨_, rfl⟩
  obtain ⟨opened, hopened⟩ :
      ∃ next, (Bus.write32 Register.command 0x80).run fresh = .ok ((), next) := ⟨_, rfl⟩
  obtain ⟨device, hdevice⟩ :
      ∃ next, (Bus.write32 Register.address 0x05).run opened = .ok ((), next) := by
    cases hfresh
    cases hopened
    exact ⟨_, rfl⟩
  have hreachable : fresh.Reachable := .new hfresh
  have hreachable' : device.Reachable :=
    (hreachable.step (.write32 hopened)).step (.write32 hdevice)
  obtain ⟨hchip, hphase, haddress⟩ : device.chip = Chip.k9f1g08 ∧
      device.latches.phase = some .program ∧ device.latches.address = [0x05] := by
    cases hfresh
    cases hopened
    cases hdevice
    exact ⟨rfl, rfl, rfl⟩
  obtain ⟨controller, hprobe, -⟩ : ∃ controller,
      probe .unset ⟨Bits.defaultTiming, ⟨some 20⟩⟩ device = .ok (.ok controller) ∧
        controller.drive = ⟨smallProfile ⟨some 20⟩, _, _, _, ⟨0, 0⟩⟩ :=
    exists_probe hreachable' (by rw [hchip]; rfl) (by rw [hchip]; rfl)
  have hside : ∀ info, ChipInfo.decode Chip.k9f1g08.id = .ok info →
      (smallChipLimit < 134217728 ↔ smallChipLimit < info.chipSize) := by
    rintro info ⟨⟩
    rfl
  have hsize : Chip.k9f1g08.size = .ok 134217728 := rfl
  have hpoll : (Config.mk Bits.defaultTiming ⟨some 20⟩).poll.Reaches 20 := ⟨rfl, by decide⟩
  obtain ⟨rowCycles, outcome, trail, hcycles, -, -, hstart, hsessions⟩ :=
    keeps_to_protocol (by decide) (by decide) hsize hside hpoll hchip .unset
  cases hcycles
  rw [hprobe] at hstart
  cases outcome with
  | error e => cases hstart
  | ok profile =>
    cases hstart
    refine ⟨device, _, hchip, hphase, haddress, hprobe, fun events => ?_⟩
    obtain ⟨replies, last, watched, hplay, -, hdevice, hlawful⟩ := hsessions profile rfl events
    exact ⟨replies, last, watched.channel.bus, hplay, hdevice, hlawful⟩

end Controller

end NandFlash
