import NandFlash.Proofs.Sim.Independence
import NandFlash.Proofs.Sim.Whole

/-!
# Controllers in use

A controller is in use once it has come up on a device, whatever the device had been through
before, and through every session after that. What the theorems about controllers on the simulated
device ask for follows from that: the controller rests between two operations, its profile is what
the identification of the chip says, and every page of the chip is whole.
-/

namespace NandFlash

namespace Sim

/-! ## What a drive keeps -/

namespace Drive

variable {drive next : Drive}

/-- Chip and profile stay, and so does the length of every page. -/
structure Keeps (drive next : Drive) : Prop where
  chip_eq : next.chip = drive.chip
  profile_eq : next.profile = drive.profile
  isWhole : drive.flash.IsWhole drive.chip.rawLen → next.flash.IsWhole next.chip.rawLen

theorem Keeps.refl (drive : Drive) : drive.Keeps drive := ⟨rfl, rfl, id⟩

theorem Keeps.of_flash {flash : Flash} (h : drive.flash.IsWhole drive.chip.rawLen →
    flash.IsWhole drive.chip.rawLen) : drive.Keeps { drive with flash } := ⟨rfl, rfl, h⟩

theorem size_pageWith (drive : Drive) (column : Nat) (bytes : Bytes) :
    (drive.pageWith column bytes).size = drive.chip.rawLen := by
  rw [pageWith, Bytes.size_overlay, Bytes.size_erased]

/-- A program leaves every page as long as it was. -/
theorem isWhole_programRow {chip : Chip} {flash after : Flash} {row : Nat} {buffer : Bytes}
    {ecc isSound : Bool} (hbuffer : buffer.size = chip.rawLen)
    (hrun : chip.programRow flash row buffer ecc = .ok (isSound, after))
    (h : flash.IsWhole chip.rawLen) : after.IsWhole chip.rawLen := by
  obtain ⟨block, -, hrun⟩ := exists_of_bind_eq_ok hrun
  obtain ⟨pages, -, hrun⟩ := exists_of_bind_eq_ok hrun
  split at hrun <;> cases hrun
  · exact h
  · exact h.program _ hbuffer _

/-- So does an erase. -/
theorem isWhole_eraseRow {chip : Chip} {flash after : Flash} {row : Nat} {isSound : Bool}
    (hrun : chip.eraseRow flash row = .ok (isSound, after))
    (h : flash.IsWhole chip.rawLen) : after.IsWhole chip.rawLen := by
  obtain ⟨block, -, hrun⟩ := exists_of_bind_eq_ok hrun
  split at hrun
  · cases hrun
    exact h
  · obtain ⟨first, -, hrun⟩ := exists_of_bind_eq_ok hrun
    obtain ⟨_, -, hrun⟩ := exists_of_bind_eq_ok hrun
    cases hrun
    exact h.erase _ _

/-- No request changes chip or profile, or the length of a page. -/
theorem keeps_of_perform {request : Request} {result : Except Error Answer × Bytes × Bytes}
    (h : drive.perform request = .ok (result, next)) : drive.Keeps next := by
  -- Only programming and erasing touch the cells, and both write whole pages.
  cases request with
  | readPage page data spare =>
    obtain ⟨row, -, h⟩ := exists_of_bind_eq_ok h
    obtain ⟨row, -, h⟩ := exists_of_bind_eq_ok h
    obtain ⟨found, -, h⟩ := exists_of_bind_eq_ok h
    cases h
    exact ⟨rfl, rfl, id⟩
  | writePage page data spare =>
    obtain ⟨row, -, h⟩ := exists_of_bind_eq_ok h
    obtain ⟨failure?, -, h⟩ := exists_of_bind_eq_ok h
    cases failure? with
    | some e =>
      cases h
      exact Keeps.refl drive
    | none =>
      obtain ⟨programmed, hprogram, h⟩ := exists_of_bind_eq_ok h
      cases h
      exact Keeps.of_flash (isWhole_programRow (by rw [Bytes.size_overlay, size_pageWith]) hprogram)
  | readSpare page spare =>
    obtain ⟨row, -, h⟩ := exists_of_bind_eq_ok h
    cases h
    exact Keeps.refl drive
  | eraseBlock block =>
    obtain ⟨first, -, h⟩ := exists_of_bind_eq_ok h
    obtain ⟨row, -, h⟩ := exists_of_bind_eq_ok h
    obtain ⟨erased, herase, h⟩ := exists_of_bind_eq_ok h
    cases h
    exact Keeps.of_flash (isWhole_eraseRow herase)
  | isBad block =>
    obtain ⟨first, -, h⟩ := exists_of_bind_eq_ok h
    obtain ⟨row, -, h⟩ := exists_of_bind_eq_ok h
    cases h
    exact Keeps.refl drive
  | markBad block =>
    obtain ⟨first, -, h⟩ := exists_of_bind_eq_ok h
    obtain ⟨row, -, h⟩ := exists_of_bind_eq_ok h
    obtain ⟨programmed, hprogram, h⟩ := exists_of_bind_eq_ok h
    cases h
    exact Keeps.of_flash (isWhole_programRow (size_pageWith _ _ _) hprogram)
  | readId =>
    obtain ⟨_, -, h⟩ := exists_of_bind_eq_ok h
    cases h
    exact Keeps.refl drive
  | reset =>
    cases h
    exact Keeps.refl drive

theorem keeps_of_serve {request : Request} {reply : Reply}
    (h : drive.serve request = .ok (reply, next)) : drive.Keeps next := by
  obtain ⟨refusal?, -, h⟩ := exists_of_bind_eq_ok h
  cases refusal? with
  | some e =>
    cases h
    exact Keeps.refl drive
  | none =>
    obtain ⟨performed, hperform, h⟩ := exists_of_bind_eq_ok h
    cases h
    exact keeps_of_perform hperform

/-- Nor does anything that happens in a session. -/
theorem keeps_of_play {event : Event} {reply : Option Reply}
    (h : drive.play event = .ok (reply, next)) : drive.Keeps next := by
  cases event with
  | request request =>
    obtain ⟨served, hserve, h⟩ := exists_of_bind_eq_ok h
    cases h
    exact keeps_of_serve hserve
  | inject page offset mask =>
    cases h
    exact Keeps.of_flash fun h => h.inject page offset mask
  | wearOut block =>
    cases h
    exact Keeps.of_flash fun h => h.wearOut block
  | setHang hang =>
    cases h
    exact ⟨rfl, rfl, id⟩

end Drive

end Sim

/-! ## Controllers in use -/

open Sim

namespace Controller

/-- A controller that has come up on a device, and has served requests since while the device may
have been changed from outside. -/
inductive InUse : Controller Device → Prop where
  | probed {device setting config controller} (hdevice : device.Reachable)
    (h : probe setting config device = .ok (.ok controller)) : InUse controller
  | played {controller event reply next} (h : InUse controller)
    (hplay : (play event).run controller = .ok (reply, next)) : InUse next

/-- What every controller in use relies on. -/
structure Steady (controller : Controller Device) : Prop where
  rests : controller.Rests
  /-- The profile goes by the identification. -/
  decodes : ChipInfo.decode controller.drive.chip.id = .ok controller.drive.profile.chip
  isWhole : controller.drive.flash.IsWhole controller.drive.chip.rawLen

variable {controller next : Controller Device}

/-- What a drive keeps, and an engine that rests, is all that is asked of a controller in use. -/
theorem Steady.of_keeps (h : controller.Steady) (hrests : next.Rests)
    (hkeeps : controller.drive.Keeps next.drive) : next.Steady := by
  refine ⟨hrests, ?_, hkeeps.isWhole h.isWhole⟩
  rw [hkeeps.chip_eq, hkeeps.profile_eq]
  exact h.decodes

/-- Probing a device that can be reached gives a controller in use, and leaves chip and flash
alone. -/
theorem steady_of_probe {device : Device} {setting : PowerOn} {config : Config}
    (hdevice : device.Reachable) (h : probe setting config device = .ok (.ok controller)) :
    controller.Steady ∧ controller.drive.chip = device.chip ∧
      controller.drive.flash = device.flash ∧ controller.drive.hang = device.engine.hang ∧
      Profile.identify device.chip.id setting config.poll = .ok controller.drive.profile := by
  have hstart := sameStart_probe hdevice.stored setting config
  rw [h] at hstart
  -- Probing ends as starting the drive does, so a controller comes with a drive that has started.
  cases hdrive : Drive.start device.chip device.flash device.engine.hang setting config.poll with
  | error defect =>
    rw [hdrive] at hstart
    exact hstart.elim
  | ok outcome =>
    rw [hdrive] at hstart
    cases outcome with
    | error e => exact hstart.elim
    | ok drive =>
      obtain ⟨hrests, rfl⟩ := hstart
      obtain ⟨_, -, hdrive⟩ := exists_of_bind_eq_ok hdrive
      obtain ⟨profile, hidentify, heq⟩ := exists_of_map_eq_ok (Except.ok.inj hdrive)
      rw [← heq]
      refine ⟨⟨hrests, ?_, ?_⟩, rfl, rfl, rfl, hidentify⟩
      · rw [← heq]
        exact (Profile.settled_of_identify hidentify).2.1
      · rw [← heq]
        exact hdevice.isWhole.flash

/-- A controller in use stays in use. -/
theorem Steady.play (h : controller.Steady) {event : Event} {reply : Option Reply}
    (hplay : (play event).run controller = .ok (reply, next)) : next.Steady := by
  have hfollows := follows_play h.rests event
  rw [hplay] at hfollows
  obtain ⟨result, hdrive, -, hrests, hnext⟩ := hfollows.exists_of_run
  exact h.of_keeps hrests (hnext ▸ Drive.keeps_of_play hdrive)

/-- Every controller in use is steady, by induction from one step. -/
theorem InUse.steady (h : controller.InUse) : controller.Steady := by
  induction h with
  | probed hdevice h => exact (steady_of_probe hdevice h).1
  | played _ hplay ih => exact ih.play hplay

/-! ### Coming up -/

/-- On a chip that can be identified a controller comes up. -/
theorem exists_probe {device : Device} (hdevice : device.Reachable) {setting : PowerOn}
    {config : Config} {cycles : Nat} {profile : Profile}
    (hcycles : device.chip.rowCycles = .ok cycles)
    (hidentify : Profile.identify device.chip.id setting config.poll = .ok profile) :
    ∃ controller, probe setting config device = .ok (.ok controller) ∧
      controller.drive = ⟨profile, device.chip, device.flash, device.engine.hang, ⟨0, 0⟩⟩ := by
  have hstart := sameStart_probe hdevice.stored setting config
  simp only [Drive.start, hcycles, hidentify] at hstart
  rcases hprobe : probe setting config device with _ | _ | controller
  all_goals rw [hprobe] at hstart
  · exact hstart.elim
  · exact hstart.elim
  · exact ⟨controller, rfl, hstart.2⟩

/-- What a controller makes of a K9F1G08 when nothing is overridden. -/
def smallProfile (poll : Poll) : Profile where
  chip := ⟨0xEC, 0xF1, 2048, 64, 131072, 134217728⟩
  geometry := ⟨.p2048, 64, .t8, rfl⟩
  layout := ⟨0, 60⟩
  warnings := []
  poll := poll

/-- A controller on a fresh K9F1G08. -/
theorem exists_inUse (poll : Poll) : ∃ controller : Controller Device, controller.InUse ∧
    controller.drive = ⟨smallProfile poll, Chip.k9f1g08,
      FlashArray.blank.flash Chip.k9f1g08.rawLen, false, ⟨0, 0⟩⟩ := by
  obtain ⟨device, hnew⟩ : ∃ device, Device.new Chip.k9f1g08 = .ok device := ⟨_, rfl⟩
  have hdevice : device.Reachable := .new hnew
  cases hnew
  obtain ⟨controller, hprobe, hdrive⟩ :
      ∃ controller, probe .unset ⟨Bits.defaultTiming, poll⟩ _ = .ok (.ok controller) ∧
        controller.drive = ⟨smallProfile poll, _, _, _, ⟨0, 0⟩⟩ := exists_probe hdevice rfl rfl
  exact ⟨controller, .probed hdevice hprobe, hdrive⟩

theorem settled_smallProfile (poll : Poll) : (smallProfile poll).Settled := by
  obtain ⟨controller, hinUse, hdrive⟩ := exists_inUse poll
  have hprofile : controller.profile = smallProfile poll := congrArg Drive.profile hdrive
  exact hprofile ▸ hinUse.steady.rests.settled

end Controller

end NandFlash
