import NandFlash.Proofs.Sim.Accesses
import NandFlash.Proofs.Sim.Presenting

/-!
# Reachable devices

A device may have been through anything before it is probed: raw accesses in any order, transfers
started and dropped, reports and window set by hand. Whatever it has been through, bits of the
control registers that act at once are not found stored. This is all that probing relies on.
-/

namespace NandFlash.Sim

/-! ## What can happen to a device -/

/-- One access, or one change from outside. -/
inductive Device.Step (device : Device) : Device → Prop where
  | read32 {offset value next} (h : (Bus.read32 offset).run device = .ok (value, next)) :
    Step device next
  | write32 {offset value next} (h : (Bus.write32 offset value).run device = .ok ((), next)) :
    Step device next
  | read8 {offset value next} (h : (Bus.read8 offset).run device = .ok (value, next)) :
    Step device next
  | write8 {offset value next} (h : (Bus.write8 offset value).run device = .ok ((), next)) :
    Step device next
  | dmaToDevice {data next} (h : (Bus.dmaToDevice data).run device = .ok ((), next)) :
    Step device next
  | dmaFromDevice {data filled next}
    (h : (Bus.dmaFromDevice data).run device = .ok (filled, next)) : Step device next
  | setPowerOn (words) : Step device (device.setPowerOn words)
  | inject (page offset mask) : Step device (device.inject page offset mask)
  | wearOut (block) : Step device (device.wearOut block)
  | markFactoryBad {block next} (h : device.markFactoryBad block = .ok next) : Step device next
  | setHang (hang) : Step device (device.setHang hang)
  | clearLog : Step device device.clearLog
  | load {source outcome next rest} (h : device.load source = .ok (outcome, next, rest)) :
    Step device next
  | present (field status errors) :
    Step device (device.modifyEngine (·.present field status errors))
  | setFieldStatus (field status) :
    Step device (device.modifyEngine (·.setFieldStatus field status))
  | setWindow (window) :
    Step device (device.modifyEngine fun engine => { engine with window })

/-- A device that a freshly powered one can become. -/
inductive Device.Reachable : Device → Prop where
  | new {chip device} (h : Device.new chip = .ok device) : Reachable device
  | step {device next} (h : Reachable device) (hstep : device.Step next) : Reachable next

/-! ## What never changes -/

namespace Engine

variable {engine new : Engine}

/-- The two control registers are all that `Stored` looks at. -/
theorem Stored.of_register (h : Stored engine)
    (hcontrol : new.register Register.control = engine.register Register.control)
    (hdma : new.register Register.dmaControl = engine.register Register.dmaControl) :
    Stored new :=
  ⟨by rw [hcontrol]; exact h.control_eq, by rw [hdma]; exact h.dmaControl_eq⟩

theorem stored_idle : Stored idle := ⟨rfl, rfl⟩

/-- A report that moves up leaves the control registers alone. -/
theorem Stored.presentNext (h : Stored engine) : Stored engine.presentNext :=
  h.of_register (register_presentNext engine (by decide) (by decide))
    (register_presentNext engine (by decide) (by decide))

theorem Stored.present (h : Stored engine) (field : Nat) (status : FieldStatus)
    (errors : List (UInt16 × UInt8)) : Stored (engine.present field status errors) :=
  h.of_register (register_present engine _ _ _ (by decide) (by decide))
    (register_present engine _ _ _ (by decide) (by decide))

theorem Stored.setFieldStatus (h : Stored engine) (field : Nat) (status : FieldStatus) :
    Stored (engine.setFieldStatus field status) := by
  have hfield : Register.fieldStatus = 0x8D0 := rfl
  have hcontrol : Register.control = 0x8A0 := rfl
  have hdma : Register.dmaControl = 0x400 := rfl
  obtain heq | ⟨i, word, heq⟩ := engine.setFieldStatus_eq field status
  · rwa [heq]
  · rw [heq]
    exact h.setRegister _ ⟨by omega, by omega⟩

/-- Written ones only touch the status register, and what a report is shown in. -/
theorem register_acknowledge {offset : Nat} (engine : Engine) (value : UInt32)
    (hoffset : offset < Register.fieldStatus) (hstatus : offset ≠ Register.status) :
    (engine.acknowledge value).register offset = engine.register offset := by
  simp only [Engine.acknowledge]
  split
  · rw [register_presentNext _ hoffset hstatus]
    exact register_setRegister_of_ne _ _ hstatus
  · exact register_setRegister_of_ne _ _ hstatus

theorem Stored.acknowledge (h : Stored engine) (value : UInt32) :
    Stored (engine.acknowledge value) :=
  h.of_register (register_acknowledge engine value (by decide) (by decide))
    (register_acknowledge engine value (by decide) (by decide))

end Engine

namespace Device

variable {device next : Device}

/-- The chip is still the same one, and nothing has happened on the controller's side. -/
structure Fixed (device next : Device) : Prop where
  chip_eq : next.chip = device.chip
  engine_eq : next.engine = device.engine

/-- A read leaves the chip the same, and the controller's side alone. -/
theorem AfterRead.fixed (h : device.AfterRead next) : device.Fixed next := by
  cases h with
  | same | shown => exact ⟨rfl, rfl⟩

/-! ### Commands and addresses -/

/-- A program is a matter of the flash and of the latches. -/
theorem fixed_program (h : device.program = .ok next) : device.Fixed next := by
  unfold program at h
  cases hpending : device.latches.pending with
  | none =>
    simp only [hpending] at h
    cases h
    exact ⟨rfl, rfl⟩
  | some pending =>
    simp only [hpending] at h
    obtain ⟨block, -, h⟩ := exists_of_bind_eq_ok h
    obtain ⟨pages, -, h⟩ := exists_of_bind_eq_ok h
    split at h <;> cases h <;> exact ⟨rfl, rfl⟩

/-- So is an erase. -/
theorem fixed_erase (h : device.erase = .ok next) : device.Fixed next := by
  unfold erase at h
  obtain ⟨block, -, h⟩ := exists_of_bind_eq_ok h
  split at h
  · cases h
    exact ⟨rfl, rfl⟩
  · obtain ⟨first, -, h⟩ := exists_of_bind_eq_ok h
    obtain ⟨_, -, h⟩ := exists_of_bind_eq_ok h
    cases h
    exact ⟨rfl, rfl⟩

/-- No command reaches the controller's side. -/
theorem fixed_execute {command : Command} (h : device.execute command = .ok next) :
    device.Fixed next := by
  cases command with
  | read | readConfirm | columnRead | columnReadConfirm | columnWrite | programSetup | eraseSetup
  | readId | status | reset =>
    cases h
    exact ⟨rfl, rfl⟩
  | readSpare => cases h
  | program | programCached => exact fixed_program h
  | erase => exact fixed_erase h

theorem fixed_writeCommand {opcode : UInt8} (h : device.writeCommand opcode = .ok next) :
    device.Fixed next := by
  simp only [writeCommand] at h
  split at h
  · have hfixed := fixed_execute h
    exact ⟨hfixed.chip_eq, hfixed.engine_eq⟩
  · cases h
    exact ⟨rfl, rfl⟩

/-- Nor does an address. -/
theorem fixed_writeAddress {value : UInt32} (h : device.writeAddress value = .ok next) :
    device.Fixed next := by
  simp only [writeAddress] at h
  split at h
  · obtain ⟨rowCycles, -, h⟩ := exists_of_bind_eq_ok h
    obtain ⟨latches, -, h⟩ := exists_of_bind_eq_ok h
    cases h
    exact ⟨rfl, rfl⟩
  · cases h
    exact ⟨rfl, rfl⟩

/-! ### Writes -/

/-- A write leaves every other register alone, up to those that reports are shown in. -/
theorem AfterWrite.register {offset other : Nat} (h : device.AfterWrite offset next)
    (hne : other ≠ offset) (hother : other < Register.fieldStatus)
    (hstatus : other ≠ Register.status) :
    next.engine.register other = device.engine.register other := by
  cases h with
  | dmaControl value => exact (Engine.register_writeDmaControl _ _ _).trans (if_neg hne)
  | control value => exact (Engine.register_writeControl _ _ _).trans (if_neg hne)
  | status value => exact Engine.register_acknowledge _ _ hother hstatus
  | command hwritten => rw [(fixed_writeCommand hwritten).engine_eq]
  | address hwritten => rw [(fixed_writeAddress hwritten).engine_eq]
  | data | window => rfl
  | plain _ value => exact Engine.register_setRegister_of_ne _ _ hne

/-- Whatever is written, commands do not stay in the control registers. -/
theorem AfterWrite.stored {offset : Nat} (h : device.AfterWrite offset next)
    (hstored : device.engine.Stored) : next.engine.Stored := by
  cases h with
  | dmaControl value => exact hstored.writeDmaControl value
  | control value => exact hstored.writeControl value
  | status value => exact hstored.acknowledge value
  | command hwritten => rwa [(fixed_writeCommand hwritten).engine_eq]
  | address hwritten => rwa [(fixed_writeAddress hwritten).engine_eq]
  | data | window => exact ⟨hstored.control_eq, hstored.dmaControl_eq⟩
  | plain hplain value => exact hstored.setRegister value hplain

/-! ### Transfers -/

/-- A transfer to flash only touches the status register. -/
theorem AfterDmaToDevice.register {data : Bytes} {offset : Nat}
    (h : device.AfterDmaToDevice data next) (hstatus : offset ≠ Register.status) :
    next.engine.register offset = device.engine.register offset := by
  cases h with
  | same | dropped => rfl
  | received => exact Engine.register_setRegister_of_ne _ _ hstatus

/-- A transfer from flash only touches the status register, and what a report is shown in. -/
theorem AfterDmaFromDevice.register {data : Bytes} {offset : Nat}
    (h : device.AfterDmaFromDevice data next) (hoffset : offset < Register.fieldStatus)
    (hstatus : offset ≠ Register.status) :
    next.engine.register offset = device.engine.register offset := by
  cases h with
  | same | dropped => rfl
  | delivered => exact Engine.register_presentNext _ hoffset hstatus

/-! ### Changes from outside -/

theorem engine_markFactoryBad {block : Nat} (h : device.markFactoryBad block = .ok next) :
    next.engine = device.engine := by
  obtain ⟨page, -, h⟩ := exists_of_bind_eq_ok h
  cases h
  rfl

/-- Loading an image only concerns the flash. -/
theorem engine_load {source rest : Source} {outcome : Except StreamError Unit}
    (h : device.load source = .ok (outcome, next, rest)) : next.engine = device.engine := by
  obtain ⟨pages, -, h⟩ := exists_of_bind_eq_ok h
  cases h
  rfl

/-! ### Whatever happens -/

/-- Nothing that can happen stores a command. -/
theorem Step.stored (hstep : device.Step next) (h : device.engine.Stored) :
    next.engine.Stored := by
  cases hstep with
  | read32 hrun => rwa [(AfterRead.of_read32 hrun).fixed.engine_eq]
  | write32 hrun => exact (AfterWrite.of_write32 hrun).stored h
  | read8 hrun => rwa [(AfterRead.of_read8 hrun).fixed.engine_eq]
  | write8 hrun => exact (AfterWrite.of_write8 hrun).stored h
  | dmaToDevice hrun =>
    have hafter := AfterDmaToDevice.of_run hrun
    exact h.of_register (hafter.register (by decide)) (hafter.register (by decide))
  | dmaFromDevice hrun =>
    have hafter := AfterDmaFromDevice.of_run hrun
    exact h.of_register (hafter.register (by decide) (by decide))
      (hafter.register (by decide) (by decide))
  | setPowerOn | inject | wearOut | clearLog => exact h
  | markFactoryBad hmark => rwa [engine_markFactoryBad hmark]
  | setHang hang => exact ⟨h.control_eq, h.dmaControl_eq⟩
  | load hload => rwa [engine_load hload]
  | present field status errors => exact h.present field status errors
  | setFieldStatus field status => exact h.setFieldStatus field status
  | setWindow window => exact ⟨h.control_eq, h.dmaControl_eq⟩

/-- Bits that act at once are stored in no device. -/
theorem Reachable.stored (h : device.Reachable) : device.engine.Stored := by
  induction h with
  | @new chip device h =>
    obtain ⟨rawLen, -, h⟩ := exists_of_bind_eq_ok h
    cases h
    exact Engine.stored_idle
  | step _ hstep ih => exact hstep.stored ih

end Device

end NandFlash.Sim
