import NandFlash.Proofs.Sim.Ports

/-!
# What an access can do

However it goes about it, a driver reaches the simulated device by six kinds of access, and each of
them ends in one of a few ways. They are told apart here once, so that what holds of a device
whatever is done to it is proved by cases on the ways, and not on the text of the accesses.
-/

namespace NandFlash.Sim.Device

variable {device next : Device}

/-! ## Registers -/

/-- What reading a register or a byte can do. -/
inductive AfterRead (device : Device) : Device → Prop where
  | same : AfterRead device device
  /-- The data port moves on in what the chip shows. -/
  | shown : AfterRead device { device with latches := (device.latches.readByte device.chip.id).2 }

/-- What writing a register or a byte at some offset can do. -/
inductive AfterWrite (device : Device) : Nat → Device → Prop where
  | dmaControl (value : UInt32) :
    AfterWrite device Register.dmaControl (device.modifyEngine (·.writeDmaControl value))
  | control (value : UInt32) :
    AfterWrite device Register.control (device.modifyEngine (·.writeControl value))
  | status (value : UInt32) :
    AfterWrite device Register.status (device.modifyEngine (·.acknowledge value))
  | command {opcode : UInt8} {next : Device} (h : device.writeCommand opcode = .ok next) :
    AfterWrite device Register.command next
  | address {value : UInt32} {next : Device} (h : device.writeAddress value = .ok next) :
    AfterWrite device Register.address next
  | data (byte : UInt8) :
    AfterWrite device Register.data (device.modifyLatches (·.writeByte byte))
  | window (offset : Nat) (window : Window) :
    AfterWrite device offset (device.modifyEngine fun engine => { engine with window })
  | plain {offset : Nat} (h : offset ≠ Register.control ∧ offset ≠ Register.dmaControl)
    (value : UInt32) :
    AfterWrite device offset (device.modifyEngine (·.setRegister offset value))

/-- A word read leaves the device as it is, or lets the data port move on. -/
theorem AfterRead.of_read32 {offset : Nat} {value : UInt32}
    (h : (Bus.read32 offset).run device = .ok (value, next)) : device.AfterRead next := by
  change (read32 offset).run device = _ at h
  unfold read32 at h
  split_ifs at h
  · cases h
    exact .same
  · cases h
    exact .shown
  · cases hindex : Window.index? offset 4 <;> simp only [hindex] at h <;> cases h <;> exact .same

/-- So does a byte read, which is one of a word outside the window. -/
theorem AfterRead.of_read8 {offset : Nat} {value : UInt8}
    (h : (Bus.read8 offset).run device = .ok (value, next)) : device.AfterRead next := by
  change (read8 offset).run device = _ at h
  unfold read8 at h
  cases hindex : Window.index? offset 1 with
  | some i =>
    simp only [hindex] at h
    cases h
    exact .same
  | none =>
    simp only [hindex] at h
    obtain ⟨⟨word, last⟩, hread, h⟩ := exists_of_bind_eq_ok h
    cases h
    exact .of_read32 hread

/-- A word write goes to the port, the window or the register that its offset says. -/
theorem AfterWrite.of_write32 {offset : Nat} {value : UInt32}
    (h : (Bus.write32 offset value).run device = .ok ((), next)) :
    device.AfterWrite offset next := by
  change write32 offset value device = _ at h
  unfold write32 at h
  -- One case for each register that does something when it is written to.
  split_ifs at h with hdma hcontrol hstatus hcommand haddress hdata
  · cases h
    exact hdma ▸ .dmaControl value
  · cases h
    exact hcontrol ▸ .control value
  · cases h
    exact hstatus ▸ .status value
  · obtain ⟨written, hwritten, h⟩ := exists_of_bind_eq_ok h
    cases h
    exact hcommand ▸ .command hwritten
  · obtain ⟨written, hwritten, h⟩ := exists_of_bind_eq_ok h
    cases h
    exact haddress ▸ .address hwritten
  · cases h
    exact hdata ▸ .data value.toUInt8
  · cases hindex : Window.index? offset 4 with
    | some i =>
      simp only [hindex, modifyEngine] at h
      cases h
      exact .window offset _
    | none =>
      simp only [hindex] at h
      cases h
      exact .plain ⟨hcontrol, hdma⟩ value

/-- A byte write goes to the window, or it is a word write. -/
theorem AfterWrite.of_write8 {offset : Nat} {value : UInt8}
    (h : (Bus.write8 offset value).run device = .ok ((), next)) :
    device.AfterWrite offset next := by
  change (write8 offset value).run device = _ at h
  unfold write8 at h
  cases hindex : Window.index? offset 1 with
  | some i =>
    simp only [hindex] at h
    cases h
    exact .window offset _
  | none =>
    simp only [hindex] at h
    exact .of_write32 h

/-! ## Buffers -/

/-- The device when it has taken note that a started transfer is served. -/
def served (device : Device) : Device :=
  device.modifyEngine fun engine => { engine with transfer := none }

/-- What offering a buffer to be programmed can do: a hanging engine takes nothing, and a start bit
for the other direction is dropped. -/
inductive AfterDmaToDevice (device : Device) (data : Bytes) : Device → Prop where
  | same : AfterDmaToDevice device data device
  | dropped : AfterDmaToDevice device data device.served
  | received : AfterDmaToDevice device data (device.served.receive data)

/-- What offering a buffer to be filled can do. -/
inductive AfterDmaFromDevice (device : Device) (data : Bytes) : Device → Prop where
  | same : AfterDmaFromDevice device data device
  | dropped : AfterDmaFromDevice device data device.served
  | delivered : AfterDmaFromDevice device data (device.served.deliver data).2

/-- Offering a buffer to be programmed comes to one of the three. -/
theorem AfterDmaToDevice.of_run {data : Bytes}
    (h : (Bus.dmaToDevice data).run device = .ok ((), next)) :
    device.AfterDmaToDevice data next := by
  change (dmaToDevice data).run device = _ at h
  rw [dmaToDevice, run_bind (show (get : Action Device Device).run device = _ from rfl)] at h
  split at h
  · cases h
    split
    · exact .received
    · exact .dropped
  · cases h
    exact .same

/-- So does offering a buffer to be filled. -/
theorem AfterDmaFromDevice.of_run {data filled : Bytes}
    (h : (Bus.dmaFromDevice data).run device = .ok (filled, next)) :
    device.AfterDmaFromDevice data next := by
  change (dmaFromDevice data).run device = _ at h
  rw [dmaFromDevice, run_bind (show (get : Action Device Device).run device = _ from rfl)] at h
  split at h
  · cases h
    exact .same
  · split at h
    · cases h
      exact .delivered
    · cases h
      exact .dropped

end NandFlash.Sim.Device
