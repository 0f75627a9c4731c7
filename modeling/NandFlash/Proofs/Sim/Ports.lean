import NandFlash.Proofs.Bits
import NandFlash.Proofs.Program
import NandFlash.Sim.Device

/-!
# The registers of the simulated device

What each access of a driver does to the device, register by register. Most registers are plain
memory; the others are the ports to the chip, the three that start and stop transfers, and the
window.
-/

namespace NandFlash.Sim.Device

/-! ## Plain registers -/

/-- A register without side effects when read. -/
def IsReadable (offset : Nat) : Prop :=
  offset < Register.window ∧ offset ≠ Register.status ∧ offset ≠ Register.data

/-- A register without side effects when written. -/
def IsPlain (offset : Nat) : Prop :=
  offset < Register.window ∧ offset ∉ [Register.dmaControl, Register.control, Register.status,
    Register.command, Register.address, Register.data]

instance (offset : Nat) : Decidable (IsReadable offset) := instDecidableAnd

instance (offset : Nat) : Decidable (IsPlain offset) := instDecidableAnd

/-- The window begins behind the registers. -/
theorem index?_eq_none {offset width : Nat} (h : offset < Register.window) :
    Window.index? offset width = none := by
  rw [Window.index?, if_neg]
  omega

variable (device : Device)

/-- A register without a side effect answers with what is stored in it. -/
theorem run_read32 {offset : Nat} (h : IsReadable offset) :
    (Bus.read32 offset).run device = .ok (device.engine.register offset, device) := by
  obtain ⟨hwindow, hstatus, hdata⟩ := h
  show (read32 offset).run device = _
  rw [read32, if_neg hstatus, if_neg hdata]
  simp only [index?_eq_none hwindow]
  rfl

/-- A plain register stores what is written. -/
theorem run_write32 {offset : Nat} (h : IsPlain offset) (value : UInt32) :
    (Bus.write32 offset value).run device =
      .ok ((), device.modifyEngine (·.setRegister offset value)) := by
  obtain ⟨hwindow, hmem⟩ := h
  simp only [List.mem_cons, List.not_mem_nil, or_false, not_or] at hmem
  obtain ⟨h₁, h₂, h₃, h₄, h₅, h₆⟩ := hmem
  show write32 offset value device = _
  simp only [write32, if_neg h₁, if_neg h₂, if_neg h₃, if_neg h₄, if_neg h₅, if_neg h₆,
    index?_eq_none hwindow]
  rfl

/-! ## Control and status -/

/-- A write of the DMA control register is a command to the engine. -/
theorem run_write32_dmaControl (value : UInt32) :
    (Bus.write32 Register.dmaControl value).run device =
      .ok ((), device.modifyEngine (·.writeDmaControl value)) := rfl

/-- So is a write of the control register. -/
theorem run_write32_control (value : UInt32) :
    (Bus.write32 Register.control value).run device =
      .ok ((), device.modifyEngine (·.writeControl value)) := rfl

/-- Writing ones to the status register acknowledges what they stand for. -/
theorem run_write32_status (value : UInt32) :
    (Bus.write32 Register.status value).run device =
      .ok ((), device.modifyEngine (·.acknowledge value)) := rfl

/-- The chip is always ready. -/
theorem run_read32_status :
    (Bus.read32 Register.status).run device =
      .ok (device.engine.register Register.status ||| Bits.ready, device) := rfl

/-! ## Ports to the chip -/

/-- The data port takes the next byte off the chip. -/
theorem run_read32_data :
    (Bus.read32 Register.data).run device =
      .ok ((device.latches.readByte device.chip.id).1.toUInt32,
        { device with latches := (device.latches.readByte device.chip.id).2 }) := rfl

/-- A byte through the data port goes into the page that is being collected. -/
theorem run_write32_data (value : UInt32) :
    (Bus.write32 Register.data value).run device =
      .ok ((), device.modifyLatches (·.writeByte value.toUInt8)) := rfl

/-- The command port hands its byte to the chip, which may not survive it. -/
theorem run_write32_command (value : UInt32) :
    (Bus.write32 Register.command value).run device =
      (device.writeCommand value.toUInt8).map fun device => ((), device) := by
  show (device.writeCommand value.toUInt8 >>= fun device => _) = _
  cases device.writeCommand value.toUInt8 <;> rfl

/-- The address port hands its word to the chip. -/
theorem run_write32_address (value : UInt32) :
    (Bus.write32 Register.address value).run device =
      (device.writeAddress value).map fun device => ((), device) := by
  show (device.writeAddress value >>= fun device => _) = _
  cases device.writeAddress value <;> rfl

/-! ## The window -/

/-- An access to the window starts at a byte of it. -/
theorem index?_window {i width : Nat} (h : i + width ≤ windowLen) :
    Window.index? (Register.window + i) width = some i := by
  rw [Window.index?, if_pos ⟨Nat.le_add_right _ _, by omega⟩, Nat.add_sub_cancel_left]

/-- A byte of the window is read back as it is stored. -/
theorem run_read8 {i : Nat} (h : i < windowLen) :
    (Bus.read8 (Register.window + i)).run device = .ok (device.engine.window.byte i, device) := by
  have hindex : Window.index? (Register.window + i) 1 = some i := index?_window h
  show (read8 (Register.window + i)).run device = _
  rw [read8]
  simp only [hindex]
  rfl

/-- A byte of the window is stored where it is written. -/
theorem run_write8 {i : Nat} (h : i < windowLen) (value : UInt8) :
    (Bus.write8 (Register.window + i) value).run device = .ok ((), device.modifyEngine
      fun engine => { engine with window := engine.window.setByte i value }) := by
  have hindex : Window.index? (Register.window + i) 1 = some i := index?_window h
  show (write8 (Register.window + i) value).run device = _
  rw [write8]
  simp only [hindex]
  rfl

/-- A word of the window is four of its bytes. -/
theorem run_read32_window {i : Nat} (h : i + 4 ≤ windowLen) :
    (Bus.read32 (Register.window + i)).run device = .ok (device.engine.window.word i, device) := by
  have hwindow : Register.window = 0xA00 := rfl
  have hstatus : Register.status = 0x8AC := rfl
  have hdata : Register.data = 0x8B8 := rfl
  show (read32 (Register.window + i)).run device = _
  rw [read32, if_neg (by omega), if_neg (by omega)]
  simp only [index?_window h]
  rfl

theorem run_write32_window {i : Nat} (h : i + 4 ≤ windowLen) (value : UInt32) :
    (Bus.write32 (Register.window + i) value).run device = .ok ((), device.modifyEngine
      fun engine => { engine with window := engine.window.setWord i value }) := by
  have hwindow : Register.window = 0xA00 := rfl
  have hne : ∀ port < Register.window, Register.window + i ≠ port := fun port hport => by omega
  show write32 (Register.window + i) value device = _
  simp only [write32, if_neg (hne Register.dmaControl (by decide)),
    if_neg (hne Register.control (by decide)), if_neg (hne Register.status (by decide)),
    if_neg (hne Register.command (by decide)), if_neg (hne Register.address (by decide)),
    if_neg (hne Register.data (by decide)), index?_window h]
  rfl

end NandFlash.Sim.Device
