import NandFlash.Proofs.AnyBus.Transfer
import NandFlash.Proofs.Sim.Channel

/-!
# Transfers on a simulated device in any state

The device serves the transfer engine in every state, also with flags, statuses or reports left
over from whatever was done to it before, and once a transfer has been left its flag is clear.
-/

namespace NandFlash.Sim

namespace Engine

/-- A reset of the NAND side ends a read that is being shown. -/
theorem reading_writeControl {value : UInt32} (engine : Engine)
    (h : (value &&& Bits.reset != 0) = true) : (engine.writeControl value).reading = false := by
  simp only [writeControl, h, if_true]
  split <;> split <;> rfl

end Engine

namespace Device

/-! ## Accesses -/

theorem exists_read32 (device : Device) (offset : Nat) :
    ∃ value next, (Bus.read32 offset).run device = .ok (value, next) := by
  show ∃ value next, (read32 offset).run device = .ok (value, next)
  unfold read32
  split
  · exact ⟨_, device, rfl⟩
  · split
    · exact ⟨_, _, rfl⟩
    · cases hindex : Window.index? offset 4 with
      | some i => exact ⟨_, device, rfl⟩
      | none => exact ⟨_, device, rfl⟩

theorem exists_write32 (device : Device) {offset : Nat} (hport : ¬Bus.IsChipPort offset)
    (value : UInt32) : ∃ next, (Bus.write32 offset value).run device = .ok ((), next) := by
  have hcommand : offset ≠ Register.command := by
    rintro rfl
    exact hport (by decide)
  have haddress : offset ≠ Register.address := by
    rintro rfl
    exact hport (by decide)
  have hdata : offset ≠ Register.data := by
    rintro rfl
    exact hport (by decide)
  show ∃ next, write32 offset value device = .ok ((), next)
  simp only [write32, if_neg hcommand, if_neg haddress, if_neg hdata]
  split
  · exact ⟨_, rfl⟩
  · split
    · exact ⟨_, rfl⟩
    · split
      · exact ⟨_, rfl⟩
      · cases hindex : Window.index? offset 4 with
        | some i => exact ⟨_, rfl⟩
        | none => exact ⟨_, rfl⟩

theorem exists_read8 (device : Device) (offset : Nat) :
    ∃ value next, (Bus.read8 offset).run device = .ok (value, next) := by
  show ∃ value next, (read8 offset).run device = .ok (value, next)
  rw [read8]
  cases hindex : Window.index? offset 1 with
  | some i => exact ⟨_, device, rfl⟩
  | none =>
    obtain ⟨value, next, hrun⟩ := exists_read32 device offset
    exact ⟨value.toUInt8, next, run_step hrun rfl⟩

theorem exists_write8 (device : Device) {offset : Nat} (hport : ¬Bus.IsChipPort offset)
    (value : UInt8) : ∃ next, (Bus.write8 offset value).run device = .ok ((), next) := by
  show ∃ next, (write8 offset value).run device = .ok ((), next)
  rw [write8]
  cases hindex : Window.index? offset 1 with
  | some i => exact ⟨_, rfl⟩
  | none => exact exists_write32 device hport value.toUInt32

theorem exists_dmaFromDevice (device : Device) (data : Bytes) :
    ∃ filled next, (Bus.dmaFromDevice data).run device = .ok (filled, next) ∧
      filled.size = data.size := by
  show ∃ filled next, (dmaFromDevice data).run device = .ok (filled, next) ∧ _
  have hget : (get : Action Device Device).run device = .ok (device, device) := rfl
  rw [dmaFromDevice, run_bind hget]
  by_cases hhang : device.engine.hang = true
  · rw [if_pos hhang]
    exact ⟨data, device, rfl, rfl⟩
  · rw [if_neg hhang]
    dsimp only
    split
    · exact ⟨_, _, rfl, Bytes.size_overlay _ _ _⟩
    · exact ⟨data, _, rfl, rfl⟩

theorem exists_dmaToDevice (device : Device) (data : Bytes) :
    ∃ next, (Bus.dmaToDevice data).run device = .ok ((), next) := by
  show ∃ next, (dmaToDevice data).run device = .ok ((), next)
  have hget : (get : Action Device Device).run device = .ok (device, device) := rfl
  rw [dmaToDevice, run_bind hget]
  split
  · exact ⟨_, rfl⟩
  · exact ⟨_, rfl⟩

/-- The transfer engine gets its answers in every state of the device. -/
theorem serves : Bus.Serves (fun _ => 0) (Any : Device → Prop) where
  -- The simulated device returns from every access, other than to the ports of the chip.
  register {offset} hport := by
    refine ⟨fun device _ => ?_, fun value device _ => ?_⟩
    · obtain ⟨value, next, hrun⟩ := exists_read32 device offset
      exact ⟨value, next, hrun, Nat.zero_le _, trivial, trivial⟩
    · obtain ⟨next, hrun⟩ := exists_write32 device hport value
      exact ⟨(), next, hrun, Nat.zero_le _, trivial, trivial⟩
  read8 i := fun device _ => by
    obtain ⟨value, next, hrun⟩ := exists_read8 device (Register.window + i)
    exact ⟨value, next, hrun, Nat.zero_le _, trivial, trivial⟩
  write8 i value := fun device _ => by
    have hport : ¬Bus.IsChipPort (Register.window + i) := fun hport =>
      absurd (Nat.le_trans (Nat.le_add_right _ i) hport.2) (by decide)
    obtain ⟨next, hrun⟩ := exists_write8 device hport value
    exact ⟨(), next, hrun, Nat.zero_le _, trivial, trivial⟩
  dmaAddress _ := fun device _ => ⟨_, device, rfl, Nat.zero_le _, trivial, trivial⟩
  dmaToDevice data := fun device _ => by
    obtain ⟨next, hrun⟩ := exists_dmaToDevice device data
    exact ⟨(), next, hrun, Nat.zero_le _, trivial, trivial⟩
  dmaFromDevice data := fun device _ => by
    obtain ⟨filled, next, hrun, hsize⟩ := exists_dmaFromDevice device data
    exact ⟨filled, next, hrun, Nat.zero_le _, trivial, hsize⟩

/-! ## Leaving a transfer -/

/-- The status register shows no finished transfer. -/
def DoneClear (device : Device) : Prop :=
  ∃ status, (Bus.read32 Register.status).run device = .ok (status, device) ∧
    status &&& Bits.transferDone = 0

theorem doneClear_acknowledge {device : Device} {flags : UInt32}
    (hdone : flags &&& Bits.transferDone = Bits.transferDone)
    (hshown : device.engine.reading = false ∨ flags &&& Bits.eccEvent = 0) :
    (device.modifyEngine (·.acknowledge flags)).DoneClear := by
  have hcleared : ~~~(flags &&& Engine.statusFlags) &&& Bits.transferDone = 0 := by
    have hseen : flags &&& Engine.statusFlags &&& Bits.transferDone = Bits.transferDone := by
      rw [UInt32.and_assoc, show Engine.statusFlags &&& Bits.transferDone = Bits.transferDone by
        decide, hdone]
    calc ~~~(flags &&& Engine.statusFlags) &&& Bits.transferDone
        = ~~~(flags &&& Engine.statusFlags) &&&
            (flags &&& Engine.statusFlags &&& Bits.transferDone) := by rw [hseen]
      _ = 0 := by rw [← UInt32.and_assoc, UInt32.not_and_self, UInt32.zero_and]
  refine ⟨_, run_read32_status _, ?_⟩
  simp only [modifyEngine, Engine.acknowledge_eq _ hshown, Engine.register_setRegister_self]
  exact Bits.adjust_and_put hcleared (by decide)

/-- However a transfer has ended, and whatever the device was doing: once it has been left, its
flag is clear. -/
theorem settles_doneClear : Channel.Settles (fun _ => 0) Any DoneClear := by
  rintro ⟨state, device⟩ hchannel
  rw [Channel.run_settle]
  -- A transfer that has come to its end is acknowledged, and any other is cut off by a reset.
  cases state with
  | idle => exact absurd rfl hchannel.state_ne
  | completed | aborted =>
    refine ⟨(), ⟨.idle, device.modifyEngine (·.acknowledge Bits.transferDone)⟩, ?_, Nat.zero_le _,
      rfl, doneClear_acknowledge (by decide) (.inr (by decide))⟩
    exact run_step (Channel.run_onBus_ok (run_write32_status device _) _)
      (Channel.run_enter _ _ _)
  | resetRequested | armed | running =>
    have hbus : ∃ next : Device, (do
        Bus.write32 Register.dmaControl (Bits.dmaEnable ||| Bits.dmaReset)
        Bus.setBits Register.control Bits.reset
        Bus.write32 Register.status (Bits.transferDone ||| Bits.eccEvent) : Action Device Unit).run
        device = .ok ((), next) ∧ next.DoneClear := by
      refine ⟨_, run_step (run_write32_dmaControl device _) <|
        run_step (run_modify32_control _) <| run_write32_status _ _, ?_⟩
      refine doneClear_acknowledge (by decide) (.inl (Engine.reading_writeControl _ ?_))
      rw [Bits.or_and_self]
      decide
    obtain ⟨next, hrun, hclear⟩ := hbus
    refine ⟨(), ⟨.idle, next⟩, ?_, Nat.zero_le _, rfl, hclear⟩
    exact run_step (Channel.run_onBus_ok hrun _) (Channel.run_enter _ _ _)

end Device

end NandFlash.Sim
