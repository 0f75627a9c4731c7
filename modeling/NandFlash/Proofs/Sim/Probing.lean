import NandFlash.Controller.Probe
import NandFlash.Proofs.Profile
import NandFlash.Proofs.Sim.Channel
import NandFlash.Proofs.Sim.DataPort

/-!
# Probing the simulated device

Probing resets whatever it finds. What it comes to depends on the identification of the chip
alone, and it leaves the device at rest with the geometry that has been settled on.
-/

namespace NandFlash

/-- What a controller makes of an identification. -/
def Profile.identify (id : IdBytes) (setting : PowerOn) (poll : Poll) : Except Error Profile := do
  let chip ← ChipInfo.decode id
  match Selection.choose chip.pageSize chip.spareSize setting with
  | .error error => throw (.geometry error)
  | .ok selection =>
    return ⟨chip, selection.geometry, selection.layout, selection.warnings, poll⟩

theorem Profile.settled_of_identify {id : IdBytes} {setting : PowerOn} {poll : Poll}
    {profile : Profile} (h : identify id setting poll = .ok profile) :
    profile.Settled ∧ ChipInfo.decode id = .ok profile.chip ∧ profile.poll = poll := by
  unfold identify at h
  obtain ⟨chip, hdecode, h⟩ := exists_of_bind_eq_ok h
  cases hchoose : Selection.choose chip.pageSize chip.spareSize setting with
  | error e =>
    rw [hchoose] at h
    cases h
  | ok selection =>
    rw [hchoose] at h
    cases h
    exact ⟨⟨ChipInfo.scaled_of_decode hdecode, Selection.fits_of_choose hchoose⟩, hdecode, rfl⟩

namespace Sim

namespace Engine

variable {engine : Engine}

/-! ## Programming a geometry -/

/-- The controller side once a geometry has been programmed. -/
def configured (engine : Engine) (g : Geometry) : Engine :=
  let engine := engine.adjustControl (~~~Bits.pageSizeMask) g.page.selectBits
  let engine := engine.setRegister Register.spareSize (UInt32.ofNat g.spareSize)
  let engine := engine.adjustControl (-1) Bits.protectMetadata
  let engine := engine.adjustControl (-1) Bits.spareAutoWrite
  engine.configureEcc g.strength

theorem selectBits_and_eq_zero (page : PageSize) :
    page.selectBits &&& controlCommands = 0 := by
  cases page <;> decide

theorem Quiet.configured (h : Quiet engine) (g : Geometry) : AtRest g (engine.configured g) := by
  have hselected : ∀ word, adjust (~~~Bits.pageSizeMask) g.page.selectBits word &&&
      Bits.pageSizeMask = g.page.selectBits := fun word =>
    Bits.adjust_and_put (UInt32.not_and_self) (by cases g.page <;> decide)
  have h₁ := h.adjustControl (~~~Bits.pageSizeMask) (selectBits_and_eq_zero g.page)
  have h₂ := h₁.setRegister (UInt32.ofNat g.spareSize)
    (show Register.spareSize ≠ Register.control ∧ Register.spareSize ≠ Register.dmaControl
      by decide)
  have h₃ := h₂.adjustControl (-1) (show Bits.protectMetadata &&& controlCommands = 0 by decide)
  have h₄ := h₃.adjustControl (-1) (show Bits.spareAutoWrite &&& controlCommands = 0 by decide)
  refine AtRest.configureEcc ⟨h₄, ?_, ?_⟩ g.strength
  · rw [register_adjustControl, Bits.adjust_and_keep (by decide) (by decide),
      register_adjustControl, Bits.adjust_and_keep (by decide) (by decide),
      register_setRegister_of_ne _ _ (by decide), register_adjustControl, hselected]
  · rw [register_adjustControl, Bits.adjust_neg_one, Bits.or_and_self]

/-! ## Waking the controller side -/

/-- The controller side up to its reset. -/
def unlocked (engine : Engine) (timing : UInt32) : Engine :=
  let engine := engine.setRegister Register.globalControl Bits.nandEnable
  let engine := engine.setRegister Register.timing timing
  let engine := engine.adjustControl (~~~Bits.chipSelectMask) Bits.chipSelect0
  engine.setRegister Register.writeProtect Bits.writeUnlock

/-- The controller side once it has been reset. -/
def woken (engine : Engine) (timing : UInt32) : Engine :=
  (engine.unlocked timing).writeControl
    ((engine.unlocked timing).register Register.control ||| Bits.reset)

theorem Stored.unlocked (h : Stored engine) (timing : UInt32) :
    Stored (engine.unlocked timing) := by
  refine Stored.setRegister (Stored.adjustControl (Stored.setRegister (Stored.setRegister h _ ?_)
    _ ?_) _ ?_) _ ?_ <;> decide

/-- Nothing is going on after a reset. -/
theorem Stored.woken (h : Stored engine) (timing : UInt32) :
    Quiet (engine.woken timing) ∧ (engine.woken timing).hang = engine.hang :=
  ⟨(h.unlocked timing).quiet_reset, (h.unlocked timing).untouched_reset.hang_eq⟩

end Engine

namespace Device

variable {device : Device}

theorem run_programGeometry (h : device.engine.Quiet) (g : Geometry) :
    (Controller.programGeometry g).run device =
      .ok ((), device.modifyEngine (·.configured g)) := by
  have h₁ := h.adjustControl (~~~Bits.pageSizeMask) (Engine.selectBits_and_eq_zero g.page)
  have h₂ := h₁.setRegister (UInt32.ofNat g.spareSize)
    (show Register.spareSize ≠ Register.control ∧ Register.spareSize ≠ Register.dmaControl
      by decide)
  have h₃ := h₂.adjustControl (-1)
    (show Bits.protectMetadata &&& Engine.controlCommands = 0 by decide)
  have h₄ := h₃.adjustControl (-1)
    (show Bits.spareAutoWrite &&& Engine.controlCommands = 0 by decide)
  refine run_step (run_replaceBits_control h.toStored _ (Engine.selectBits_and_eq_zero g.page)) ?_
  refine run_step (run_write32 _ (by decide) _) ?_
  refine run_step (run_setBits_control h₂.toStored (by decide)) ?_
  refine run_step (run_setBits_control h₃.toStored (by decide)) ?_
  refine (run_configureEcc h₄.toStored g.strength).trans ?_
  rw [modifyEngine_modifyEngine, modifyEngine_modifyEngine, modifyEngine_modifyEngine,
    modifyEngine_modifyEngine]
  rfl

/-- What is done with the bytes of a chip: a profile is worked out from them and programmed. -/
def adopt (setting : PowerOn) (poll : Poll) (id : IdBytes) : Attempt Error Device Profile := do
  let chip ← ExceptT.mk (pure (ChipInfo.decode id))
  match Selection.choose chip.pageSize chip.spareSize setting with
  | .error error => throw (.geometry error)
  | .ok selection =>
    perform (Controller.programGeometry selection.geometry)
    return ⟨chip, selection.geometry, selection.layout, selection.warnings, poll⟩

theorem run_adopt (h : device.engine.Quiet) (setting : PowerOn) (poll : Poll) (id : IdBytes) :
    (adopt setting poll id).run.run device = .ok (Profile.identify id setting poll,
      match Profile.identify id setting poll with
      | .ok profile => device.modifyEngine (·.configured profile.geometry)
      | .error _ => device) := by
  unfold adopt Profile.identify
  cases hdecode : ChipInfo.decode id with
  | error e => exact run_attempt_bind_error rfl
  | ok chip =>
    refine run_attempt_step rfl ?_
    simp only [bind, Except.bind]
    cases Selection.choose chip.pageSize chip.spareSize setting with
    | error e => rfl
    | ok selection =>
      exact run_attempt_step (run_perform (run_programGeometry h selection.geometry)) rfl

/-- Probing depends on nothing but the chip. -/
theorem follows_bringUp (h : device.engine.Stored) (setting : PowerOn) (config : Config) :
    Follows device.chip.rowCycles
      (fun _ r next => r = Profile.identify device.chip.id setting config.poll ∧
        next.chip = device.chip ∧ next.flash = device.flash ∧
        next.engine.hang = device.engine.hang ∧
        ∀ profile, r = .ok profile → next.engine.AtRest profile.geometry)
      ((Controller.bringUp setting config).run.run device) := by
  have hstored := h.unlocked config.timing
  obtain ⟨hquiet, hhang⟩ := h.woken config.timing
  obtain ⟨woken, hwoken⟩ : ∃ woken, woken = device.modifyEngine (·.woken config.timing) :=
    ⟨_, rfl⟩
  have hreset : (Bus.setBits Register.control Bits.reset).run
      (device.modifyEngine (·.unlocked config.timing)) = .ok ((), woken) := by
    rw [hwoken]
    refine (run_modify32_control _).trans ?_
    rw [modifyEngine_modifyEngine]
    rfl
  have hclear : woken.engine.register Register.control &&& Bits.reset = 0 := by
    rw [hwoken]
    exact Bits.and_eq_zero_of_le hquiet.control_eq (by decide)
  unfold Controller.bringUp
  refine Follows.attempt_step (run_perform (run_write32 device (by decide) _)) ?_
  refine Follows.attempt_step (run_perform (run_write32 _ (by decide) _)) ?_
  refine Follows.attempt_step (run_perform (run_replaceBits_control
    ((h.setRegister _ (by decide)).setRegister _ (by decide)) _ (by decide))) ?_
  refine Follows.attempt_step (run_perform (run_write32 _ (by decide) _)) ?_
  rw [modifyEngine_modifyEngine, modifyEngine_modifyEngine, modifyEngine_modifyEngine]
  refine Follows.attempt_step (run_perform hreset) ?_
  refine Follows.attempt_step (run_wait (run_perform ((run_allClear (by decide) _).trans
    (by rw [hclear]; rfl)))) ?_
  -- From here on it is the chip that is spoken to, and the engine stays as the reset left it.
  obtain ⟨reset, hrun, hcommanded⟩ := run_send_reset woken config.poll 0
  refine Follows.attempt_step hrun ?_
  have hchip : reset.chip = device.chip := by
    rw [hcommanded.chip_eq, hwoken]
    rfl
  have hflash : reset.flash = device.flash := by
    rw [hcommanded.flash_eq, hwoken]
    rfl
  have hengine : reset.engine = device.engine.woken config.timing := by
    rw [hcommanded.engine_eq, hwoken]
    rfl
  have hid := follows_readId reset config.poll
  rw [hchip] at hid
  refine hid.attempt_finish fun _ _ identified hend => ?_
  obtain ⟨hidentified, rfl⟩ := hend
  rw [← hengine, ← hidentified.engine_eq] at hquiet hhang
  have hkept : identified.chip = device.chip ∧ identified.flash = device.flash :=
    ⟨hidentified.chip_eq.trans hchip, hidentified.flash_eq.trans hflash⟩
  refine ⟨_, _, run_adopt hquiet setting config.poll device.chip.id, rfl, ?_⟩
  cases Profile.identify device.chip.id setting config.poll with
  | error e =>
    refine ⟨hkept.1, hkept.2, hhang, ?_⟩
    rintro profile ⟨⟩
  | ok profile =>
    refine ⟨hkept.1, hkept.2, hhang, ?_⟩
    rintro _ ⟨⟩
    exact hquiet.configured profile.geometry

end Device

end Sim

end NandFlash
