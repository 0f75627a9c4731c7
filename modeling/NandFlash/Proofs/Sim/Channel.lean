import NandFlash.Proofs.Sim.Registers

/-!
# The transfer engine of the simulated device

A transfer from a device at rest gets as far as `armed` whatever is left in the registers, and a
device that has been recovered is at rest again, whatever was going on.
-/

namespace NandFlash.Sim

namespace Engine

variable {engine : Engine} {g : Geometry}

/-- Window and hang flag are what they were. -/
structure Untouched (old new : Engine) : Prop where
  window_eq : new.window = old.window
  hang_eq : new.hang = old.hang

theorem Untouched.trans {e₁ e₂ e₃ : Engine} (h : Untouched e₁ e₂) (h' : Untouched e₂ e₃) :
    Untouched e₁ e₃ :=
  ⟨h'.window_eq.trans h.window_eq, h'.hang_eq.trans h.hang_eq⟩

theorem untouched_clearFlags (flags : UInt32) : Untouched engine (engine.clearFlags flags) :=
  ⟨rfl, rfl⟩

theorem untouched_prepared (strength : Strength) (spareSize : Nat) :
    Untouched engine (engine.prepared strength spareSize) := ⟨rfl, rfl⟩

/-! ## Resets -/

/-- A value for the transfer engine's control register that asks for a reset. -/
theorem writeDmaControl_eq {value : UInt32} (h : value &&& Bits.dmaReset = Bits.dmaReset) :
    engine.writeDmaControl value = { engine with transfer := none }.setRegister
      Register.dmaControl (value &&& ~~~dmaCommands) := by
  have hreset : (value &&& Bits.dmaReset != 0) = true := by
    rw [h]
    decide
  simp only [writeDmaControl, hreset, if_true, dmaCommands]

/-- What is written to the control register loses its commands before it is stored. -/
theorem registers_writeControl (engine : Engine) (value : UInt32) :
    (engine.writeControl value).registers =
      (engine.setRegister Register.control (value &&& ~~~controlCommands)).registers := by
  unfold Engine.writeControl
  split <;> split <;> split <;> rfl

/-- The registers after a DMA command are those without its command bits. -/
theorem registers_writeDmaControl (engine : Engine) (value : UInt32) :
    (engine.writeDmaControl value).registers =
      (engine.setRegister Register.dmaControl (value &&& ~~~dmaCommands)).registers := by
  unfold Engine.writeDmaControl
  split <;> rfl

/-- A control word is stored without its command bits. -/
theorem register_writeControl (engine : Engine) (value : UInt32) (offset : Nat) :
    (engine.writeControl value).register offset =
      if offset = Register.control then value &&& ~~~controlCommands
      else engine.register offset := by
  rw [register, registers_writeControl]
  exact register_setRegister _ _ _ _

/-- So is a DMA control word. -/
theorem register_writeDmaControl (engine : Engine) (value : UInt32) (offset : Nat) :
    (engine.writeDmaControl value).register offset =
      if offset = Register.dmaControl then value &&& ~~~dmaCommands
      else engine.register offset := by
  rw [register, registers_writeDmaControl]
  exact register_setRegister _ _ _ _

theorem Stored.writeControl (h : Stored engine) (value : UInt32) :
    Stored (engine.writeControl value) := by
  refine ⟨?_, ?_⟩
  · rw [register_writeControl, if_pos rfl, UInt32.and_assoc, UInt32.not_and_self, UInt32.and_zero]
  · rw [register_writeControl, if_neg (by decide)]
    exact h.dmaControl_eq

theorem Stored.writeDmaControl (h : Stored engine) (value : UInt32) :
    Stored (engine.writeDmaControl value) := by
  refine ⟨?_, ?_⟩
  · rw [register_writeDmaControl, if_neg (by decide)]
    exact h.control_eq
  · rw [register_writeDmaControl, if_pos rfl, UInt32.and_assoc, UInt32.not_and_self,
      UInt32.and_zero]

/-- What is programmed is not in the DMA control register. -/
theorem Programmed.writeDmaControl (h : Programmed g engine) (value : UInt32) :
    Programmed g (engine.writeDmaControl value) := by
  refine ⟨h.toStored.writeDmaControl value, ?_, ?_⟩ <;>
    rw [register_writeDmaControl, if_neg (by decide)]
  · exact h.page_eq
  · exact h.auto_eq

/-- A DMA reset leaves an engine at rest. -/
theorem AtRest.writeDmaControl (h : AtRest g engine) {value : UInt32}
    (hvalue : value &&& Bits.dmaReset = Bits.dmaReset) :
    AtRest g (engine.writeDmaControl value) := by
  have hprogrammed := h.toProgrammed.writeDmaControl value
  refine ⟨⟨hprogrammed.toStored, ?_, ?_, ?_⟩, hprogrammed.page_eq, hprogrammed.auto_eq⟩ <;>
    rw [writeDmaControl_eq hvalue]
  · rfl
  · exact h.reports_eq
  · exact h.reading_eq

/-- Bits that act at once are not stored, and leave the others as they were. -/
theorem Stored.writeControl_or (h : Stored engine) {bits : UInt32}
    (hbits : bits &&& controlCommands = bits) :
    engine.writeControl (engine.register Register.control ||| bits) =
      ({ engine with
        transfer :=
          if bits &&& Bits.startWrite != 0 then some .toFlash
          else if bits &&& Bits.startRead != 0 then some .fromFlash
          else if bits &&& Bits.reset != 0 then none
          else engine.transfer
        reports := if bits &&& Bits.reset != 0 then [] else engine.reports
        reading := if bits &&& Bits.reset != 0 then false else engine.reading } :
          Engine).setRegister Register.control (engine.register Register.control) := by
  -- The command bits are never stored, so that those seen in the word are those of `bits`.
  have hseen : ∀ m, (engine.register Register.control ||| bits) &&& m =
      (engine.register Register.control &&& m) ||| (bits &&& m) := by
    intro m
    rw [← Bits.adjust_neg_one, Bits.adjust_and, UInt32.neg_one_and]
  have hcommand : ∀ m, controlCommands &&& m = m →
      (engine.register Register.control ||| bits) &&& m = bits &&& m := by
    intro m hm
    rw [hseen, Bits.and_eq_zero_of_le h.control_eq hm, UInt32.zero_or]
  have hcleared : bits &&& ~~~controlCommands = 0 := by
    rw [← hbits, UInt32.and_assoc, UInt32.and_not_self, UInt32.and_zero]
  have hstored : (engine.register Register.control ||| bits) &&&
      ~~~(Bits.reset ||| Bits.startRead ||| Bits.startWrite) = engine.register Register.control := by
    rw [hseen, ← controlCommands, Bits.and_not_of_and_eq_zero h.control_eq, hcleared,
      UInt32.or_zero]
  simp only [Engine.writeControl, hcommand _ (show controlCommands &&& Bits.reset = Bits.reset by decide),
    hcommand _ (show controlCommands &&& Bits.startRead = Bits.startRead by decide),
    hcommand _ (show controlCommands &&& Bits.startWrite = Bits.startWrite by decide), hstored]
  split <;> split <;> split <;> rfl

/-- A reset of the NAND side drops whatever was going on. -/
theorem Stored.writeControl_reset (h : Stored engine) :
    engine.writeControl (engine.register Register.control ||| Bits.reset) =
      { engine with transfer := none, reports := [], reading := false }.setRegister
        Register.control (engine.register Register.control) :=
  h.writeControl_or (by decide)

/-- A start bit starts a transfer. -/
theorem Stored.writeControl_startRead (h : Stored engine) :
    engine.writeControl (engine.register Register.control ||| Bits.startRead) =
      { engine with transfer := some .fromFlash }.setRegister
        Register.control (engine.register Register.control) :=
  h.writeControl_or (by decide)

/-- A start only notes which way the transfer goes. -/
theorem Stored.writeControl_startWrite (h : Stored engine) :
    engine.writeControl (engine.register Register.control ||| Bits.startWrite) =
      { engine with transfer := some .toFlash }.setRegister
        Register.control (engine.register Register.control) :=
  h.writeControl_or (by decide)

/-- A reset leaves no transfer behind. -/
theorem Stored.quiet_reset (h : Stored engine) :
    Quiet (engine.writeControl (engine.register Register.control ||| Bits.reset)) := by
  rw [h.writeControl_reset]
  refine ⟨⟨?_, ?_⟩, rfl, rfl, rfl⟩
  · rw [register_setRegister_self]
    exact h.control_eq
  · rw [register_setRegister_of_ne _ _ (by decide)]
    exact h.dmaControl_eq

/-- A reset of a programmed engine leaves it at rest. -/
theorem Programmed.atRest_reset (h : Programmed g engine) :
    AtRest g (engine.writeControl (engine.register Register.control ||| Bits.reset)) := by
  refine ⟨h.quiet_reset, ?_, ?_⟩ <;> rw [h.writeControl_reset, register_setRegister_self]
  · exact h.page_eq
  · exact h.auto_eq

theorem Stored.untouched_reset (h : Stored engine) :
    Untouched engine (engine.writeControl (engine.register Register.control ||| Bits.reset)) := by
  rw [h.writeControl_reset]
  exact ⟨rfl, rfl⟩

theorem untouched_writeDmaControl {value : UInt32}
    (hvalue : value &&& Bits.dmaReset = Bits.dmaReset) :
    Untouched engine (engine.writeDmaControl value) := by
  rw [writeDmaControl_eq hvalue]
  exact ⟨rfl, rfl⟩

end Engine

namespace Device

variable {device : Device} {g : Geometry}

/-- What a step of the transfer engine makes of a device: some of the controller side has
changed, and `P` holds of it. -/
def Driven (device : Device) (P : Engine → Prop) (next : Device) : Prop :=
  ∃ engine, next = { device with engine } ∧ device.engine.Untouched engine ∧ P engine

/-! ## Starting a transfer -/

/-- Bits of a readable register are looked at without a change. -/
theorem run_allClear {offset : Nat} (hread : IsReadable offset) (bits : UInt32) :
    (Bus.allClear offset bits).run device =
      .ok (device.engine.register offset &&& bits == 0, device) := by
  rw [Bus.allClear, run_bind (run_read32 device hread)]
  rfl

/-- A reset of the transfer engine takes no waiting. -/
theorem run_reset_stored (h : device.engine.Stored) (poll : Poll) :
    ∃ value, value &&& Bits.dmaReset = Bits.dmaReset ∧
      (Channel.reset poll).run.run ⟨.idle, device⟩ =
        .ok (.ok (), ⟨.resetRequested, device.modifyEngine (·.writeDmaControl value)⟩) := by
  -- The bits that the reset waits for are clear at the first look.
  have hclear : ∀ {awaited bits} {found : Device},
      found.engine.register Register.dmaControl &&& bits = 0 →
      (poll.wait awaited (perform (Bus.allClear Register.dmaControl bits))).run.run found =
        .ok (.ok (), found) := by
    intro awaited bits found hbits
    apply run_wait
    rw [run_perform (run_allClear (by decide) _), hbits]
    rfl
  obtain ⟨value, hvalue⟩ : ∃ value, value = device.engine.register Register.dmaControl |||
    (Bits.dmaEnable ||| Bits.dmaReset) := ⟨_, rfl⟩
  have hset : (Bus.setBits Register.dmaControl (Bits.dmaEnable ||| Bits.dmaReset)).run device =
      .ok ((), device.modifyEngine (·.writeDmaControl value)) := by
    rw [hvalue]
    exact run_step (run_read32 device (by decide)) (run_write32_dmaControl device _)
  have hstored : (device.engine.writeDmaControl value).Stored := h.writeDmaControl value
  refine ⟨value, ?_, ?_⟩
  · rw [hvalue, ← Bits.adjust_neg_one, Bits.adjust_and, UInt32.neg_one_and,
      Bits.and_eq_zero_of_le h.dmaControl_eq (by decide)]
    decide
  · refine run_attempt_step (Channel.run_expect_self rfl) ?_
    refine run_attempt_step (run_perform (Channel.run_enter _ _ _)) (Channel.run_tryOnBus_ok ?_ _)
    refine run_attempt_step (hclear (Bits.and_eq_zero_of_le h.dmaControl_eq (by decide))) ?_
    exact run_attempt_step (run_perform hset)
      (hclear (Bits.and_eq_zero_of_le hstored.dmaControl_eq (by decide)))

/-- An engine at rest is reset at once. -/
theorem run_reset (h : device.engine.AtRest g) (poll : Poll) :
    ∃ next, (Channel.reset poll).run.run ⟨.idle, device⟩ =
        .ok (.ok (), ⟨.resetRequested, next⟩) ∧ device.Driven (Engine.AtRest g) next := by
  obtain ⟨value, hvalue, hrun⟩ := run_reset_stored h.toStored poll
  exact ⟨_, hrun, _, rfl, Engine.untouched_writeDmaControl hvalue, h.writeDmaControl hvalue⟩

/-- Setting a transfer up is all register writes. -/
theorem run_arm (device : Device) (h : device.engine.AtRest g) (data : Bytes) :
    ∃ next, (Channel.arm ⟨g.strength, g.spareSize⟩ data).run.run ⟨.resetRequested, device⟩ =
        .ok (.ok (), ⟨.armed, next⟩) ∧ device.Driven (Engine.Armed g) next := by
  have hprepare := Channel.run_onBus_ok (run_prepare h ⟨g.strength, g.spareSize⟩ data)
    .resetRequested
  refine ⟨device.modifyEngine (·.prepared g.strength g.spareSize), ?_, _, rfl,
    Engine.untouched_prepared _ _, Engine.armed_prepared h⟩
  refine run_attempt_step (Channel.run_expect_self rfl) ?_
  exact run_attempt_step (run_perform hprepare) (run_perform (Channel.run_enter _ _ _))

/-! ## Leaving a transfer -/

/-- A device that is recovered is at rest again, whatever it was doing. -/
theorem run_recover (h : device.engine.Programmed g) (state : DmaState) :
    ∃ next, Channel.recover.run ⟨state, device⟩ = .ok ((), ⟨.idle, next⟩) ∧
      device.Driven (Engine.AtRest g) next := by
  have hvalue : (Bits.dmaEnable ||| Bits.dmaReset) &&& Bits.dmaReset = Bits.dmaReset := by decide
  have h₁ := h.writeDmaControl (Bits.dmaEnable ||| Bits.dmaReset)
  have h₂ := h₁.atRest_reset
  have huntouched := (Engine.untouched_writeDmaControl hvalue).trans h₁.untouched_reset
  refine ⟨_, ?_, _, rfl, huntouched.trans (Engine.untouched_clearFlags _),
    h₂.clearFlags (Bits.transferDone ||| Bits.eccEvent)⟩
  have hbus : (do
      Bus.write32 Register.dmaControl (Bits.dmaEnable ||| Bits.dmaReset)
      Bus.setBits Register.control Bits.reset
      Bus.write32 Register.status (Bits.transferDone ||| Bits.eccEvent) : Action Device Unit).run
      device = .ok ((), { device with engine := _ }) :=
    run_step (run_write32_dmaControl device _) <| run_step (run_modify32_control _) <|
      run_clearFlags (.inl h₂.reading_eq)
  exact run_step (Channel.run_onBus_ok hbus state) (Channel.run_enter _ _ _)

/-- From here the driver brings the controller side back to rest. -/
def Leavable (g : Geometry) (state : DmaState) (engine : Engine) : Prop :=
  match state with
  | .idle | .completed | .aborted => engine.AtRest g
  | .resetRequested | .armed | .running => engine.Programmed g

/-- A finished transfer is acknowledged. -/
theorem run_acknowledge (h : device.engine.AtRest g) (state : DmaState) :
    ∃ next, Channel.acknowledge.run ⟨state, device⟩ = .ok ((), ⟨.idle, next⟩) ∧
      device.Driven (Engine.AtRest g) next := by
  refine ⟨device.modifyEngine (·.clearFlags Bits.transferDone), ?_, _, rfl, ⟨rfl, rfl⟩,
    h.clearFlags _⟩
  exact run_step (Channel.run_onBus_ok (run_clearFlags (.inl h.reading_eq)) state)
    (Channel.run_enter _ _ _)

/-- However a transfer has ended, the device comes to rest. -/
theorem run_settle (device : Device) {state : DmaState} (h : Leavable g state device.engine) :
    ∃ next, Channel.settle.run ⟨state, device⟩ = .ok ((), ⟨.idle, next⟩) ∧
      device.Driven (Engine.AtRest g) next := by
  rw [Channel.run_settle]
  cases state with
  | idle => exact ⟨device, rfl, device.engine, rfl, ⟨rfl, rfl⟩, h⟩
  | completed | aborted => exact run_acknowledge h _
  | resetRequested | armed | running => exact run_recover h _

end Device

end NandFlash.Sim
