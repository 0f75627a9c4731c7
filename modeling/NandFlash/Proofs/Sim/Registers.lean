import NandFlash.Proofs.Layers
import NandFlash.Proofs.Sim.Ports

/-!
# The controller side between and during transfers

Between two operations nothing is started, nothing is queued and the geometry is programmed:
`AtRest`. Preparing a transfer adds the strength, the spare size and clear flags: `Armed`. Other
bits of the registers may be anything; no access looks at them.
-/

namespace NandFlash.Sim

namespace Engine

/-! ## States of the controller side -/

/-- The bits of the control register that act at once. They are never stored. -/
def controlCommands : UInt32 := Bits.reset ||| Bits.startRead ||| Bits.startWrite

/-- The bits of the transfer engine's control register that are never stored. -/
def dmaCommands : UInt32 := Bits.dmaReset ||| Bits.dmaBusy

/-- The flags that the status register can hold. -/
def statusFlags : UInt32 := Bits.transferDone ||| Bits.eccEvent ||| Bits.readyEdge

/-- Bits that act at once are not found stored. -/
structure Stored (engine : Engine) : Prop where
  control_eq : engine.register Register.control &&& controlCommands = 0
  dmaControl_eq : engine.register Register.dmaControl &&& dmaCommands = 0

/-- Nothing is started and nothing is queued. -/
structure Quiet (engine : Engine) : Prop extends Stored engine where
  transfer_eq : engine.transfer = none
  reports_eq : engine.reports = []
  reading_eq : engine.reading = false

/-- A geometry is programmed, and the window is written along with the data. -/
structure Programmed (g : Geometry) (engine : Engine) : Prop extends Stored engine where
  page_eq : engine.register Register.control &&& Bits.pageSizeMask = g.page.selectBits
  auto_eq : engine.register Register.control &&& Bits.spareAutoWrite = Bits.spareAutoWrite

/-- Quiet, with a geometry programmed. -/
structure AtRest (g : Geometry) (engine : Engine) : Prop extends
  Quiet engine, Programmed g engine

/-- The bits of the control register that the ECC stage goes by. -/
def eccMask (strength : Strength) : UInt32 :=
  (if strength = .none then 0 else Bits.strengthMask) ||| (Bits.eccEnable ||| Bits.eccCheck)

/-- What they are for a strength. -/
def eccBits (strength : Strength) : UInt32 :=
  match strength.selectBits? with
  | some bits => bits ||| (Bits.eccEnable ||| Bits.eccCheck)
  | none => 0

/-- Ready for a transfer to be started. -/
structure Armed (g : Geometry) (engine : Engine) : Prop extends AtRest g engine where
  status_eq : engine.register Register.status &&& (Bits.transferDone ||| Bits.eccEvent) = 0
  spareSize_eq : engine.register Register.spareSize = UInt32.ofNat g.spareSize
  ecc_eq : engine.register Register.control &&& eccMask g.strength = eccBits g.strength

/-- The registers that the engine works its geometry out from. -/
structure Dialled (g : Geometry) (engine : Engine) : Prop where
  page_eq : engine.register Register.control &&& Bits.pageSizeMask = g.page.selectBits
  spareSize_eq : engine.register Register.spareSize = UInt32.ofNat g.spareSize
  ecc_eq : engine.register Register.control &&& eccMask g.strength = eccBits g.strength

/-- An armed engine has the registers of its geometry. -/
theorem Armed.dialled {g : Geometry} {engine : Engine} (h : Armed g engine) : Dialled g engine :=
  ⟨h.page_eq, h.spareSize_eq, h.ecc_eq⟩

/-- None of this is about the window or the hang flag. -/
theorem Programmed.setWindow {g : Geometry} {engine : Engine} (h : Programmed g engine)
    (window : Window) : Programmed g { engine with window } :=
  ⟨⟨h.control_eq, h.dmaControl_eq⟩, h.page_eq, h.auto_eq⟩

/-- Nor is being at rest. -/
theorem AtRest.setWindow {g : Geometry} {engine : Engine} (h : AtRest g engine)
    (window : Window) : AtRest g { engine with window } :=
  ⟨⟨⟨h.control_eq, h.dmaControl_eq⟩, h.transfer_eq, h.reports_eq, h.reading_eq⟩, h.page_eq,
    h.auto_eq⟩

/-- A hanging engine can be at rest. -/
theorem AtRest.setHang {g : Geometry} {engine : Engine} (h : AtRest g engine) (hang : Bool) :
    AtRest g { engine with hang } :=
  ⟨⟨⟨h.control_eq, h.dmaControl_eq⟩, h.transfer_eq, h.reports_eq, h.reading_eq⟩, h.page_eq,
    h.auto_eq⟩

/-- Being armed is not about the window either. -/
theorem Armed.setWindow {g : Geometry} {engine : Engine} (h : Armed g engine)
    (window : Window) : Armed g { engine with window } :=
  ⟨h.toAtRest.setWindow window, h.status_eq, h.spareSize_eq, h.ecc_eq⟩

/-! ## Changes of a register -/

variable {engine : Engine} {g : Geometry}

/-- A register holds what has been written to it. -/
theorem register_setRegister_self (engine : Engine) (offset : Nat) (value : UInt32) :
    (engine.setRegister offset value).register offset = value := by
  rw [register_setRegister, if_pos rfl]

/-- The other registers keep what they hold. -/
theorem register_setRegister_of_ne {offset other : Nat} (engine : Engine) (value : UInt32)
    (h : other ≠ offset) :
    (engine.setRegister offset value).register other = engine.register other := by
  rw [register_setRegister, if_neg h]

/-- Keep some bits of the control register and set others. -/
def adjustControl (engine : Engine) (keep put : UInt32) : Engine :=
  engine.setRegister Register.control (adjust keep put (engine.register Register.control))

/-- An adjustment keeps some bits of the control register and puts others. -/
theorem register_adjustControl (engine : Engine) (keep put : UInt32) :
    (engine.adjustControl keep put).register Register.control =
      adjust keep put (engine.register Register.control) :=
  register_setRegister_self _ _ _

/-- A write without bits that act at once only stores. -/
theorem writeControl_eq {value : UInt32} (h : value &&& controlCommands = 0) :
    engine.writeControl value = engine.setRegister Register.control value := by
  have hreset : value &&& Bits.reset = 0 := Bits.and_eq_zero_of_le h (by decide)
  have hread : value &&& Bits.startRead = 0 := Bits.and_eq_zero_of_le h (by decide)
  have hwrite : value &&& Bits.startWrite = 0 := Bits.and_eq_zero_of_le h (by decide)
  have hstored : value &&& ~~~(Bits.reset ||| Bits.startRead ||| Bits.startWrite) = value :=
    Bits.and_not_of_and_eq_zero h
  simp only [writeControl, hreset, hread, hwrite, hstored, bne_self_eq_false, Bool.false_eq_true,
    if_false]

/-- Adjusting a register without commands gives one without commands, if none are put. -/
theorem Stored.adjust_and (h : Stored engine) (keep : UInt32) {put : UInt32}
    (hput : put &&& controlCommands = 0) :
    adjust keep put (engine.register Register.control) &&& controlCommands = 0 := by
  rw [Bits.adjust_and, UInt32.and_comm keep, ← UInt32.and_assoc, h.control_eq, hput,
    UInt32.zero_and, UInt32.or_zero]

/-- Writing an adjusted control register starts nothing. -/
theorem Stored.writeControl_adjust (h : Stored engine) (keep : UInt32) {put : UInt32}
    (hput : put &&& controlCommands = 0) :
    engine.writeControl (adjust keep put (engine.register Register.control)) =
      engine.adjustControl keep put :=
  writeControl_eq (h.adjust_and keep hput)

/-- Unless it brings up the next report of a read, acknowledging only clears flags. -/
theorem acknowledge_eq (engine : Engine) {flags : UInt32}
    (h : engine.reading = false ∨ flags &&& Bits.eccEvent = 0) :
    engine.acknowledge flags = engine.setRegister Register.status
      (engine.register Register.status &&& ~~~(flags &&& statusFlags)) := by
  refine if_neg fun hshown => ?_
  rw [Bool.and_eq_true, bne_iff_ne] at hshown
  rcases h with hreading | hflags
  · exact Bool.false_ne_true (hreading.symm.trans hshown.2)
  · refine hshown.1 ?_
    show flags &&& statusFlags &&& Bits.eccEvent = 0
    rw [UInt32.and_assoc, show statusFlags &&& Bits.eccEvent = Bits.eccEvent by decide, hflags]

/-! ## What a change leaves alone -/

/-- Writing another register does not store commands. -/
theorem Stored.setRegister (h : Stored engine) {offset : Nat} (value : UInt32)
    (hoffset : offset ≠ Register.control ∧ offset ≠ Register.dmaControl) :
    Stored (engine.setRegister offset value) := by
  refine ⟨?_, ?_⟩
  · rw [register_setRegister_of_ne _ _ hoffset.1.symm]
    exact h.control_eq
  · rw [register_setRegister_of_ne _ _ hoffset.2.symm]
    exact h.dmaControl_eq

/-- Nor does writing the control register, if the value has none. -/
theorem Stored.setControl (h : Stored engine) {value : UInt32}
    (hvalue : value &&& controlCommands = 0) :
    Stored (engine.setRegister Register.control value) := by
  refine ⟨?_, ?_⟩
  · rw [register_setRegister_self]
    exact hvalue
  · rw [register_setRegister_of_ne _ _ (by decide)]
    exact h.dmaControl_eq

/-- Nor does an adjustment that puts none. -/
theorem Stored.adjustControl (h : Stored engine) (keep : UInt32) {put : UInt32}
    (hput : put &&& controlCommands = 0) : Stored (engine.adjustControl keep put) :=
  h.setControl (h.adjust_and keep hput)

/-- Writing another register starts nothing and queues nothing. -/
theorem Quiet.setRegister (h : Quiet engine) {offset : Nat} (value : UInt32)
    (hoffset : offset ≠ Register.control ∧ offset ≠ Register.dmaControl) :
    Quiet (engine.setRegister offset value) :=
  ⟨h.toStored.setRegister value hoffset, h.transfer_eq, h.reports_eq, h.reading_eq⟩

/-- Nor does an adjustment. -/
theorem Quiet.adjustControl (h : Quiet engine) (keep : UInt32) {put : UInt32}
    (hput : put &&& controlCommands = 0) : Quiet (engine.adjustControl keep put) :=
  ⟨h.toStored.adjustControl keep hput, h.transfer_eq, h.reports_eq, h.reading_eq⟩

/-- A geometry stays programmed when another register is written. -/
theorem Programmed.setRegister (h : Programmed g engine) {offset : Nat} (value : UInt32)
    (hoffset : offset ≠ Register.control ∧ offset ≠ Register.dmaControl) :
    Programmed g (engine.setRegister offset value) := by
  refine ⟨h.toStored.setRegister value hoffset, ?_, ?_⟩
  · rw [register_setRegister_of_ne _ _ hoffset.1.symm]
    exact h.page_eq
  · rw [register_setRegister_of_ne _ _ hoffset.1.symm]
    exact h.auto_eq

/-- The engine stays at rest when another register is written. -/
theorem AtRest.setRegister (h : AtRest g engine) {offset : Nat} (value : UInt32)
    (hoffset : offset ≠ Register.control ∧ offset ≠ Register.dmaControl) :
    AtRest g (engine.setRegister offset value) :=
  ⟨h.toQuiet.setRegister value hoffset, (h.toProgrammed.setRegister value hoffset).page_eq,
    (h.toProgrammed.setRegister value hoffset).auto_eq⟩

/-- The bits of the control register that hold the geometry. -/
def geometryMask : UInt32 := Bits.pageSizeMask ||| Bits.spareAutoWrite

/-- A geometry stays programmed under an adjustment that keeps its bits. -/
theorem Programmed.adjustControl (h : Programmed g engine) {keep put : UInt32}
    (hkeep : keep &&& geometryMask = geometryMask)
    (hput : put &&& (controlCommands ||| geometryMask) = 0) :
    Programmed g (engine.adjustControl keep put) := by
  refine ⟨h.toStored.setControl (h.adjust_and keep (Bits.and_eq_zero_of_le hput (by decide))),
    ?_, ?_⟩
  · rw [register_adjustControl, Bits.adjust_and_keep (Bits.and_eq_of_le hkeep (by decide))
      (Bits.and_eq_zero_of_le hput (by decide))]
    exact h.page_eq
  · rw [register_adjustControl, Bits.adjust_and_keep (Bits.and_eq_of_le hkeep (by decide))
      (Bits.and_eq_zero_of_le hput (by decide))]
    exact h.auto_eq

/-- The engine stays at rest under such an adjustment. -/
theorem AtRest.adjustControl (h : AtRest g engine) {keep put : UInt32}
    (hkeep : keep &&& geometryMask = geometryMask)
    (hput : put &&& (controlCommands ||| geometryMask) = 0) :
    AtRest g (engine.adjustControl keep put) :=
  ⟨h.toQuiet.adjustControl keep (Bits.and_eq_zero_of_le hput (by decide)),
    (h.toProgrammed.adjustControl hkeep hput).page_eq,
    (h.toProgrammed.adjustControl hkeep hput).auto_eq⟩

/-! ## Configuring a strength -/

/-- Switch ECC off, or on with a strength. -/
def configureEcc (engine : Engine) (strength : Strength) : Engine :=
  engine.adjustControl (~~~eccMask strength) (eccBits strength)

/-- Configuring a strength keeps the bits of the geometry. -/
theorem eccMask_and_geometryMask (strength : Strength) :
    ~~~eccMask strength &&& geometryMask = geometryMask := by
  cases strength <;> decide

/-- It puts neither commands nor bits of the geometry. -/
theorem eccBits_and_eq_zero (strength : Strength) :
    eccBits strength &&& (controlCommands ||| geometryMask) = 0 := by
  cases strength <;> decide

/-- All the bits that it puts are bits of the ECC stage. -/
theorem eccBits_and_eccMask (strength : Strength) :
    eccBits strength &&& eccMask strength = eccBits strength := by
  cases strength <;> decide

/-- Only the last value written to a register counts. -/
theorem setRegister_setRegister (engine : Engine) (offset : Nat) (first second : UInt32) :
    (engine.setRegister offset first).setRegister offset second =
      engine.setRegister offset second := by
  simp only [setRegister, mk.injEq, and_true]
  apply Std.ExtTreeMap.ext_getElem?
  intro other
  simp only [Std.ExtTreeMap.getElem?_insert]
  split <;> rfl

/-- Two adjustments are one. -/
theorem adjustControl_adjustControl (engine : Engine) (keep₁ put₁ keep₂ put₂ : UInt32) :
    (engine.adjustControl keep₁ put₁).adjustControl keep₂ put₂ =
      engine.adjustControl (keep₁ &&& keep₂) ((put₁ &&& keep₂) ||| put₂) := by
  simp only [adjustControl, register_setRegister_self, setRegister_setRegister,
    Bits.adjust_adjust]

/-- The ECC stage checks what is read unless it is switched off. -/
theorem eccCheck_of_eccMask {strength : Strength} {word : UInt32}
    (h : word &&& eccMask strength = eccBits strength) :
    word &&& Bits.eccCheck = if strength = .none then 0 else Bits.eccCheck := by
  have hmask : eccMask strength &&& Bits.eccCheck = Bits.eccCheck ∧
      eccBits strength &&& Bits.eccCheck = if strength = .none then 0 else Bits.eccCheck := by
    cases strength <;> decide
  rw [Bits.and_eq_of_le h hmask.1, hmask.2]

/-- The two changes that switch ECC on come to one. -/
theorem configureEcc_eq {strength : Strength} {bits : UInt32}
    (h : strength.selectBits? = some bits) :
    (engine.adjustControl (~~~Bits.strengthMask) bits).adjustControl (-1)
      (Bits.eccEnable ||| Bits.eccCheck) = engine.configureEcc strength := by
  have hkeep : ~~~Bits.strengthMask &&& -1 &&& ~~~(bits &&& -1 ||| (Bits.eccEnable |||
      Bits.eccCheck)) = ~~~eccMask strength := by
    cases strength <;> cases h <;> decide
  have hput : bits &&& -1 ||| (Bits.eccEnable ||| Bits.eccCheck) = eccBits strength := by
    rw [eccBits, h, UInt32.and_neg_one]
  rw [adjustControl_adjustControl, configureEcc, adjustControl, adjustControl,
    ← Bits.adjust_and_not, hkeep, hput]

/-- Configuring a strength stores no commands. -/
theorem Stored.configureEcc (h : Stored engine) (strength : Strength) :
    Stored (engine.configureEcc strength) :=
  h.adjustControl _ (Bits.and_eq_zero_of_le (eccBits_and_eq_zero strength) (by decide))

/-- It leaves the engine at rest. -/
theorem AtRest.configureEcc (h : AtRest g engine) (strength : Strength) :
    AtRest g (engine.configureEcc strength) :=
  h.adjustControl (eccMask_and_geometryMask strength) (eccBits_and_eq_zero strength)

/-! ## Preparing a transfer -/

/-- Clear status flags. -/
def clearFlags (engine : Engine) (flags : UInt32) : Engine :=
  engine.setRegister Register.status (engine.register Register.status &&& ~~~(flags &&& statusFlags))

/-- Clear bits of a register. -/
def clearBits (engine : Engine) (offset : Nat) (bits : UInt32) : Engine :=
  engine.setRegister offset (engine.register offset &&& ~~~bits)

/-- The controller side once a transfer has been prepared. -/
def prepared (engine : Engine) (strength : Strength) (spareSize : Nat) : Engine :=
  let engine := engine.clearFlags Bits.transferDone
  let engine := engine.clearBits Register.interrupts Bits.doneInterrupt
  let engine := engine.setRegister Register.dmaAddress Device.bufferAddress
  let engine := engine.setRegister Register.dmaInterrupts Bits.targetAbort
  let engine := engine.clearFlags Bits.readyEdge
  let engine := engine.configureEcc strength
  let engine := engine.setRegister Register.spareSize (UInt32.ofNat spareSize)
  let engine := engine.clearBits Register.interrupts Bits.eccInterrupt
  let engine := engine.clearFlags Bits.eccEvent
  engine.adjustControl (~~~Bits.chipSelectMask) Bits.chipSelect0

/-- The controller side up to the last flag that preparing a transfer clears. -/
def staged (engine : Engine) (strength : Strength) (spareSize : Nat) : Engine :=
  let engine := engine.clearFlags Bits.transferDone
  let engine := engine.clearBits Register.interrupts Bits.doneInterrupt
  let engine := engine.setRegister Register.dmaAddress Device.bufferAddress
  let engine := engine.setRegister Register.dmaInterrupts Bits.targetAbort
  let engine := engine.clearFlags Bits.readyEdge
  let engine := engine.configureEcc strength
  let engine := engine.setRegister Register.spareSize (UInt32.ofNat spareSize)
  engine.clearBits Register.interrupts Bits.eccInterrupt

/-- The controller side once a transfer has been prepared. The event of a report that is still
being shown is acknowledged for that, and brings up the next one. -/
def readied (engine : Engine) (strength : Strength) (spareSize : Nat) : Engine :=
  ((engine.staged strength spareSize).acknowledge Bits.eccEvent).adjustControl
    (~~~Bits.chipSelectMask) Bits.chipSelect0

/-- While no read is being shown, acknowledging is nothing but clearing flags. -/
theorem readied_eq_prepared (h : engine.reading = false) (strength : Strength)
    (spareSize : Nat) : engine.readied strength spareSize = engine.prepared strength spareSize := by
  rw [readied, acknowledge_eq (engine.staged strength spareSize) (.inl h)]
  rfl

/-- Clearing flags stores no commands. -/
theorem Stored.clearFlags (h : Stored engine) (flags : UInt32) :
    Stored (engine.clearFlags flags) :=
  h.setRegister _ (by decide)

/-- Nor does clearing bits of another register. -/
theorem Stored.clearBits (h : Stored engine) {offset : Nat} (bits : UInt32)
    (hoffset : offset ≠ Register.control ∧ offset ≠ Register.dmaControl) :
    Stored (engine.clearBits offset bits) :=
  h.setRegister _ hoffset

/-- Nor does staging a transfer. -/
theorem Stored.staged (h : Stored engine) (strength : Strength) (spareSize : Nat) :
    Stored (engine.staged strength spareSize) := by
  refine Stored.clearBits (.setRegister (.configureEcc (.clearFlags (.setRegister (.setRegister
    (.clearBits (.clearFlags h _) _ ?_) _ ?_) _ ?_) _) _) _ ?_) _ ?_ <;> decide

/-- Clearing flags leaves the engine at rest. -/
theorem AtRest.clearFlags (h : AtRest g engine) (flags : UInt32) :
    AtRest g (engine.clearFlags flags) :=
  h.setRegister _ (by decide)

/-- So does clearing bits of another register. -/
theorem AtRest.clearBits (h : AtRest g engine) {offset : Nat} (bits : UInt32)
    (hoffset : offset ≠ Register.control ∧ offset ≠ Register.dmaControl) :
    AtRest g (engine.clearBits offset bits) :=
  h.setRegister _ hoffset

/-- So does preparing a transfer. -/
theorem AtRest.prepared (h : AtRest g engine) (strength : Strength) (spareSize : Nat) :
    AtRest g (engine.prepared strength spareSize) := by
  refine AtRest.adjustControl (.clearFlags (.clearBits (.setRegister (.configureEcc
    (.clearFlags (.setRegister (.setRegister (.clearBits (.clearFlags h _) _ ?_) _ ?_) _ ?_) _) _)
    _ ?_) _ ?_) _) ?_ ?_ <;> decide

section

variable (engine) (strength : Strength) (spareSize : Nat)

/-- A prepared transfer has its strength configured and the chip selected. -/
theorem control_prepared :
    (engine.prepared strength spareSize).register Register.control =
      adjust (~~~Bits.chipSelectMask) Bits.chipSelect0
        (adjust (~~~eccMask strength) (eccBits strength) (engine.register Register.control)) := by
  simp (disch := decide) only [prepared, clearFlags, clearBits, configureEcc, adjustControl,
    register_setRegister_of_ne, register_setRegister_self]

/-- Its spare size is programmed. -/
theorem spareSize_prepared :
    (engine.prepared strength spareSize).register Register.spareSize = UInt32.ofNat spareSize := by
  simp (disch := decide) only [prepared, clearFlags, clearBits, configureEcc, adjustControl,
    register_setRegister_of_ne, register_setRegister_self]

/-- The bits of the ECC stage are those of its strength. -/
theorem ecc_prepared :
    (engine.prepared strength spareSize).register Register.control &&& eccMask strength =
      eccBits strength := by
  have hchip : ~~~Bits.chipSelectMask &&& eccMask strength = eccMask strength ∧
      Bits.chipSelect0 &&& eccMask strength = 0 := by
    cases strength <;> decide
  rw [control_prepared, Bits.adjust_and_keep hchip.1 hchip.2,
    Bits.adjust_and_put (by rw [UInt32.not_and_self]) (eccBits_and_eccMask _)]

end

/-- A transfer that has been prepared from rest is armed. -/
theorem armed_prepared (h : AtRest g engine) :
    Armed g (engine.prepared g.strength g.spareSize) := by
  have hflags : ~~~(Bits.transferDone &&& statusFlags) &&& (~~~(Bits.readyEdge &&& statusFlags) &&&
      (~~~(Bits.eccEvent &&& statusFlags) &&& (Bits.transferDone ||| Bits.eccEvent))) = 0 := by
    decide
  refine ⟨h.prepared _ _, ?_, engine.spareSize_prepared _ _, engine.ecc_prepared _ _⟩
  simp (disch := decide) only [prepared, clearFlags, clearBits, configureEcc, adjustControl,
    register_setRegister_of_ne, register_setRegister_self]
  rw [UInt32.and_assoc, UInt32.and_assoc, UInt32.and_assoc, hflags, UInt32.and_zero]

/-! ## What the engine makes of its registers -/

/-- At rest the window goes out along with the data. -/
theorem AtRest.isAuto (h : AtRest g engine) :
    (engine.register Register.control &&& Bits.spareAutoWrite != 0) = true := by
  rw [h.auto_eq]
  decide

namespace Dialled

variable (h : Dialled g engine)

include h

/-- The page size that the engine works with is the one programmed. -/
theorem page_eq_page : engine.page = g.page := by
  rw [page, h.page_eq]
  cases g.page <;> rfl

/-- The size field holds every spare area that fits the window. -/
theorem sizeField_eq (hspare : g.spareSize ≤ windowLen) :
    (engine.register Register.spareSize &&& Bits.spareSizeMask).toNat = g.spareSize := by
  have hwindow : windowLen = 472 := rfl
  have hmask : Bits.spareSizeMask.toNat = 2 ^ 9 - 1 := rfl
  rw [h.spareSize_eq, UInt32.toNat_and, hmask, Nat.and_two_pow_sub_one_eq_mod,
    UInt32.toNat_ofNat_of_lt' (by show g.spareSize < 2 ^ 32; omega), Nat.mod_eq_of_lt (by omega)]

/-- So is the spare size. -/
theorem spareSize_eq_spareSize (hspare : g.spareSize ≤ windowLen) :
    engine.spareSize = g.spareSize := by
  rw [spareSize, h.sizeField_eq hspare, Nat.min_eq_left hspare]

/-- Parity is generated exactly if there is a strength. -/
theorem enable_eq :
    engine.register Register.control &&& Bits.eccEnable =
      if g.strength = .none then 0 else Bits.eccEnable := by
  have hmask : eccMask g.strength &&& Bits.eccEnable = Bits.eccEnable ∧
      eccBits g.strength &&& Bits.eccEnable = if g.strength = .none then 0 else Bits.eccEnable := by
    cases g.strength <;> decide
  rw [Bits.and_eq_of_le h.ecc_eq hmask.1, hmask.2]

/-- Codewords are checked exactly if there is a strength. -/
theorem check_eq :
    engine.register Register.control &&& Bits.eccCheck =
      if g.strength = .none then 0 else Bits.eccCheck :=
  eccCheck_of_eccMask h.ecc_eq

/-- The strength that has been selected is the one the ECC stage works with. -/
theorem strength?_eq :
    engine.strength? = if g.strength = .none then none else some g.strength := by
  rw [strength?]
  simp only [h.enable_eq]
  by_cases hnone : g.strength = .none
  · rw [if_pos hnone, if_pos hnone]
    rfl
  · have hmask : eccMask g.strength &&& Bits.strengthMask = Bits.strengthMask := by
      revert hnone
      cases g.strength <;> decide
    rw [if_neg hnone, if_neg hnone, Bits.and_eq_of_le h.ecc_eq hmask]
    revert hnone
    cases g.strength <;> decide

/-- The ECC stage works with the programmed geometry. -/
theorem geometry?_eq (hspare : g.spareSize ≤ windowLen) :
    engine.geometry? = if g.strength = .none then none else some g := by
  unfold geometry?
  rw [h.strength?_eq, h.page_eq_page, h.spareSize_eq_spareSize hspare]
  by_cases hnone : g.strength = .none
  · rw [if_pos hnone, if_pos hnone]
    rfl
  · rw [if_neg hnone, if_neg hnone]
    show (Geometry.make g.page g.spareSize g.strength).toOption = some g
    rw [Geometry.make, dif_pos g.whole]
    rfl

end Dialled

end Engine

namespace Device


variable {device : Device} {g : Geometry}

/-! ## Running the changes -/

/-- Two changes of the controller side in a row are one. -/
theorem modifyEngine_modifyEngine (first next : Engine → Engine) :
    (device.modifyEngine first).modifyEngine next =
      device.modifyEngine fun engine => next (first engine) := rfl

/-- A plain register is changed by reading it and writing it back. -/
theorem run_modify32 {offset : Nat} (hread : IsReadable offset) (hwrite : IsPlain offset)
    (change : UInt32 → UInt32) :
    (Bus.modify32 offset change).run device = .ok ((), device.modifyEngine fun engine =>
      engine.setRegister offset (change (engine.register offset))) := by
  rw [Bus.modify32, run_bind (run_read32 device hread), run_write32 device hwrite, modifyEngine,
    modifyEngine]

/-- Bits of a plain register are cleared. -/
theorem run_clearBits {offset : Nat} (hread : IsReadable offset) (hwrite : IsPlain offset)
    (bits : UInt32) :
    (Bus.clearBits offset bits).run device =
      .ok ((), device.modifyEngine (·.clearBits offset bits)) :=
  run_modify32 hread hwrite _

/-- The control register is changed through what a write to it does. -/
theorem run_modify32_control (change : UInt32 → UInt32) :
    (Bus.modify32 Register.control change).run device = .ok ((), device.modifyEngine fun engine =>
      engine.writeControl (change (engine.register Register.control))) := by
  rw [Bus.modify32, run_bind (run_read32 device (by decide)), run_write32_control, modifyEngine,
    modifyEngine]

/-- A change of the control register that commands nothing. -/
theorem run_adjustControl (h : device.engine.Stored) (keep : UInt32) {put : UInt32}
    (hput : put &&& Engine.controlCommands = 0) {change : UInt32 → UInt32}
    (hchange : ∀ word, change word = adjust keep put word) :
    (Bus.modify32 Register.control change).run device =
      .ok ((), device.modifyEngine (·.adjustControl keep put)) := by
  rw [run_modify32_control]
  simp only [hchange, modifyEngine, h.writeControl_adjust keep hput]

/-- Bits of the control register are set by an adjustment that keeps all others. -/
theorem run_setBits_control (h : device.engine.Stored) {bits : UInt32}
    (hbits : bits &&& Engine.controlCommands = 0) :
    (Bus.setBits Register.control bits).run device =
      .ok ((), device.modifyEngine (·.adjustControl (-1) bits)) :=
  run_adjustControl h _ hbits fun word => (Bits.adjust_neg_one bits word).symm

/-- They are cleared by one that puts none. -/
theorem run_clearBits_control (h : device.engine.Stored) (bits : UInt32) :
    (Bus.clearBits Register.control bits).run device =
      .ok ((), device.modifyEngine (·.adjustControl (~~~bits) 0)) :=
  run_adjustControl h _ (UInt32.zero_and) fun word => (Bits.adjust_zero _ word).symm

/-- And they are replaced by one that does both. -/
theorem run_replaceBits_control (h : device.engine.Stored) (mask : UInt32) {bits : UInt32}
    (hbits : bits &&& Engine.controlCommands = 0) :
    (Bus.replaceBits Register.control mask bits).run device =
      .ok ((), device.modifyEngine (·.adjustControl (~~~mask) bits)) :=
  run_adjustControl h _ hbits fun _ => rfl

/-- A strength is configured as the driver configures it, in one step or in two. -/
theorem run_configureEcc (h : device.engine.Stored) (strength : Strength) :
    (Bus.configureEcc strength.selectBits?).run device =
      .ok ((), device.modifyEngine (·.configureEcc strength)) := by
  cases hbits : strength.selectBits? with
  | none =>
    have hnone := (Strength.selectBits?_eq_none_iff strength).1 hbits
    subst hnone
    exact run_clearBits_control h _
  | some bits =>
    have hcommands : bits &&& Engine.controlCommands = 0 := by
      cases strength <;> cases hbits <;> decide
    have hfirst := h.adjustControl (~~~Bits.strengthMask) hcommands
    show (Bus.replaceBits Register.control Bits.strengthMask bits >>= fun _ =>
      Bus.setBits Register.control (Bits.eccEnable ||| Bits.eccCheck)).run device = _
    rw [run_bind (run_replaceBits_control h _ hcommands), run_setBits_control hfirst (by decide),
      modifyEngine_modifyEngine]
    exact congrArg (fun engine => Except.ok ((), { device with engine }))
      (Engine.configureEcc_eq hbits)

/-- Flags are cleared by writing them, unless that acknowledges a report. -/
theorem run_clearFlags {flags : UInt32}
    (h : device.engine.reading = false ∨ flags &&& Bits.eccEvent = 0) :
    (Bus.write32 Register.status flags).run device =
      .ok ((), device.modifyEngine (·.clearFlags flags)) := by
  rw [run_write32_status]
  simp only [modifyEngine, Engine.acknowledge_eq device.engine h, Engine.clearFlags]

/-- One step of a program on the registers. The states in between stay opaque: what is known of
each is that nothing that acts at once is stored, and how it came about. -/
theorem run_step_stored {α β : Type} {m : Action Device α} {f : α → Action Device β} {a : α}
    {change : Engine → Engine} {r : Except Crash (β × Device)}
    (hm : m.run device = .ok (a, device.modifyEngine change))
    (hstored : (change device.engine).Stored)
    (hf : ∀ next : Device, next = device.modifyEngine change → next.engine.Stored →
      (f a).run next = r) : (m >>= f).run device = r :=
  run_step hm (hf _ rfl hstored)

/-- A transfer is prepared on a device in any state. -/
theorem run_prepare_stored (h : device.engine.Stored) (setup : TransferSetup) (data : Bytes)
    (hstored : ((device.engine.staged setup.strength setup.spareSize).acknowledge
      Bits.eccEvent).Stored) :
    (Channel.prepare setup data).run device =
      .ok ((), device.modifyEngine (·.readied setup.strength setup.spareSize)) := by
  -- Each step leaves the engine fit for the next one.
  refine run_step_stored (run_clearFlags (.inr (by decide))) (h.clearFlags _) fun d₁ hd₁ h => ?_
  refine run_step_stored (run_clearBits (by decide) (by decide) _) (h.clearBits _ (by decide))
    fun d₂ hd₂ h => ?_
  refine run_step rfl ?_
  refine run_step_stored (run_write32 _ (by decide) _) (h.setRegister _ (by decide))
    fun d₃ hd₃ h => ?_
  refine run_step_stored (run_write32 _ (by decide) _) (h.setRegister _ (by decide))
    fun d₄ hd₄ h => ?_
  refine run_step_stored (run_clearFlags (.inr (by decide))) (h.clearFlags _) fun d₅ hd₅ h => ?_
  refine run_step_stored (run_configureEcc h _) (h.configureEcc _) fun d₆ hd₆ h => ?_
  refine run_step_stored (run_write32 _ (by decide) _) (h.setRegister _ (by decide))
    fun d₇ hd₇ h => ?_
  refine run_step_stored (run_clearBits (by decide) (by decide) _) (h.clearBits _ (by decide))
    fun d₈ hd₈ h => ?_
  have hstaged : d₈ = device.modifyEngine (·.staged setup.strength setup.spareSize) := by
    simp only [hd₁, hd₂, hd₃, hd₄, hd₅, hd₆, hd₇, hd₈, modifyEngine, Engine.staged]
  have hacknowledged : (d₈.engine.acknowledge Bits.eccEvent).Stored := by
    rw [hstaged]
    exact hstored
  refine run_step_stored (run_write32_status d₈ _) hacknowledged fun d₉ hd₉ h => ?_
  rw [run_replaceBits_control h _ (by decide), hd₉, hstaged]
  simp only [modifyEngine, Engine.readied]

/-- At rest the registers of a transfer are filled in without anything else happening. -/
theorem run_prepare (h : device.engine.AtRest g) (setup : TransferSetup) (data : Bytes) :
    (Channel.prepare setup data).run device =
      .ok ((), device.modifyEngine (·.prepared setup.strength setup.spareSize)) := by
  rw [run_prepare_stored h.toStored setup data]
  · simp only [modifyEngine, Engine.readied_eq_prepared h.reading_eq]
  · rw [Engine.acknowledge_eq (device.engine.staged _ _) (.inl h.reading_eq)]
    exact (h.toStored.staged _ _).setRegister _ (by decide)

end Device

end NandFlash.Sim
