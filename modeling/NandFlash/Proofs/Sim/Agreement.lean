import NandFlash.Proofs.Sim.InUse
import NandFlash.Proofs.SideBySide.Trail

/-!
# Agreement on the geometry

A controller works its geometry out once, when it is probed, and from then on only tells the device
about it. The device works its geometry out from two of its registers whenever it needs it. The two
agree at every moment of every session: whatever the device was before it was probed, whatever
happens to it from outside in between, and however operations end.
-/

namespace NandFlash

namespace Trail

variable {α β : Type}

/-- `now` holds of the device, and `ever` of all that it has been through. -/
structure Since (ever now : β → Prop) (past : List (Moment β)) (device : β) : Prop where
  ever : ∀ moment ∈ past, ever moment.device
  now : now device

/-- Nothing is said about runs that crash. -/
theorem parallel_since {ever now : β → Prop} {after : α → β → Prop} {action : Action β α}
    {event : α → BusEvent} (hever : ∀ a device, after a device → ever device)
    (hstep : ∀ device a next, now device → action.run device = .ok (a, next) → after a next) :
    Parallel Any (Behind (Since ever now)) action (pass action event) fun a =>
      Behind (Since ever (after a)) := by
  refine parallel_pass (fun past device a next hkeep hrun => ?_) fun _ _ _ _ _ => trivial
  have hnext := hstep device a next hkeep.now hrun
  refine ⟨fun moment hmem => ?_, hnext⟩
  rcases List.mem_append.1 hmem with hmem | hmem
  · exact hkeep.ever moment hmem
  · rw [List.mem_singleton.1 hmem]
    exact hever a next hnext

/-- What one moment hands on to the next holds of all that has been. -/
theorem inStep_since {ever now : β → Prop} {action : Action β α} {event : α → BusEvent}
    (hever : ∀ device, now device → ever device)
    (hstep : ∀ device a next, now device → action.run device = .ok (a, next) → now next) :
    InStep Any (Behind (Since ever now)) action (pass action event) Any :=
  (parallel_since (fun _ device h => hever device h) hstep).inStep

end Trail

namespace Sim

open Trail

namespace Engine

variable {engine next : Engine} {g : Geometry}

/-! ## Two registers -/

/-- What is known of the control register, through a mask, and of the spare size. -/
structure Dial where
  mask : UInt32
  bits : UInt32
  spareSize? : Option UInt32

/-- The two registers show what a dial says. -/
structure StandsAt (dial : Dial) (engine : Engine) : Prop where
  control_eq : engine.register Register.control &&& dial.mask = dial.bits
  spareSize_eq : ∀ size ∈ dial.spareSize?, engine.register Register.spareSize = size

/-- A dial is read off two registers, and nothing else. -/
theorem StandsAt.of_register {dial : Dial} (h : StandsAt dial engine)
    (hcontrol : next.register Register.control = engine.register Register.control)
    (hspare : next.register Register.spareSize = engine.register Register.spareSize) :
    StandsAt dial next :=
  ⟨by rw [hcontrol]; exact h.control_eq, fun size hsize => by
    rw [hspare]
    exact h.spareSize_eq size hsize⟩

/-- The bits of the control register that a change leaves as they were. -/
def keptBits (keep put : UInt32) : UInt32 := keep &&& ~~~put &&& ~~~controlCommands

/-- A change of the control register turns one dial to another: the bits that it leaves as they
were have been known before, and the others are set. -/
structure Dial.Turns (dial : Dial) (keep put : UInt32) (dial' : Dial) : Prop where
  mask_eq : keptBits keep put &&& dial'.mask &&& dial.mask = keptBits keep put &&& dial'.mask
  bits_eq : dial.bits &&& (keptBits keep put &&& dial'.mask) |||
    put &&& (~~~controlCommands &&& dial'.mask) = dial'.bits
  spareSize?_eq : dial'.spareSize? = dial.spareSize?

/-- A change that sets bits to what they have been before. -/
theorem Dial.turns_self {dial : Dial} {keep put : UInt32}
    (hbits : dial.bits &&& (keptBits keep put &&& dial.mask) |||
      put &&& (~~~controlCommands &&& dial.mask) = dial.bits) : Turns dial keep put dial :=
  ⟨by rw [UInt32.and_assoc, UInt32.and_self], hbits, rfl⟩

/-- A write of the control register turns the dial, commands and all. -/
theorem StandsAt.writeControl {dial dial' : Dial} {keep put : UInt32} (h : StandsAt dial engine)
    (hturns : dial.Turns keep put dial') :
    StandsAt dial' (engine.writeControl (adjust keep put (engine.register Register.control))) := by
  refine ⟨?_, fun size hsize => ?_⟩
  · have hbefore : engine.register Register.control &&& (keptBits keep put &&& dial'.mask) =
        dial.bits &&& (keptBits keep put &&& dial'.mask) := by
      conv_lhs => rw [← hturns.mask_eq, UInt32.and_comm (_ &&& dial'.mask), ← UInt32.and_assoc,
        h.control_eq]
    have hkept : keep &&& ~~~put &&& (~~~controlCommands &&& dial'.mask) =
        keptBits keep put &&& dial'.mask := by
      rw [keptBits, UInt32.and_assoc (keep &&& ~~~put)]
    rw [register_writeControl, if_pos rfl, ← Bits.adjust_and_not, UInt32.and_assoc,
      Bits.adjust_and, hkept, hbefore, hturns.bits_eq]
  · rw [register_writeControl, if_neg (by decide)]
    exact h.spareSize_eq size (hturns.spareSize?_eq ▸ hsize)

/-! ## Settings of the dial -/

/-- Nothing is known. -/
def Dial.unknown : Dial := ⟨0, 0, none⟩

/-- A dial that says nothing is right about every engine. -/
theorem standsAt_unknown (engine : Engine) : StandsAt .unknown engine := by
  refine ⟨UInt32.and_zero, fun size hsize => ?_⟩
  cases hsize

/-- The chip is selected, and no command is stored. -/
def Dial.selected : Dial := ⟨controlCommands ||| Bits.chipSelectMask, Bits.chipSelect0, none⟩

/-- More is known of the control register. -/
def Dial.more (dial : Dial) (mask bits : UInt32) : Dial :=
  { dial with mask := dial.mask ||| mask, bits := dial.bits ||| bits }

/-- A page size is selected. -/
def Dial.paged (page : PageSize) : Dial := Dial.selected.more Bits.pageSizeMask page.selectBits

/-- The spare size is written. -/
def Dial.sized (g : Geometry) : Dial :=
  { Dial.paged g.page with spareSize? := some (UInt32.ofNat g.spareSize) }

/-- The metadata is protected. -/
def Dial.protected (g : Geometry) : Dial :=
  (Dial.sized g).more Bits.protectMetadata Bits.protectMetadata

/-- The window is written along with the data. -/
def Dial.automatic (g : Geometry) : Dial :=
  (Dial.protected g).more Bits.spareAutoWrite Bits.spareAutoWrite

/-- A strength is selected, but ECC not yet switched on. -/
def Dial.strong (g : Geometry) (bits : UInt32) : Dial :=
  (Dial.automatic g).more Bits.strengthMask bits

/-- A geometry is programmed. -/
def Dial.tuned (g : Geometry) : Dial :=
  (Dial.automatic g).more (eccMask g.strength) (eccBits g.strength)

namespace Dial

/-- The chip is selected first, from whatever the register held. -/
theorem turns_selected : unknown.Turns (~~~Bits.chipSelectMask) Bits.chipSelect0 selected := by
  refine ⟨?_, ?_, rfl⟩ <;> decide

/-- A reset leaves no trace. -/
theorem turns_reset : selected.Turns (-1) Bits.reset selected := turns_self (by decide)

/-- The page size goes into bits of its own. -/
theorem turns_paged (page : PageSize) :
    selected.Turns (~~~Bits.pageSizeMask) page.selectBits (paged page) := by
  cases page <;> refine ⟨?_, ?_, rfl⟩ <;> decide

/-- So does the protection of the metadata. -/
theorem turns_protected (g : Geometry) :
    (sized g).Turns (-1) Bits.protectMetadata (Dial.protected g) := by
  refine ⟨?_, ?_, rfl⟩ <;> simp only [Dial.protected, sized, paged, more] <;>
    cases g.page <;> decide

/-- So does the transfer of the window. -/
theorem turns_automatic (g : Geometry) :
    (Dial.protected g).Turns (-1) Bits.spareAutoWrite (automatic g) := by
  refine ⟨?_, ?_, rfl⟩ <;> simp only [automatic, Dial.protected, sized, paged, more] <;>
    cases g.page <;> decide

/-- Without ECC two bits are cleared, that nothing has set. -/
theorem turns_off {g : Geometry} (hnone : g.strength = .none) :
    (automatic g).Turns (~~~(Bits.eccEnable ||| Bits.eccCheck)) 0 (tuned g) := by
  refine ⟨?_, ?_, rfl⟩ <;>
    simp only [tuned, automatic, Dial.protected, sized, paged, more, hnone] <;>
    cases g.page <;> decide

/-- A strength goes into bits of its own. -/
theorem turns_strong {g : Geometry} {bits : UInt32} (hbits : g.strength.selectBits? = some bits) :
    (automatic g).Turns (~~~Bits.strengthMask) bits (strong g bits) := by
  refine ⟨?_, ?_, rfl⟩ <;>
    simp only [strong, automatic, Dial.protected, sized, paged, more] <;>
    revert hbits <;> cases g.page <;> cases g.strength <;> rintro ⟨⟩ <;> decide

/-- With a strength selected ECC is switched on. -/
theorem turns_on {g : Geometry} {bits : UInt32} (hbits : g.strength.selectBits? = some bits) :
    (strong g bits).Turns (-1) (Bits.eccEnable ||| Bits.eccCheck) (tuned g) := by
  refine ⟨?_, ?_, rfl⟩ <;>
    simp only [tuned, strong, automatic, Dial.protected, sized, paged, more] <;>
    revert hbits <;> cases g.page <;> cases g.strength <;> rintro ⟨⟩ <;> decide

/-! What is done again and again turns nothing. -/

/-- What has been cleared can be cleared again. -/
theorem turns_off_again {g : Geometry} (hnone : g.strength = .none) :
    (tuned g).Turns (~~~(Bits.eccEnable ||| Bits.eccCheck)) 0 (tuned g) := by
  refine turns_self ?_
  simp only [tuned, automatic, Dial.protected, sized, paged, more, hnone]
  cases g.page <;> decide

/-- A strength that is selected again is the same strength. -/
theorem turns_strong_again {g : Geometry} {bits : UInt32}
    (hbits : g.strength.selectBits? = some bits) :
    (tuned g).Turns (~~~Bits.strengthMask) bits (tuned g) := by
  refine turns_self ?_
  simp only [tuned, automatic, Dial.protected, sized, paged, more]
  revert hbits
  cases g.page <;> cases g.strength <;> rintro ⟨⟩ <;> decide

/-- What has been switched on can be switched on again. -/
theorem turns_on_again {g : Geometry} {bits : UInt32}
    (hbits : g.strength.selectBits? = some bits) :
    (tuned g).Turns (-1) (Bits.eccEnable ||| Bits.eccCheck) (tuned g) := by
  refine turns_self ?_
  simp only [tuned, automatic, Dial.protected, sized, paged, more]
  revert hbits
  cases g.page <;> cases g.strength <;> rintro ⟨⟩ <;> decide

/-- Starting a transfer and resetting the NAND side leave no trace in the control register. -/
theorem turns_command (g : Geometry) {bits : UInt32}
    (hbits : bits ∈ [Bits.reset, Bits.startRead, Bits.startWrite]) :
    (tuned g).Turns (-1) bits (tuned g) := by
  refine turns_self ?_
  simp only [List.mem_cons, List.not_mem_nil, or_false] at hbits
  simp only [tuned, automatic, Dial.protected, sized, paged, more]
  rcases hbits with rfl | rfl | rfl <;> cases g.page <;> cases g.strength <;> decide

/-- So can the chip be selected again. -/
theorem turns_chipSelect (g : Geometry) :
    (tuned g).Turns (~~~Bits.chipSelectMask) Bits.chipSelect0 (tuned g) := by
  refine turns_self ?_
  simp only [tuned, automatic, Dial.protected, sized, paged, more]
  cases g.page <;> cases g.strength <;> decide

end Dial

/-- What controller and device agree on. -/
structure Agrees (g : Geometry) (layout : SpareLayout) (engine : Engine) : Prop where
  /-- The size that the device, and the decoder with it, goes by. -/
  sizeField_eq : (engine.register Register.spareSize &&& Bits.spareSizeMask).toNat = g.spareSize
  /-- The geometry that the ECC stage goes by. -/
  geometry?_eq : engine.geometry? = if g.strength = .none then none else some g
  chipSelect_eq : engine.register Register.control &&& Bits.chipSelectMask = Bits.chipSelect0
  auto_eq : engine.register Register.control &&& Bits.spareAutoWrite = Bits.spareAutoWrite
  protect_eq : engine.register Register.control &&& Bits.protectMetadata = Bits.protectMetadata
  ecc_eq : engine.register Register.control &&& (Bits.eccEnable ||| Bits.eccCheck) =
    if g.strength = .none then 0 else Bits.eccEnable ||| Bits.eccCheck
  commands_eq : engine.register Register.control &&& controlCommands = 0
  /-- Where the decoder takes the parity to start. -/
  decoderBase_eq : (engine.register Register.spareSize &&& Bits.spareSizeMask).toNat -
    g.parityBytes = layout.parityStart
  /-- Where the ECC stage takes the parity to start. -/
  engineBase_eq : engine.spareSize - g.parityBytes = layout.parityStart

/-- A dial that is tuned to a geometry shows it to the ECC stage. -/
theorem StandsAt.dialled (h : StandsAt (.tuned g) engine) : Dialled g engine := by
  have hpage : (Dial.tuned g).mask &&& Bits.pageSizeMask = Bits.pageSizeMask ∧
      (Dial.tuned g).bits &&& Bits.pageSizeMask = g.page.selectBits := by
    simp only [Dial.tuned, Dial.automatic, Dial.protected, Dial.sized, Dial.paged, Dial.more]
    cases g.page <;> cases g.strength <;> decide
  have hecc : (Dial.tuned g).mask &&& eccMask g.strength = eccMask g.strength ∧
      (Dial.tuned g).bits &&& eccMask g.strength = eccBits g.strength := by
    simp only [Dial.tuned, Dial.automatic, Dial.protected, Dial.sized, Dial.paged, Dial.more]
    cases g.page <;> cases g.strength <;> decide
  refine ⟨?_, h.spareSize_eq _ rfl, ?_⟩
  · rw [Bits.and_eq_of_le h.control_eq hpage.1, hpage.2]
  · rw [Bits.and_eq_of_le h.control_eq hecc.1, hecc.2]

/-- All that is agreed on is worked out from the two registers. -/
theorem StandsAt.agrees {layout : SpareLayout} (h : StandsAt (.tuned g) engine)
    (hfits : g.Fits layout) : Agrees g layout engine := by
  have hsees : ∀ m seen, (Dial.tuned g).mask &&& m = m ∧ (Dial.tuned g).bits &&& m = seen →
      engine.register Register.control &&& m = seen := by
    rintro m seen ⟨hmask, hbits⟩
    rw [Bits.and_eq_of_le h.control_eq hmask, hbits]
  have hsize := h.dialled.sizeField_eq hfits.spareSize_le
  refine ⟨hsize, h.dialled.geometry?_eq hfits.spareSize_le, hsees _ _ ?_, hsees _ _ ?_,
    hsees _ _ ?_, hsees _ _ ?_, hsees _ _ ?_, ?decoder, ?engine⟩
  case decoder => rw [hsize, hfits.parityStart_eq]
  case engine => rw [h.dialled.spareSize_eq_spareSize hfits.spareSize_le, hfits.parityStart_eq]
  -- The rest are bits of the dial, which depend on the page size and the strength.
  all_goals
    simp only [Dial.tuned, Dial.automatic, Dial.protected, Dial.sized, Dial.paged, Dial.more]
    cases g.page <;> cases g.strength <;> decide

end Engine

/-! ## Accesses -/

namespace Device

variable {ever : Device → Prop} {dial : Engine.Dial}

/-- A device whose two registers stand at a dial. -/
def StandsAt (dial : Engine.Dial) (device : Device) : Prop := device.engine.StandsAt dial

/-- A device keeps its dial as long as its engine is left alone. -/
theorem StandsAt.of_engine_eq {device next : Device} (h : device.StandsAt dial)
    (heq : next.engine = device.engine) : next.StandsAt dial := by
  unfold StandsAt
  rw [heq]
  exact h

/-- A write to another register leaves the two registers as they were. -/
theorem StandsAt.afterWrite {device next : Device} {offset : Nat} (h : device.StandsAt dial)
    (hafter : device.AfterWrite offset next) (hcontrol : offset ≠ Register.control)
    (hspare : offset ≠ Register.spareSize) : next.StandsAt dial :=
  h.of_register (hafter.register (Ne.symm hcontrol) (by decide) (by decide))
    (hafter.register (Ne.symm hspare) (by decide) (by decide))

section

variable (hever : ∀ device, StandsAt dial device → ever device)

include hever

/-- A read leaves the engine alone, that of the data register too. -/
theorem inStep_read32 (offset : Nat) :
    InStep Any (Behind (Since ever (StandsAt dial))) (Bus.read32 offset) (Bus.read32 offset) Any :=
  inStep_since hever fun _ _ _ h hrun => h.of_engine_eq (AfterRead.of_read32 hrun).fixed.engine_eq

/-- A write to any other register leaves the dial alone. -/
theorem inStep_write32 {offset : Nat} (hcontrol : offset ≠ Register.control)
    (hspare : offset ≠ Register.spareSize) (value : UInt32) :
    InStep Any (Behind (Since ever (StandsAt dial))) (Bus.write32 offset value)
      (Bus.write32 offset value) Any :=
  inStep_since hever fun _ _ _ h hrun => h.afterWrite (.of_write32 hrun) hcontrol hspare

/-- A byte of the window is read without a change of the engine. -/
theorem inStep_read8 (offset : Nat) :
    InStep Any (Behind (Since ever (StandsAt dial))) (Bus.read8 offset) (Bus.read8 offset) Any :=
  inStep_since hever fun _ _ _ h hrun => h.of_engine_eq (AfterRead.of_read8 hrun).fixed.engine_eq

/-- A byte of the window lies behind both registers. -/
theorem inStep_write8 (i : Nat) (value : UInt8) :
    InStep Any (Behind (Since ever (StandsAt dial))) (Bus.write8 (Register.window + i) value)
      (Bus.write8 (Register.window + i) value) Any := by
  have hcontrol : Register.control < Register.window := by decide
  have hspare : Register.spareSize < Register.window := by decide
  exact inStep_since hever fun _ _ _ h hrun =>
    h.afterWrite (.of_write8 hrun) (by omega) (by omega)

/-- Data on its way out may change the status register. -/
theorem inStep_dmaToDevice (data : Bytes) :
    InStep Any (Behind (Since ever (StandsAt dial))) (Bus.dmaToDevice data) (Bus.dmaToDevice data)
      Any := by
  refine inStep_since hever fun _ _ _ h hrun => ?_
  have hafter := AfterDmaToDevice.of_run hrun
  exact h.of_register (hafter.register (by decide)) (hafter.register (by decide))

/-- Data on its way in may change the status register and those of the report. -/
theorem inStep_dmaFromDevice (data : Bytes) :
    InStep Any (Behind (Since ever (StandsAt dial))) (Bus.dmaFromDevice data)
      (Bus.dmaFromDevice data) Any := by
  refine inStep_since hever fun _ _ _ h hrun => ?_
  have hafter := AfterDmaFromDevice.of_run hrun
  exact h.of_register (hafter.register (by decide) (by decide))
    (hafter.register (by decide) (by decide))

end

/-- The control register is read, changed and written back. -/
theorem parallel_modifyControl {dial' : Engine.Dial}
    (hever : ∀ device, StandsAt dial device → ever device)
    (hever' : ∀ device, StandsAt dial' device → ever device) {keep put : UInt32}
    {change : UInt32 → UInt32} (hchange : ∀ word, change word = adjust keep put word)
    (hturns : dial.Turns keep put dial') :
    Parallel Any (Behind (Since ever (StandsAt dial))) (Bus.modify32 Register.control change)
      (Bus.modify32 Register.control change) fun _ => Behind (Since ever (StandsAt dial')) := by
  have hread : Parallel Any (Behind (Since ever (StandsAt dial)))
      (Bus.read32 Register.control : Action Device UInt32) (Bus.read32 Register.control)
      fun value => Behind (Since ever fun device => device.StandsAt dial ∧
        value = device.engine.register Register.control) := by
    refine parallel_since (fun _ device h => hever device h.1) fun device a next h hrun => ?_
    rw [run_read32 device (by decide)] at hrun
    cases hrun
    exact ⟨h, rfl⟩
  refine hread.bind fun value => parallel_since (fun _ device h => hever' device h)
    fun device _ next h hrun => ?_
  obtain ⟨hstands, rfl⟩ := h
  rw [run_write32_control, hchange] at hrun
  cases hrun
  exact Engine.StandsAt.writeControl hstands hturns

/-- Bits are set by a read and a write back. -/
theorem parallel_setBits {dial' : Engine.Dial} {bits : UInt32}
    (hever : ∀ device, StandsAt dial device → ever device)
    (hever' : ∀ device, StandsAt dial' device → ever device) (hturns : dial.Turns (-1) bits dial') :
    Parallel Any (Behind (Since ever (StandsAt dial))) (Bus.setBits Register.control bits)
      (Bus.setBits Register.control bits) fun _ => Behind (Since ever (StandsAt dial')) :=
  parallel_modifyControl hever hever' (fun word => (Bits.adjust_neg_one bits word).symm) hturns

/-- Bits are replaced the same way. -/
theorem parallel_replaceBits {dial' : Engine.Dial} {mask bits : UInt32}
    (hever : ∀ device, StandsAt dial device → ever device)
    (hever' : ∀ device, StandsAt dial' device → ever device)
    (hturns : dial.Turns (~~~mask) bits dial') :
    Parallel Any (Behind (Since ever (StandsAt dial))) (Bus.replaceBits Register.control mask bits)
      (Bus.replaceBits Register.control mask bits) fun _ => Behind (Since ever (StandsAt dial')) :=
  parallel_modifyControl hever hever' (fun _ => rfl) hturns

/-- The spare size is written as a whole word. -/
theorem parallel_writeSpareSize {size : UInt32}
    (hever : ∀ device, StandsAt { dial with spareSize? := some size } device → ever device) :
    Parallel Any (Behind (Since ever (StandsAt dial))) (Bus.write32 Register.spareSize size)
      (Bus.write32 Register.spareSize size) fun _ =>
        Behind (Since ever (StandsAt { dial with spareSize? := some size })) := by
  refine parallel_since (fun _ => hever) fun device _ next h hrun => ?_
  rw [run_write32 device (by decide)] at hrun
  cases hrun
  refine ⟨?_, fun found hfound => ?_⟩
  · refine Eq.trans (congrArg (· &&& _) ?_) h.control_eq
    exact Engine.register_setRegister_of_ne _ _ (by decide)
  · cases hfound
    exact Engine.register_setRegister_self _ _ _

/-- A strength is selected. -/
theorem parallel_configureEcc {strength : Strength} {dial' : Engine.Dial}
    {mid : UInt32 → Engine.Dial}
    (hoff : strength = .none → dial.Turns (~~~(Bits.eccEnable ||| Bits.eccCheck)) 0 dial')
    (hstrong : ∀ bits, strength.selectBits? = some bits →
      dial.Turns (~~~Bits.strengthMask) bits (mid bits))
    (hon : ∀ bits, strength.selectBits? = some bits →
      (mid bits).Turns (-1) (Bits.eccEnable ||| Bits.eccCheck) dial')
    (hever : ∀ device, StandsAt dial device → ever device)
    (hmid : ∀ bits device, StandsAt (mid bits) device → ever device)
    (hever' : ∀ device, StandsAt dial' device → ever device) :
    Parallel Any (Behind (Since ever (StandsAt dial))) (Bus.configureEcc strength.selectBits?)
      (Bus.configureEcc strength.selectBits?) fun _ => Behind (Since ever (StandsAt dial')) := by
  unfold Bus.configureEcc
  cases hbits : strength.selectBits? with
  | none =>
    have hnone := (Strength.selectBits?_eq_none_iff strength).1 hbits
    exact parallel_modifyControl hever hever' (fun word => (Bits.adjust_zero _ word).symm)
      (hoff hnone)
  | some bits =>
    refine (parallel_replaceBits hever (hmid bits) (hstrong bits hbits)).bind fun _ => ?_
    exact parallel_setBits (hmid bits) hever' (hon bits hbits)

/-- A geometry is programmed bit by bit, and each bit stays as it has been set. -/
theorem parallel_programGeometry (g : Geometry) :
    Parallel Any (Behind (Since Any (StandsAt .selected))) (Controller.programGeometry g)
      (Controller.programGeometry g) fun _ => Behind (Since Any (StandsAt (.tuned g))) := by
  have hany : ∀ {dial : Engine.Dial} (device : Device), StandsAt dial device → Any device :=
    fun _ _ => trivial
  unfold Controller.programGeometry
  refine (parallel_replaceBits hany hany (Engine.Dial.turns_paged g.page)).bind fun _ => ?_
  refine (parallel_writeSpareSize hany).bind fun _ => ?_
  refine (parallel_setBits hany hany (Engine.Dial.turns_protected g)).bind fun _ => ?_
  refine (parallel_setBits hany hany (Engine.Dial.turns_automatic g)).bind fun _ => ?_
  exact parallel_configureEcc Engine.Dial.turns_off (fun _ => Engine.Dial.turns_strong)
    (fun _ => Engine.Dial.turns_on) hany (fun _ => hany) hany

/-- A command keeps to the ports of the chip. -/
theorem inStep_send (hever : ∀ device, StandsAt dial device → ever device) (poll : Poll)
    (rowCycles : Nat) {command : Command} (hcommand : command ≠ .columnRead)
    (column row : Option Nat) :
    TryInStep Any (Behind (Since ever (StandsAt dial)))
      (Framing.send poll rowCycles command column row)
      (Framing.send poll rowCycles command column row) Any := by
  refine Framing.inStep_send (.inl trivial) (fun offset hoffset value => ?_) ?_ rowCycles hcommand
    column row
  · simp only [List.mem_cons, List.not_mem_nil, or_false] at hoffset
    rcases hoffset with rfl | rfl <;> exact inStep_write32 hever (by decide) (by decide) value
  · exact (inStep_read32 hever _).next fun _ => .pure trivial

/-! ## What a controller does -/

/-- Probing turns the dial from whatever it stood at to the geometry it has settled on. -/
theorem wakes (poll : Poll) :
    Bus.Wakes Any poll (Behind (Since Any (StandsAt .unknown)))
      (Behind (Since Any (StandsAt .selected))) Any
      fun g => Behind (Since Any (StandsAt (.tuned g))) where
  enable offset hoffset value := by
    simp only [List.mem_cons, List.not_mem_nil, or_false] at hoffset
    rcases hoffset with rfl | rfl <;>
      exact inStep_write32 (fun _ _ => trivial) (by decide) (by decide) value
  selectChip := parallel_replaceBits (fun _ _ => trivial) (fun _ _ => trivial)
    Engine.Dial.turns_selected
  unlock := inStep_write32 (fun _ _ => trivial) (by decide) (by decide) _
  reset := (parallel_setBits (fun _ _ => trivial) (fun _ _ => trivial)
    Engine.Dial.turns_reset).inStep
  isReset := (inStep_read32 (fun _ _ => trivial) _).next fun _ => .pure trivial
  sendReset := inStep_send (fun _ _ => trivial) _ _ (by decide) _ _
  readId := Framing.inStep_readId (inStep_send (fun _ _ => trivial) _ _ (by decide) _ _)
    (inStep_read32 (fun _ _ => trivial) _)
  programGeometry g := parallel_programGeometry g

/-- Nothing that the operations of a controller do to a device turns its dial. -/
theorem tolerates (profile : Profile)
    (htuned : ∀ device, StandsAt (.tuned profile.geometry) device → ever device) :
    Bus.Tolerates Any profile (Behind (Since ever (StandsAt (.tuned profile.geometry)))) where
  read32 _ := inStep_read32 htuned _
  write32 _ hplain value :=
    inStep_write32 htuned (fun h => hplain (by simp [h])) (fun h => hplain (by simp [h])) value
  writeSpareSize := (parallel_writeSpareSize htuned).inStep
  setControl _ hbits := (parallel_setBits htuned htuned (Engine.Dial.turns_command _ hbits)).inStep
  selectChip := (parallel_replaceBits htuned htuned (Engine.Dial.turns_chipSelect _)).inStep
  configureEcc := (parallel_configureEcc Engine.Dial.turns_off_again
    (fun _ => Engine.Dial.turns_strong_again) (fun _ => Engine.Dial.turns_on_again) htuned
    (fun _ => htuned) htuned).inStep
  read8 _ := inStep_read8 htuned _
  write8 i value := inStep_write8 htuned i value
  dmaAddress _ := inStep_since htuned fun _ _ _ h hrun => by cases hrun; exact h
  dmaToDevice data := inStep_dmaToDevice htuned data
  dmaFromDevice data := inStep_dmaFromDevice htuned data
  send haddressed := inStep_send htuned _ _ haddressed.ne_columnRead _ _
  readId := Framing.inStep_readId (inStep_send htuned _ _ (by decide) _ _) (inStep_read32 htuned _)
  readPort := inStep_read32 htuned _
  writePort value := inStep_write32 htuned (by decide) (by decide) value

end Device

end Sim

namespace Controller

open Sim Trail

/-- The same controller, with a trail that begins where its device is now. -/
def withTrail (controller : Controller Device) : Controller (Trail Device) :=
  ⟨controller.profile, ⟨controller.channel.state, .begin controller.channel.bus⟩,
    controller.staging, controller.stats⟩

/-- Nothing that is done to a device from outside reaches its registers, and with them its dial. -/
theorem since_touched {dial : Engine.Dial} {change : Device → Device} (h : IsOutside change)
    {past : List (Moment Device)} {device : Device}
    (hsince : Since (Device.StandsAt dial) (Device.StandsAt dial) past device) :
    Since (Device.StandsAt dial) (Device.StandsAt dial) past (change device) := by
  have hregister : ∀ offset, (change device).engine.register offset =
      device.engine.register offset := fun offset => by
    rw [Engine.register, Engine.register, h.registers_eq]
  exact ⟨hsince.ever, hsince.now.of_register (hregister _) (hregister _)⟩

/-- The devices that a controller has driven since its trail began. -/
def visited (controller : Controller (Trail Device)) : List Device :=
  controller.channel.bus.past.map (·.device) ++ [controller.channel.bus.device]

/-- Controller and device agree on the geometry at every moment. Probe any device whatsoever, with
any setting and any limit on waits; if the controller comes up, let any events follow, requests
that fail among them. Then the device agrees with the controller before the first of them, after
every access that they make, and in the end. In particular the parity starts at the same byte for
the controller's layout, for its decoder and for the engine, in every transfer. -/
theorem agrees_on_geometry {setting : PowerOn} {config : Config} {device : Device}
    {controller last : Controller Device} {events : List Event} {replies : List (Option Reply)}
    (hprobe : probe setting config device = .ok (.ok controller))
    (hrun : (events.mapM play).run controller = .ok (replies, last)) :
    controller.channel.bus.engine.Agrees controller.profile.geometry controller.profile.layout ∧
      last.profile = controller.profile ∧ ∃ watched,
        (events.mapM Trail.play).run controller.withTrail = .ok (replies, watched) ∧
        watched.channel.bus.device = last.channel.bus ∧
        ∀ device ∈ watched.visited,
          device.engine.Agrees controller.profile.geometry controller.profile.layout := by
  obtain ⟨profile, probed, hbringUp, rfl⟩ := exists_of_probe hprobe
  have hfresh : Behind (Since Any (Device.StandsAt .unknown)) device (.begin device) :=
    behind_begin ⟨fun _ _ => trivial, Engine.standsAt_unknown _⟩
  obtain ⟨_, -, hend⟩ := (parallel_bringUp (Device.wakes config.poll) (.inl trivial)
    setting).exists_of_run hfresh hbringUp
  obtain ⟨htuned, hidentified⟩ := hend
  have hfits := hidentified.settled.fits
  have hprobed : probed.StandsAt (.tuned profile.geometry) := htuned.past.now
  have hstart : Paired profile (Behind (Since (Device.StandsAt (.tuned profile.geometry))
      (Device.StandsAt (.tuned profile.geometry)))) (start profile probed)
      (start profile (Trail.begin probed)) := by
    refine paired_start profile (behind_begin ⟨fun moment hmem => ?_, hprobed⟩)
    cases hmem
  obtain ⟨watched, hwatched, hpaired, -⟩ := (inStep_playAll
    (Device.tolerates profile fun _ h => h) hidentified.settled (.inl trivial)
    (fun _ houtside _ _ => since_touched houtside) events).exists_of_run hstart hrun
  refine ⟨hprobed.agrees hfits, hpaired.profile_eq, watched, hwatched,
    hpaired.channel.bus.device_eq, fun visited hvisited => ?_⟩
  have hpast := hpaired.channel.bus.past
  rcases List.mem_append.1 hvisited with hmem | hmem
  · obtain ⟨moment, hmoment, rfl⟩ := List.mem_map.1 hmem
    exact Engine.StandsAt.agrees (hpast.ever moment hmoment) hfits
  · rw [List.mem_singleton.1 hmem, hpaired.channel.bus.device_eq]
    exact Engine.StandsAt.agrees hpast.now hfits

/-- A K9F1G08 of which a block wears out before it is erased, and which hangs in the end. -/
theorem agrees_on_geometry_k9f1g08 : ∃ (device : Device) (controller last : Controller Device)
    (replies : List (Option Reply)), device.chip = Chip.k9f1g08 ∧
    probe .unset ⟨Bits.defaultTiming, ⟨some 20⟩⟩ device = .ok (.ok controller) ∧
    (([.wearOut 5, .request (.eraseBlock 5), .inject 64 0 0x80, .setHang true] :
      List Event).mapM play).run controller = .ok (replies, last) ∧
    controller.channel.bus.engine.Agrees ⟨.p2048, 64, .t8, rfl⟩ ⟨0, 60⟩ ∧
    last.channel.bus.engine.Agrees ⟨.p2048, 64, .t8, rfl⟩ ⟨0, 60⟩ := by
  obtain ⟨device, hnew⟩ : ∃ device, Device.new Chip.k9f1g08 = .ok device := ⟨_, rfl⟩
  have hdevice : device.Reachable := .new hnew
  have hchip : device.chip = Chip.k9f1g08 := by cases hnew; rfl
  obtain ⟨controller, hprobe, hdrive⟩ : ∃ controller,
      probe .unset ⟨Bits.defaultTiming, ⟨some 20⟩⟩ device = .ok (.ok controller) ∧
        controller.drive = ⟨smallProfile ⟨some 20⟩, Chip.k9f1g08,
          FlashArray.blank.flash Chip.k9f1g08.rawLen, false, ⟨0, 0⟩⟩ := by
    cases hnew
    exact exists_probe hdevice rfl rfl
  have hprofile : controller.profile = smallProfile ⟨some 20⟩ := congrArg Drive.profile hdrive
  obtain ⟨replies, drive, hplay⟩ : ∃ replies drive, controller.drive.playAll [.wearOut 5,
      .request (.eraseBlock 5), .inject 64 0 0x80, .setHang true] = .ok (replies, drive) := by
    rw [hdrive]
    exact ⟨_, _, rfl⟩
  have hfollows := follows_playAll (steady_of_probe hdevice hprobe).1.rests
    [.wearOut 5, .request (.eraseBlock 5), .inject 64 0 0x80, .setHang true]
  rw [hplay] at hfollows
  obtain ⟨_, last, hrun, -⟩ := hfollows.exists_of_ok
  obtain ⟨hstart, -, watched, -, hlast, halways⟩ := agrees_on_geometry hprobe hrun
  have hend := halways watched.channel.bus.device
    (List.mem_append.2 (.inr (List.mem_singleton.2 rfl)))
  rw [hprofile] at hstart hend
  rw [hlast] at hend
  exact ⟨device, controller, last, _, hchip, hprobe, hrun, hstart, hend⟩

end Controller

end NandFlash
