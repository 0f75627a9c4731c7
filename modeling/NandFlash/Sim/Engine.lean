import NandFlash.Bytes
import NandFlash.Checksum
import NandFlash.Ecc.Correction
import NandFlash.Geometry.Basic
import NandFlash.Register
import Std.Data.ExtTreeMap
import Std.Data.ExtTreeSet

/-!
# The controller side of the simulator

Registers, the window on the spare area, and the ECC stage. In place of real BCH codes the
parity is a checksum of the field, which only has to be deterministic. Damaged fields are queued
and shown one at a time: acknowledging the ECC event brings up the next one, and after the last
one the transfer is done.
-/

namespace NandFlash.Sim

/-- A started transfer. -/
inductive Direction where
  | fromFlash
  | toFlash
deriving DecidableEq, Repr

/-- What the ECC stage has to say about one field. -/
structure DamageReport where
  /-- Counted from 1. -/
  field : Nat
  status : FieldStatus
  /-- Error addresses and xor values. -/
  errors : List (UInt16 × UInt8)
deriving DecidableEq, Repr

/-- The window on the spare area. -/
abbrev Window := Vector UInt8 windowLen

namespace Window

/-- An erased window. -/
def erased : Window := Vector.replicate windowLen erasedByte

/-- A byte of the window. -/
def byte (window : Window) (i : Nat) : UInt8 := window.toArray.getD i 0

/-- A little-endian word of the window. -/
def word (window : Window) (i : Nat) : UInt32 :=
  wordOfBytes (window.byte i) (window.byte (i + 1)) (window.byte (i + 2)) (window.byte (i + 3))

/-- Store a byte. -/
def setByte (window : Window) (i : Nat) (byte : UInt8) : Window :=
  window.setIfInBounds i byte

/-- Store a little-endian word. -/
def setWord (window : Window) (i : Nat) (word : UInt32) : Window :=
  (((window.setByte i (wordByte word 0)).setByte (i + 1) (wordByte word 1)).setByte (i + 2)
    (wordByte word 2)).setByte (i + 3) (wordByte word 3)

theorem byte_setByte (window : Window) (i j : Nat) (byte : UInt8) (h : i < windowLen) :
    (window.setByte i byte).byte j = if j = i then byte else window.byte j := by
  simp only [Window.byte, setByte, Vector.toArray_setIfInBounds, Array.getD_eq_getD_getElem?,
    Array.getElem?_setIfInBounds, Vector.size_toArray, h]
  grind

/-- A stored word is read back, if it lies within the window. -/
theorem word_setWord (window : Window) (i : Nat) (word : UInt32) (h : i + 4 ≤ windowLen) :
    (window.setWord i word).word i = word := by
  have size0 : i < windowLen := by omega
  have size1 : i + 1 < windowLen := by omega
  have size2 : i + 2 < windowLen := by omega
  have size3 : i + 3 < windowLen := by omega
  simp [Window.word, setWord, byte_setByte, size0, size1, size2, size3, wordOfBytes_wordByte]

/-- Bytes copied into the window. -/
def overlay (window : Window) (start : Nat) (source : Bytes) : Window :=
  ⟨Bytes.overlay window.toArray start source, by simp⟩

/-- The place in the window that an access of some width at a register offset falls on, if it
lies wholly within the window. -/
def index? (offset width : Nat) : Option Nat :=
  if Register.window ≤ offset ∧ offset - Register.window + width ≤ windowLen then
    some (offset - Register.window)
  else
    none

end Window

/-- State of the controller side. -/
structure Engine where
  registers : Std.ExtTreeMap Nat UInt32
  window : Window
  /-- A start bit that has been set but not yet served. -/
  transfer : Option Direction
  /-- Damaged fields still to be shown; the first one is being shown. -/
  reports : List DamageReport
  /-- Is a read being shown field by field? -/
  reading : Bool
  /-- Do transfers start and never end? -/
  hang : Bool

namespace Engine

/-- The state after power-on. -/
def idle : Engine where
  registers := ∅
  window := Window.erased
  transfer := none
  reports := []
  reading := false
  hang := false

/-- A register; one never written is zero. -/
def register (engine : Engine) (offset : Nat) : UInt32 :=
  engine.registers.getD offset 0

/-- Store a register. -/
def setRegister (engine : Engine) (offset : Nat) (value : UInt32) : Engine :=
  { engine with registers := engine.registers.insert offset value }

theorem register_setRegister (engine : Engine) (offset other : Nat) (value : UInt32) :
    (engine.setRegister offset value).register other =
      if other = offset then value else engine.register other := by
  simp only [register, setRegister, Std.ExtTreeMap.getD_insert]
  grind

/-- Raise status flags. -/
def raise (engine : Engine) (flags : UInt32) : Engine :=
  engine.setRegister Register.status (engine.register Register.status ||| flags)

/-- Offsets of the field status words. -/
def statusOffsets : List Nat :=
  (List.range Register.fieldStatusWords).map fun i => Register.fieldStatus + 4 * i

/-- Clear every field's status. -/
def clearStatus (engine : Engine) : Engine :=
  statusOffsets.foldl (fun engine offset => engine.setRegister offset 0) engine

/-- Set one field's status byte; fields beyond the status words have none. -/
def setFieldStatus (engine : Engine) (field : Nat) (status : FieldStatus) : Engine :=
  match field with
  | 0 => engine
  | index + 1 =>
    if index / 4 < Register.fieldStatusWords then
      let offset := Register.fieldStatus + 4 * (index / 4)
      let shift := UInt32.ofNat (index % 4 * 8)
      let word := engine.register offset &&& ~~~((0xFF : UInt32) <<< shift)
      engine.setRegister offset (word ||| status.toByte.toUInt32 <<< shift)
    else
      engine

/-- The latched address words for a list of errors. -/
def addressWord (errors : List (UInt16 × UInt8)) (i : Nat) : UInt32 :=
  let address := fun k => (errors[k]?.getD (0, 0)).1.toUInt32
  address (2 * i) ||| address (2 * i + 1) <<< 16

/-- The latched value words for a list of errors. -/
def valueWord (errors : List (UInt16 × UInt8)) (i : Nat) : UInt32 :=
  let value := fun k => (errors[k]?.getD (0, 0)).2
  wordOfBytes (value (4 * i)) (value (4 * i + 1)) (value (4 * i + 2)) (value (4 * i + 3))

/-- Latch the addresses and values of errors, as many as there is room for. -/
def latch (engine : Engine) (errors : List (UInt16 × UInt8)) : Engine :=
  let engine := (List.range Register.errorAddressWords).foldl
    (fun engine i => engine.setRegister (Register.errorAddress + 4 * i) (addressWord errors i))
    engine
  (List.range Register.errorValueWords).foldl
    (fun engine i => engine.setRegister (Register.errorValue + 4 * i) (valueWord errors i))
    engine

/-- Show one field's report; every other field's status is cleared. -/
def present (engine : Engine) (field : Nat) (status : FieldStatus)
    (errors : List (UInt16 × UInt8)) : Engine :=
  ((engine.clearStatus.setFieldStatus field status).latch (errors.take Ecc.maxErrors)).raise
    Bits.eccEvent

/-- Show the first queued report, or end the read when there is none. -/
def presentNext (engine : Engine) : Engine :=
  match engine.reports with
  | report :: _ => engine.present report.field report.status report.errors
  | [] => { engine.clearStatus with reading := false }.raise Bits.transferDone

/-- Written ones clear status flags; acknowledging an ECC event moves on to the next report. -/
def acknowledge (engine : Engine) (value : UInt32) : Engine :=
  let cleared := value &&& (Bits.transferDone ||| Bits.eccEvent ||| Bits.readyEdge)
  let engine := engine.setRegister Register.status
    (engine.register Register.status &&& ~~~cleared)
  if cleared &&& Bits.eccEvent != 0 && engine.reading then
    { engine with reports := engine.reports.drop 1 }.presentNext
  else
    engine

/-- Write the NAND control register: reset drops transfer and reports, start bits start a
transfer, and none of these bits is stored. -/
def writeControl (engine : Engine) (value : UInt32) : Engine :=
  let engine :=
    if value &&& Bits.reset != 0 then
      { engine with transfer := none, reports := [], reading := false }
    else engine
  let engine :=
    if value &&& Bits.startRead != 0 then
      { engine with transfer := some .fromFlash } else engine
  let engine :=
    if value &&& Bits.startWrite != 0 then
      { engine with transfer := some .toFlash } else engine
  engine.setRegister Register.control
    (value &&& ~~~(Bits.reset ||| Bits.startRead ||| Bits.startWrite))

/-- Write the transfer engine's control register; a reset drops the transfer, and neither the
reset nor the busy bit is stored. -/
def writeDmaControl (engine : Engine) (value : UInt32) : Engine :=
  let engine := if value &&& Bits.dmaReset != 0 then { engine with transfer := none } else engine
  engine.setRegister Register.dmaControl (value &&& ~~~(Bits.dmaReset ||| Bits.dmaBusy))

/-- The page size selected in the control register. -/
def page (engine : Engine) : PageSize :=
  match engine.register Register.control &&& Bits.pageSizeMask with
  | 0x00000 => .p512
  | 0x10000 => .p2048
  | 0x20000 => .p4096
  | _ => .p8192

/-- Spare bytes that take part in a transfer. -/
def spareSize (engine : Engine) : Nat :=
  min (engine.register Register.spareSize &&& Bits.spareSizeMask).toNat windowLen

/-- The strength selected in the control register, if ECC is on and the selection means one. -/
def strength? (engine : Engine) : Option Strength :=
  let control := engine.register Register.control
  if control &&& Bits.eccEnable == 0 then
    none
  else
    [Strength.t8, .t12, .t24].find? fun strength =>
      strength.selectBits? == some (control &&& Bits.strengthMask)

/-- The geometry the ECC stage works with, if ECC is on. -/
def geometry? (engine : Engine) : Option Geometry := do
  let strength ← engine.strength?
  (Geometry.make engine.page engine.spareSize strength).toOption

/-! ## The ECC stage -/

/-- The parity code of a field: a checksum of its data, if it is complete, and its metadata. -/
def parityCode (g : Geometry) (data : Bytes) (window : Window) (index : Nat) : Bytes :=
  let start := index * g.fieldLen
  let stop := (index + 1) * g.fieldLen
  let field := if stop ≤ data.size then data.extract start stop else #[]
  let metadata := window.toArray.extract (g.parityLen * index) (g.parityLen * index + metadataLen)
  let code := Checksum.ofBytes (field ++ metadata)
  ((List.range g.parityLen).map fun k => wordByte code (k % 4) ^^^ UInt8.ofNat k).toArray

/-- Fill each field's parity slot in the window. A slot may cover metadata of a later field, so
the fields go in order. -/
def generateParity (g : Geometry) (spareSize : Nat) (data : Bytes) (window : Window) : Window :=
  if spareSize < g.parityBytes then
    window
  else
    (List.range g.fieldCount).foldl
      (fun window index =>
        window.overlay (spareSize - g.parityBytes + g.parityLen * index)
          (parityCode g data window index))
      window

/-- The bytes of a raw page that a codeword covers, with their error addresses: the field's data,
its metadata, its parity. -/
def codewordBytes (g : Geometry) (parityBase index : Nat) : List (Nat × Nat) :=
  ((List.range g.fieldLen).map fun k => (index * g.fieldLen + k, k)) ++
    ((List.range metadataLen).map fun k =>
      (g.pageBytes + g.parityLen * index + k, g.fieldLen + k)) ++
    ((List.range g.parityLen).map fun k =>
      (g.pageBytes + parityBase + g.parityLen * index + k, g.firstParity + k))

/-- The errors of one codeword, given how each raw byte has flipped. A byte that an earlier
codeword has claimed is not reported again. -/
def codewordErrors (flip : Nat → UInt8) :
    List (Nat × Nat) → Std.ExtTreeSet Nat → List (UInt16 × UInt8) × Std.ExtTreeSet Nat
  | [], claimed => ([], claimed)
  | (raw, address) :: rest, claimed =>
    if flip raw = 0 ∨ raw ∈ claimed then
      codewordErrors flip rest claimed
    else
      let (errors, claimed) := codewordErrors flip rest (claimed.insert raw)
      ((UInt16.ofNat address, flip raw) :: errors, claimed)

/-- The report of one field, unless it is clean. -/
def damageReport? (g : Geometry) (index : Nat) (errors : List (UInt16 × UInt8)) :
    Option DamageReport :=
  if errors.isEmpty then
    none
  else if errors.length > g.correctable then
    some ⟨index + 1, .uncorrectable, errors⟩
  else
    some ⟨index + 1, .correctable errors.length, errors⟩

/-- The reports of some fields, in order. -/
def damageReports (g : Geometry) (parityBase : Nat) (flip : Nat → UInt8) :
    List Nat → Std.ExtTreeSet Nat → List DamageReport
  | [], _ => []
  | index :: rest, claimed =>
    let (errors, claimed) := codewordErrors flip (codewordBytes g parityBase index) claimed
    (damageReport? g index errors).toList ++ damageReports g parityBase flip rest claimed

/-- How a byte of the page register differs from the reference. -/
def flipAt (cache reference : Bytes) (raw : Nat) : UInt8 :=
  match cache[raw]?, reference[raw]? with
  | some now, some before => now ^^^ before
  | _, _ => 0

/-- Compare the page register with the reference copy, field by field. -/
def findDamage (engine : Engine) (cache : Bytes) (reference? : Option Bytes) :
    List DamageReport :=
  if engine.register Register.control &&& Bits.eccCheck == 0 then
    []
  else
    match engine.geometry?, reference? with
    | some g, some reference =>
      if engine.spareSize < g.parityBytes then
        []
      else
        damageReports g (engine.spareSize - g.parityBytes) (flipAt cache reference)
          (List.range g.fieldCount) ∅
    | _, _ => []

end Engine

end NandFlash.Sim
