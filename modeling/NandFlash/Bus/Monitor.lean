import NandFlash.Bus
import NandFlash.Checksum
import NandFlash.Text

/-!
# Watching and disturbing a bus

A monitor sits between a driver and a device. It passes every call on, can record what goes by,
and can falsify what 32-bit reads answer. The device is accessed all the same, so the side
effects of a falsified read stay.
-/

namespace NandFlash

/-- A call that has gone over the bus. -/
inductive BusEvent where
  | read32 (offset : Nat) (value : UInt32)
  | write32 (offset : Nat) (value : UInt32)
  | read8 (offset : Nat) (value : UInt8)
  | write8 (offset : Nat) (value : UInt8)
  | dmaAddress (length : Nat) (address : UInt32)
  | dmaToDevice (data : Bytes)
  | dmaFromDevice (length : Nat)
  | delay (nanoseconds : Nat)
deriving DecidableEq, Repr

/-- An event as a line of a trace: numbers in hexadecimal, lengths and times in decimal. -/
def BusEvent.text : BusEvent → String
  | read32 offset value => s!"R32 {hexDigits offset} {hexDigits value.toNat}"
  | write32 offset value => s!"W32 {hexDigits offset} {hexDigits value.toNat}"
  | read8 offset value => s!"R8 {hexDigits offset} {hexDigits value.toNat}"
  | write8 offset value => s!"W8 {hexDigits offset} {hexDigits value.toNat}"
  | dmaAddress length address => s!"ADDR {length} {hexDigits address.toNat}"
  | dmaToDevice data => s!"TO {data.size} {hexPadded 8 (Checksum.ofBytes data).toNat}"
  | dmaFromDevice length => s!"FROM {length}"
  | delay nanoseconds => s!"DELAY {nanoseconds}"

/-- A rule that falsifies 32-bit reads of one register. -/
structure Fault where
  offset : Nat
  set : UInt32
  clear : UInt32
  /-- Reads left alone before the rule takes effect. -/
  skip : Nat
  /-- Reads still to be falsified; without a count, all of them. -/
  count : Option Nat
deriving DecidableEq, Repr

namespace Fault

/-- The rule after a read of its register, and what it makes of the value. -/
def step (fault : Fault) (value : UInt32) : UInt32 × Fault :=
  if 0 < fault.skip then
    (value, { fault with skip := fault.skip - 1 })
  else
    let falsified := (value &&& ~~~fault.clear) ||| fault.set
    match fault.count with
    | none => (falsified, fault)
    | some 0 => (value, fault)
    | some (count + 1) => (falsified, { fault with count := some count })

/-- Apply the rules of one register in order. -/
def applyAll (offset : Nat) (value : UInt32) : List Fault → UInt32 × List Fault
  | [] => (value, [])
  | fault :: rest =>
    let (value, fault) := if fault.offset = offset then fault.step value else (value, fault)
    let (value, rest) := applyAll offset value rest
    (value, fault :: rest)

end Fault

/-- A device behind a monitor. -/
structure Monitor (β : Type) where
  device : β
  /-- Events recorded since recording was switched on, if it is on. -/
  recorded : Option (Array BusEvent)
  faults : List Fault

namespace Monitor

variable {α β : Type}

/-- A monitor that neither records nor falsifies. -/
def watch (device : β) : Monitor β := ⟨device, none, []⟩

/-- An action on the device that the monitor does not see. -/
def onDevice (action : Action β α) : Action (Monitor β) α :=
  fun ⟨device, recorded, faults⟩ => do
    let (value, device) ← action device
    return (value, ⟨device, recorded, faults⟩)

/-- Note an event, if recording is on. -/
def note (event : BusEvent) : Action (Monitor β) Unit :=
  modify fun ⟨device, recorded, faults⟩ => ⟨device, recorded.map (·.push event), faults⟩

/-- Falsify what a register has answered. -/
def falsify (offset : Nat) (value : UInt32) : Action (Monitor β) UInt32 :=
  fun ⟨device, recorded, faults⟩ =>
    let (value, faults) := Fault.applyAll offset value faults
    .ok (value, ⟨device, recorded, faults⟩)

/-- Pass a call on and note the event it gives rise to. -/
def pass (action : Action β α) (event : α → BusEvent) : Action (Monitor β) α := do
  let value ← onDevice action
  note (event value)
  return value

instance [Bus β] : Bus (Monitor β) where
  read32 offset := do
    let value ← onDevice (Bus.read32 offset)
    let value ← falsify offset value
    note (.read32 offset value)
    return value
  write32 offset value := pass (Bus.write32 offset value) fun _ => .write32 offset value
  read8 offset := pass (Bus.read8 offset) fun value => .read8 offset value
  write8 offset value := pass (Bus.write8 offset value) fun _ => .write8 offset value
  dmaAddress data := pass (Bus.dmaAddress data) fun address => .dmaAddress data.size address
  dmaToDevice data := pass (Bus.dmaToDevice data) fun _ => .dmaToDevice data
  dmaFromDevice data := do
    let length := data.size
    pass (Bus.dmaFromDevice data) fun _ => .dmaFromDevice length
  delay nanoseconds := pass (Bus.delay nanoseconds) fun _ => .delay nanoseconds

instance [PowerOnSource β] : PowerOnSource (Monitor β) where
  nonvolatile := onDevice PowerOnSource.nonvolatile
  pins := onDevice PowerOnSource.pins

end Monitor

end NandFlash
