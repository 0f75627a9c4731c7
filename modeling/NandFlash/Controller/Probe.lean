import NandFlash.Controller.Framing
import NandFlash.Geometry.Selection
import NandFlash.Staging
import NandFlash.Transfer

/-!
# Bringing the controller up

Probing resets the controller, identifies the chip, settles on a geometry and programs it.
`Profile` is what is known from then on; `Controller` adds what changes from operation to
operation.
-/

namespace NandFlash

/-- Settings that are not read from the device. -/
structure Config where
  /-- Bus timing. -/
  timing : UInt32
  /-- Bound on every busy-wait. -/
  poll : Poll
deriving DecidableEq, Repr

/-- The default timing and unbounded waits. -/
def Config.standard : Config := ⟨Bits.defaultTiming, ⟨none⟩⟩

/-- What probing has found out. -/
structure Profile where
  chip : ChipInfo
  geometry : Geometry
  layout : SpareLayout
  warnings : List EccDoesNotFit
  poll : Poll
deriving DecidableEq, Repr

/-- A probed controller. -/
structure Controller (β : Type) where
  profile : Profile
  channel : Channel β
  staging : StagingArea
  stats : EccStats

namespace Controller

variable {β : Type} [Bus β]

/-- Program a settled geometry. -/
def programGeometry (g : Geometry) : Action β Unit := do
  Bus.replaceBits Register.control Bits.pageSizeMask g.page.selectBits
  Bus.write32 Register.spareSize (UInt32.ofNat g.spareSize)
  Bus.setBits Register.control Bits.protectMetadata
  Bus.setBits Register.control Bits.spareAutoWrite
  Bus.configureEcc g.strength.selectBits?

/-- Reset the controller, identify the chip and program the geometry it is driven with. -/
def bringUp (setting : PowerOn) (config : Config) : Attempt Error β Profile := do
  let poll := config.poll
  perform (Bus.write32 Register.globalControl Bits.nandEnable)
  perform (Bus.write32 Register.timing config.timing)
  perform (Bus.replaceBits Register.control Bits.chipSelectMask Bits.chipSelect0)
  perform (Bus.write32 Register.writeProtect Bits.writeUnlock)
  perform (Bus.setBits Register.control Bits.reset)
  poll.wait .controllerReset (perform (Bus.allClear Register.control Bits.reset))
  Framing.send poll 0 .reset none none
  let id ← Framing.readId poll
  let chip ← ExceptT.mk (pure (ChipInfo.decode id))
  match Selection.choose chip.pageSize chip.spareSize setting with
  | .error error => throw (.geometry error)
  | .ok selection =>
    perform (programGeometry selection.geometry)
    return ⟨chip, selection.geometry, selection.layout, selection.warnings, poll⟩

/-- A controller in its first state. -/
def start (profile : Profile) (bus : β) : Controller β :=
  { profile
    channel := ⟨.idle, bus⟩
    staging := .new profile.geometry.spareSize
    stats := ⟨0, 0⟩ }

/-- Take over a bus and bring the controller up. A bus whose controller does not come up is
lost. -/
def probe (setting : PowerOn) (config : Config) (bus : β) :
    Except Crash (Except Error (Controller β)) := do
  match ← (bringUp setting config).run bus with
  | (.ok profile, bus) => return .ok (start profile bus)
  | (.error error, _) => return .error error

end Controller

end NandFlash
