import NandFlash.Proofs.Sim.Probing
import NandFlash.Proofs.Sim.Reachable
import NandFlash.Proofs.Sim.Serving

/-!
# Sessions on the simulated device

Probing, and then requests with changes of the device from outside in between. A session goes as
its drive does, step by step, and this is why the past of a device does not matter.
-/

namespace NandFlash

open Sim

/-! ## Events -/

/-- A step of a session: a request, or a change of the device from outside. -/
inductive Event where
  | request (request : Request)
  | inject (page offset : Nat) (mask : UInt8)
  | wearOut (block : Nat)
  | setHang (hang : Bool)
deriving DecidableEq, Repr

namespace Controller

/-- Change the device from outside. -/
def touch (change : Device → Device) : Action (Controller Device) (Option Reply) :=
  fun controller => .ok (none, { controller with channel.bus := change controller.channel.bus })

/-- One step of a session: a request has a reply. -/
def play : Event → Action (Controller Device) (Option Reply)
  | .request request => return some (← serve request)
  | .inject page offset mask => touch (·.inject page offset mask)
  | .wearOut block => touch (·.wearOut block)
  | .setHang hang => touch (·.setHang hang)

end Controller

namespace Sim.Drive

/-- One step of a session. -/
def play (drive : Drive) : Event → Except Crash (Option Reply × Drive)
  | .request request => do
    let (reply, drive) ← drive.serve request
    return (some reply, drive)
  | .inject page offset mask =>
    return (none, { drive with flash := drive.flash.inject page offset mask })
  | .wearOut block => return (none, { drive with flash := drive.flash.wearOut block })
  | .setHang hang => return (none, { drive with hang })

/-- The steps of a session, one after the other. -/
def playAll (drive : Drive) : List Event → Except Crash (List (Option Reply) × Drive)
  | [] => return ([], drive)
  | event :: events => do
    let (reply, drive) ← drive.play event
    let (replies, drive) ← drive.playAll events
    return (reply :: replies, drive)

end Sim.Drive

namespace Controller

variable {controller : Controller Device}

/-- A step goes as the drive says. -/
theorem follows_play (h : controller.Rests) (event : Event) :
    Follows (controller.drive.play event)
      (fun result reply next => reply = result.1 ∧ next.Rests ∧ next.drive = result.2)
      ((play event).run controller) := by
  cases event with
  | request request =>
    refine (follows_serve h request).bind fun result reply next hend => ?_
    obtain ⟨reply, drive⟩ := result
    obtain ⟨rfl, hrest, rfl⟩ := hend
    exact Follows.of_ok rfl ⟨rfl, hrest, rfl⟩
  | inject page offset mask =>
    have hflash : (controller.channel.bus.inject page offset mask).flash =
        controller.channel.bus.flash.inject page offset mask :=
      FlashArray.flash_inject _ _ _ _ _
    refine Follows.of_ok rfl ⟨rfl, h.withBus h.atRest, ?_⟩
    show (⟨_, _, Device.flash _, _, _⟩ : Drive) = _
    rw [hflash]
    rfl
  | wearOut block =>
    have hflash : (controller.channel.bus.wearOut block).flash =
        controller.channel.bus.flash.wearOut block :=
      FlashArray.flash_wearOut _ _ _
    refine Follows.of_ok rfl ⟨rfl, h.withBus h.atRest, ?_⟩
    show (⟨_, _, Device.flash _, _, _⟩ : Drive) = _
    rw [hflash]
    rfl
  | setHang hang => exact Follows.of_ok rfl ⟨rfl, h.withBus (h.atRest.setHang hang), rfl⟩

/-- A session goes as the drive says, by induction from one step. -/
theorem follows_playAll (h : controller.Rests) (events : List Event) :
    Follows (controller.drive.playAll events)
      (fun result replies next => replies = result.1 ∧ next.Rests ∧ next.drive = result.2)
      ((events.mapM play).run controller) := by
  induction events generalizing controller with
  | nil => exact Follows.of_ok rfl ⟨rfl, h, rfl⟩
  | cons event events ih =>
    rw [List.mapM_cons]
    refine (follows_play h event).bind fun result reply next hend => ?_
    obtain ⟨reply, drive⟩ := result
    obtain ⟨rfl, hrest, rfl⟩ := hend
    refine (ih hrest).bind fun result replies last hend => ?_
    obtain ⟨replies, drive⟩ := result
    obtain ⟨rfl, hrest, rfl⟩ := hend
    exact Follows.of_ok rfl ⟨rfl, hrest, rfl⟩

end Controller

end NandFlash
