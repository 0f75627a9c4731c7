import NandFlash.Proofs.Sim.Session

/-!
# Independence of the past

Two devices with the same chip, the same flash and the same hang flag may differ in everything
else: registers, window, page register, transfers and programs that were started and never
finished. The main statement is that no driver can tell them apart: probing goes alike on both,
and so does every session after it.
-/

namespace NandFlash

open Sim

/-! ## Starting alike -/

/-- Two starts have gone alike: in the same crash, with the same error, or in related states. -/
def SameStart {σ τ : Type} (post : σ → τ → Prop) :
    Except Crash (Except Error σ) → Except Crash (Except Error τ) → Prop
  | .ok (.ok s), .ok (.ok t) => post s t
  | .ok (.error e), .ok (.error e') => e = e'
  | .error defect, .error defect' => defect = defect'
  | _, _ => False

/-- Two starts that go as a third one go alike. -/
theorem SameStart.join {ρ σ τ : Type} {left : ρ → σ → Prop} {right : ρ → τ → Prop}
    {post : σ → τ → Prop} {x : Except Crash (Except Error ρ)}
    {y : Except Crash (Except Error σ)} {z : Except Crash (Except Error τ)}
    (hy : SameStart left x y) (hz : SameStart right x z)
    (hpost : ∀ r s t, left r s → right r t → post s t) : SameStart post y z := by
  match x, y, z with
  | .ok (.ok r), .ok (.ok s), .ok (.ok t) => exact hpost r s t hy hz
  | .ok (.error _), .ok (.error _), .ok (.error _) => exact hy.symm.trans hz
  | .error _, .error _, .error _ => exact hy.symm.trans hz
  | .ok (.ok _), .ok (.error _), _ | .ok (.ok _), .error _, _ | .ok (.error _), .ok (.ok _), _
  | .ok (.error _), .error _, _ | .error _, .ok _, _ => exact hy.elim
  | .ok (.ok _), .ok (.ok _), .ok (.error _) | .ok (.ok _), .ok (.ok _), .error _
  | .ok (.error _), .ok (.error _), .ok (.ok _) | .ok (.error _), .ok (.error _), .error _
  | .error _, .error _, .ok _ => exact hz.elim

namespace Sim

/-- What probing a chip comes to. -/
def Drive.start (chip : Chip) (flash : Flash) (hang : Bool) (setting : PowerOn) (poll : Poll) :
    Except Crash (Except Error Drive) := do
  discard chip.rowCycles
  return (Profile.identify chip.id setting poll).map fun profile =>
    ⟨profile, chip, flash, hang, ⟨0, 0⟩⟩

/-- Two devices that agree on everything that outlives a reset. -/
structure Device.Alike (device other : Device) : Prop where
  chip_eq : device.chip = other.chip
  /-- Contents, reference copies and failing blocks. -/
  flash_eq : device.flash = other.flash
  hang_eq : device.engine.hang = other.engine.hang

end Sim

namespace Controller

variable {device other : Device} {controller rival : Controller Device}

/-- A controller that has just come up is at rest, and what it amounts to depends on the chip, the
flash and the hang flag alone. -/
theorem sameStart_probe (h : device.engine.Stored) (setting : PowerOn) (config : Config) :
    SameStart (fun drive controller => controller.Rests ∧ controller.drive = drive)
      (Drive.start device.chip device.flash device.engine.hang setting config.poll)
      (probe setting config device) := by
  have hup := Device.follows_bringUp h setting config
  -- The two runs are compared crash by crash and outcome by outcome.
  match hcycles : device.chip.rowCycles, hrun : (bringUp setting config).run.run device with
  | .error defect, .error _ =>
    rw [hcycles, hrun] at hup
    simp only [Drive.start, probe, hcycles]
    rw [show (bringUp setting config).run device = _ from hrun]
    exact hup.symm
  -- A crash on one side only is what the two runs being the same excludes.
  | .ok _, .error _ | .error _, .ok _ =>
    rw [hcycles, hrun] at hup
    exact hup.elim
  | .ok _, .ok (outcome, next) =>
    rw [hcycles, hrun] at hup
    obtain ⟨rfl, hchip, hflash, hhang, hrest⟩ := hup
    rw [probe_of_run_bringUp hrun]
    simp only [Drive.start, hcycles]
    cases hidentify : Profile.identify device.chip.id setting config.poll with
    | error e => exact rfl
    | ok profile =>
      have hsettled := (Profile.settled_of_identify hidentify).1
      have hsize : (start profile next).staging.bytes.size = profile.geometry.spareSize :=
        Bytes.size_erased _
      refine ⟨⟨hsettled, rfl, hsize, hrest profile hidentify⟩, ?_⟩
      simp only [drive, start, hchip, hflash, hhang]

/-- Two controllers that amount to the same drive go through every session alike. -/
theorem sameEnd_of_drive_eq (h : controller.Rests) (hrival : rival.Rests)
    (hdrive : controller.drive = rival.drive) (events : List Event) :
    SameEnd (fun _ s t => s.channel.bus.Alike t.channel.bus)
      ((events.mapM play).run controller) ((events.mapM play).run rival) := by
  have hright := follows_playAll hrival events
  rw [← hdrive] at hright
  refine (follows_playAll h events).sameEnd hright fun result replies replies' s t hs ht => ?_
  obtain ⟨rfl, -, hend⟩ := hs
  obtain ⟨rfl, -, hend'⟩ := ht
  have heq : s.drive = t.drive := hend.trans hend'.symm
  exact ⟨rfl, congrArg Drive.chip heq, congrArg Drive.flash heq, congrArg Drive.hang heq⟩

/-- The past of a device does not matter. Probing two devices that agree on what outlives a reset
comes to the same crash, the same error, or two controllers on which every session goes alike,
step by step: the same outcomes, buffers and statistics, or the same crash, and afterwards the
same flash and reference copies. -/
theorem past_does_not_matter (hdevice : device.Reachable) (hother : other.Reachable)
    (halike : device.Alike other) (setting : PowerOn) (config : Config) :
    SameStart (fun controller rival => ∀ events : List Event,
        SameEnd (fun _ s t => s.channel.bus.Alike t.channel.bus)
          ((events.mapM play).run controller) ((events.mapM play).run rival))
      (probe setting config device) (probe setting config other) := by
  have hright := sameStart_probe hother.stored setting config
  rw [← halike.chip_eq, ← halike.flash_eq, ← halike.hang_eq] at hright
  refine (sameStart_probe hdevice.stored setting config).join hright ?_
  rintro drive controller rival ⟨hrests, rfl⟩ ⟨hrests', hdrive⟩ events
  exact sameEnd_of_drive_eq hrests hrests' hdrive.symm events

/-- A fresh device, and one that has been left with a read started, address bytes half sent and a
program pending, are driven alike. -/
theorem half_finished_past_does_not_matter :
    ∃ fresh used : Device, fresh.Reachable ∧ used.Reachable ∧ fresh.Alike used ∧
      fresh.latches ≠ used.latches ∧ fresh.engine.transfer ≠ used.engine.transfer ∧
      SameStart (fun controller rival => ∀ events : List Event,
          SameEnd (fun _ s t => s.channel.bus.Alike t.channel.bus)
            ((events.mapM play).run controller) ((events.mapM play).run rival))
        (probe ⟨0xC000⟩ ⟨Bits.defaultTiming, ⟨some 20⟩⟩ fresh)
        (probe ⟨0xC000⟩ ⟨Bits.defaultTiming, ⟨some 20⟩⟩ used) := by
  obtain ⟨fresh, hfresh⟩ : ∃ fresh, Device.new Chip.k9f1g08 = .ok fresh := ⟨_, rfl⟩
  obtain ⟨opened, hopened⟩ :
      ∃ next, (Bus.write32 Register.command 0x80).run fresh = .ok ((), next) := ⟨_, rfl⟩
  obtain ⟨halfSent, hhalfSent⟩ :
      ∃ next, (Bus.write32 Register.address 0x05).run opened = .ok ((), next) := by
    cases hfresh
    cases hopened
    exact ⟨_, rfl⟩
  obtain ⟨used, hused⟩ :
      ∃ next, (Bus.write32 Register.control Bits.startRead).run halfSent = .ok ((), next) :=
    ⟨_, rfl⟩
  have hreachable : fresh.Reachable := .new hfresh
  have hreachable' : used.Reachable :=
    ((hreachable.step (.write32 hopened)).step (.write32 hhalfSent)).step (.write32 hused)
  have hdiffer : fresh.Alike used ∧ fresh.latches ≠ used.latches ∧
      fresh.engine.transfer ≠ used.engine.transfer := by
    cases hfresh
    cases hopened
    cases hhalfSent
    cases hused
    refine ⟨⟨rfl, rfl, rfl⟩, ?_, ?_⟩
    · exact fun h => nomatch congrArg Latches.phase h
    · exact fun h => nomatch h
  obtain ⟨halike, hlatches, htransfer⟩ := hdiffer
  exact ⟨fresh, used, hreachable, hreachable', halike, hlatches, htransfer,
    past_does_not_matter hreachable hreachable' halike _ _⟩

end Controller

end NandFlash
