import NandFlash.Proofs.Sim.History
import NandFlash.Proofs.Sim.Loading
import NandFlash.Proofs.Sim.Mirrors

/-!
# Reloading

An image holds the pages of a device and nothing else. The main statement is that nothing else is
missed: a device that is saved, loaded into a fresh one and driven from then on behaves like the
device that was never switched off, although the fresh one has lost every reference copy.
-/

namespace NandFlash

open Sim

/-! ## Coming up alike -/

namespace SameStart

variable {σ τ : Type} {post : σ → τ → Prop} {y : Except Crash (Except Error τ)}

theorem eq_error {e : Error} (h : SameStart post (.ok (.error e)) y) : y = .ok (.error e) := by
  match y with
  | .ok (.error _) => exact congrArg (fun e => Except.ok (Except.error e)) (Eq.symm h)
  | .ok (.ok _) | .error _ => exact h.elim

theorem exists_of_ok {s : σ} (h : SameStart post (.ok (.ok s)) y) :
    ∃ t, y = .ok (.ok t) ∧ post s t := by
  match y with
  | .ok (.ok t) => exact ⟨t, rfl, h⟩
  | .ok (.error _) | .error _ => exact h.elim

theorem mono {x : Except Crash (Except Error σ)} {weaker : σ → τ → Prop}
    (h : SameStart post x y) (hpost : ∀ s t, post s t → weaker s t) : SameStart weaker x y := by
  match x, y with
  | .ok (.ok s), .ok (.ok t) => exact hpost s t h
  | .ok (.error _), .ok (.error _) | .error _, .error _ => exact h
  | .ok (.ok _), .ok (.error _) | .ok (.ok _), .error _ | .ok (.error _), .ok (.ok _)
  | .ok (.error _), .error _ | .error _, .ok _ => exact h.elim

end SameStart

/-- A device keeps the kind of chip that it was powered with. -/
theorem Sim.History.exists_new {past : List Episode} {device : Device} (h : History past device) :
    ∃ fresh, Device.new device.chip = .ok fresh ∧ fresh.chip = device.chip ∧
      fresh.array.failing = ∅ := by
  induction h with
  | @new chip device h =>
    obtain ⟨rawLen, hraw, hnew⟩ := exists_of_bind_eq_ok h
    cases hnew
    exact ⟨_, h, rfl, rfl⟩
  | next _ incident hrun ih => rwa [Incident.chip_eq hrun]

/-- A device that has loaded the pages of another one mirrors it when it has taken over the rest. -/
theorem Sim.Device.mirrors_takeOver {device loaded : Device}
    (hsound : loaded.array.failing = ∅) (hnone : ∀ page : Nat, loaded.array.reference[page]? = none)
    (hcontent : ∀ page < device.chip.pageCount, loaded.rawPage page = device.rawPage page)
    (hundamaged : ∀ (page : Nat) content, device.array.reference[page]? = some content →
      device.rawPage page = content) :
    Flash.Mirrors device.chip.pageCount device.flash (loaded.takeOver device).flash := by
  refine ⟨isFailing_takeOver hsound, fun page hpage => ?_, fun page _ => ?_, fun page _ => .inl ?_⟩
  · rw [takeOver_eq]
    exact hcontent page hpage
  · cases hreference : device.array.reference[page]? with
    | none => exact .inl hreference
    | some content =>
      refine .inr (hreference.trans (congrArg some ?_))
      exact (hundamaged page content hreference).symm
  · rw [takeOver_eq]
    exact hnone page

namespace Controller

variable {device other : Device}

/-- Controllers that come up on devices with the same pages mirror each other, if no page differs
from a reference that it has. -/
theorem sameStart_mirrors (hdevice : device.Reachable) (hother : other.Reachable)
    (hgenuine : device.chip.Genuine) (hchip : other.chip = device.chip)
    (hhang : other.engine.hang = device.engine.hang)
    (hflash : Flash.Mirrors device.chip.pageCount device.flash other.flash) (setting : PowerOn)
    (config : Config) :
    SameStart (Mirrors device.chip) (probe setting config device) (probe setting config other) := by
  obtain ⟨info, hdecode, -⟩ := hgenuine.decodes
  have hcycles := (hgenuine.counted hdecode).rowCycles_eq
  -- Identification looks at the chip alone, and so it goes alike on both.
  cases hidentify : Profile.identify device.chip.id setting config.poll with
  | error e =>
    have hstart : ∀ flash hang,
        Drive.start device.chip flash hang setting config.poll = .ok (.error e) := by
      intro flash hang
      rw [Drive.start, hcycles, hidentify]
      rfl
    have hleft := sameStart_probe hdevice.stored setting config
    have hright := sameStart_probe hother.stored setting config
    rw [hstart] at hleft
    rw [hchip, hstart] at hright
    rw [hleft.eq_error, hright.eq_error]
    exact rfl
  | ok profile =>
    rw [← hchip] at hcycles hidentify
    obtain ⟨rival, hrival, hrivalDrive⟩ := exists_probe hother hcycles hidentify
    rw [hchip] at hcycles hidentify
    obtain ⟨controller, hprobe, hdrive⟩ := exists_probe hdevice hcycles hidentify
    rw [hprobe, hrival]
    refine ⟨(steady_of_probe hdevice hprobe).1, (steady_of_probe hother hrival).1, ?_, ?_⟩
    · rw [hdrive]
    · rw [hdrive, hrivalDrive, hchip, hhang]
      exact .on hflash

/-! ## The property -/

/-- Two controllers that behave alike: they have found out the same, and any operations come to the
same on both, one after the other, or end in the same crash, and leave the same raw pages. -/
structure Matches (controller rival : Controller Device) : Prop where
  profile_eq : rival.profile = controller.profile
  stats_eq : rival.stats = controller.stats
  sameEnd : ∀ operations : List Operation,
    SameEnd (fun _ s t => ∀ page < controller.channel.bus.chip.pageCount,
        t.channel.bus.rawPage page = s.channel.bus.rawPage page)
      ((operations.mapM carryOut).run controller) ((operations.mapM carryOut).run rival)

/-- Mirrors on a genuine chip behave alike. -/
theorem Mirrors.matches {controller rival : Controller Device} {chip : Chip} (hchip : chip.Genuine)
    (h : Mirrors chip controller rival) : controller.Matches rival := by
  refine ⟨h.drive.profile_eq, h.drive.stats_eq, fun operations => ?_⟩
  rcases (unison_mirrors hchip).carryOutAll operations controller rival h with
    ⟨findings, last, rivalLast, hrun, hrun', hlast, -⟩ | ⟨defect, -, hrun, hrun'⟩
  · rw [hrun, hrun']
    have hcount : controller.channel.bus.chip = last.channel.bus.chip :=
      h.chip_eq.trans hlast.chip_eq.symm
    rw [hcount]
    exact ⟨rfl, hlast.drive.flash.content_eq⟩
  · rw [hrun, hrun']
    exact rfl

/-- A device that is saved and loaded behaves like the one that it was. If no page of a device on a
genuine chip differs from its reference, the device can be saved to any sink with room enough, and
the saved image can be loaded into a fresh device of the same kind. With the power-on words, the
failing blocks and the hang flag taken over the two cannot be told apart: probing goes alike on
both, and so does everything that is done through the controllers then, although the loaded device
has no reference at all. -/
theorem survives_saving (h : device.Reachable) (hchip : device.chip.Genuine)
    (hundamaged : ∀ (page : Nat) content, device.array.reference[page]? = some content →
      device.rawPage page = content) :
    ∃ image : Bytes,
      (∀ sink : Sink, sink.HasRoom image.size →
        device.save sink = .ok (.ok (), ⟨sink.written ++ image, sink.limit⟩)) ∧
      ∃ fresh, Device.new device.chip = .ok fresh ∧
        ∀ source : Source, source.Lasts → source.rest = image →
          ∃ loaded rest, fresh.load source = .ok (.ok (), loaded, rest) ∧
            (∀ page : Nat, (loaded.takeOver device).array.reference[page]? = none) ∧
            ∀ setting config, SameStart Matches (probe setting config device)
              (probe setting config (loaded.takeOver device)) := by
  obtain ⟨info, hdecode, -⟩ := hchip.decodes
  have hpages := (hchip.counted hdecode).chip_pages_eq
  obtain ⟨past, hpast⟩ := h.exists_history
  obtain ⟨fresh, hnew, hfresh, hsound⟩ := hpast.exists_new
  refine ⟨device.image, fun sink hroom => Device.save_eq hpages hroom, fresh, hnew,
    fun source hlasts hrest => ?_⟩
  obtain ⟨loaded, rest, hload, hkind, hfailing, hnone, hcontent⟩ :=
    Device.load_image h.isWhole.flash hpages hfresh hlasts hrest
  -- The cells are the same, and so are the references, but for those of undamaged pages.
  have hflash : Flash.Mirrors device.chip.pageCount device.flash (loaded.takeOver device).flash :=
    Device.mirrors_takeOver (hfailing.trans hsound) hnone hcontent hundamaged
  have hreachable : (loaded.takeOver device).Reachable :=
    ((Device.Reachable.new hnew).step (.load hload)).takeOver
  refine ⟨loaded, rest, hload, fun page => ?_, fun setting config => ?_⟩
  · rw [Device.takeOver_eq]
    exact hnone page
  · have hsame := sameStart_mirrors h hreachable hchip (by rw [Device.takeOver_eq, hkind])
      (by rw [Device.takeOver_eq]) hflash setting config
    exact hsame.mono fun _ _ hmirrors => hmirrors.matches hchip

/-- A K9F1G08 whose first page has been written, and which has nothing else on it. -/
theorem exists_written : ∃ device : Device, device.Reachable ∧ device.chip = Chip.k9f1g08 ∧
    ∃ buffer, device.flash =
      (FlashArray.blank.flash Chip.k9f1g08.rawLen).program 0 buffer true := by
  obtain ⟨controller, hinUse, hdrive⟩ := exists_inUse ⟨some 20⟩
  have hgenuine := hinUse.steady.genuine (by rw [hdrive]; exact Chip.genuine_k9f1g08)
  have hvalid : (Request.writePage 0 (Bytes.filled 2048 0x5A) (Bytes.erased 64)).Valid
      controller.drive.geometry controller.drive.chip.pageCount controller.drive.chip.blocks := by
    rw [hdrive]
    exact ⟨by decide, Bytes.size_filled _ _, Bytes.size_erased _⟩
  obtain ⟨reply, drive, hserve, -, -, heffect⟩ := hgenuine.exists_serve
    (by rw [hdrive]; decide) (by rw [hdrive]) hvalid
  obtain ⟨written, hwrite, -, hwritten⟩ := hinUse.steady.run_serve hserve
  have hplay : (play (.request _)).run controller = .ok (some reply, written) :=
    run_step hwrite rfl
  have hchip := (Drive.keeps_of_serve hserve).chip_eq
  rw [← hwritten, hdrive] at hchip heffect
  exact ⟨written.channel.bus, (hinUse.played hplay).reachable, hchip, _, heffect⟩

/-- A page that has been written has a reference. When the device is saved and loaded the reference
is lost, and nothing else. -/
theorem survives_saving_written_page : ∃ (device fresh loaded : Device) (image : Bytes)
    (rest : Source) (controller rival : Controller Device),
    (device.Reachable ∧ device.chip.Genuine ∧
      (∀ (page : Nat) content, device.array.reference[page]? = some content →
        device.rawPage page = content)) ∧
    device.array.reference[0]? = some (device.rawPage 0) ∧
    device.save (.unlimited 0) = .ok (.ok (), ⟨image, none⟩) ∧
    Device.new device.chip = .ok fresh ∧
    fresh.load (.ofBytes image) = .ok (.ok (), loaded, rest) ∧
    (loaded.takeOver device).array.reference[0]? = none ∧
    probe .unset ⟨Bits.defaultTiming, ⟨some 20⟩⟩ device = .ok (.ok controller) ∧
    probe .unset ⟨Bits.defaultTiming, ⟨some 20⟩⟩ (loaded.takeOver device) = .ok (.ok rival) ∧
    controller.Matches rival := by
  obtain ⟨device, hreachable, hchip, buffer, hflash⟩ := exists_written
  have hkind : device.chip.Genuine := hchip ▸ Chip.genuine_k9f1g08
  have hundamaged : ∀ (page : Nat) content, device.array.reference[page]? = some content →
      device.rawPage page = content := by
    intro page content hreference
    have hpage : device.flash.Undamaged (page + 1) := by
      rw [hflash]
      exact Flash.Undamaged.program (fun _ _ => .inl Std.ExtTreeMap.getElem?_empty) 0 buffer true
    rcases hpage page (Nat.lt_succ_self page) with hnone | hsome
    · cases hnone.symm.trans hreference
    · exact Option.some.inj (hsome.symm.trans hreference)
  have hcovered : device.flash.reference 0 = some (device.flash.content 0) := by
    rw [hflash]
    simp only [Flash.program, Function.update_self, if_true]
  obtain ⟨image, hsave, fresh, hnew, hreload⟩ := survives_saving hreachable hkind hundamaged
  obtain ⟨loaded, rest, hload, hnone, hsame⟩ :=
    hreload (.ofBytes image) (Source.lasts_ofBytes image) (Source.rest_ofBytes image)
  obtain ⟨controller, hprobe, -⟩ : ∃ controller,
      probe .unset ⟨Bits.defaultTiming, ⟨some 20⟩⟩ device = .ok (.ok controller) ∧
        controller.drive = ⟨smallProfile ⟨some 20⟩, _, _, _, ⟨0, 0⟩⟩ :=
    exists_probe hreachable (by rw [hchip]; rfl) (by rw [hchip]; rfl)
  have hstart := hsame .unset ⟨Bits.defaultTiming, ⟨some 20⟩⟩
  rw [hprobe] at hstart
  obtain ⟨rival, hrival, hmatches⟩ := hstart.exists_of_ok
  have hroom : (Sink.unlimited 0).HasRoom image.size := by
    rintro _ ⟨⟩
  have hsaved := hsave (.unlimited 0) hroom
  rw [show (Sink.unlimited 0).written = #[] from rfl, Array.empty_append] at hsaved
  exact ⟨device, fresh, loaded, image, rest, controller, rival, ⟨hreachable, hkind, hundamaged⟩,
    hcovered, hsaved, hnew, hload, hnone 0, hprobe, hrival, hmatches⟩

end Controller

end NandFlash
