import NandFlash.Proofs.Sim.Blocks
import NandFlash.Proofs.Sim.References
import NandFlash.Proofs.Sim.Tracing

/-!
# Reads of clean pages

The ECC stage reports damage, and nothing but damage: a page into which nothing was injected since
it was last programmed is read without a report, whatever else has been done to the device, and
however often the page has been written, erased and loaded before.
-/

namespace NandFlash

namespace Sim.Drive

variable {drive : Drive} {page : Nat} {data spare : Bytes}

/-- A read of an undamaged page either waits in vain or has nothing to report. -/
theorem Genuine.perform_undamaged (h : drive.Genuine)
    (hundamaged : drive.flash.reference page = none ∨
      drive.flash.reference page = some (drive.flash.content page))
    (hpage : page < drive.chip.pageCount) (data spare : Bytes) :
    drive.perform (.readPage page data spare) =
      if drive.hang = true then
        (drive.profile.poll.exhaust .transferIn).map fun e =>
          ((.error e, data, drive.spareOf page), drive)
      else .ok ((.ok (.repaired []),
        data.overlay 0 ((drive.flash.content page).extract 0 drive.geometry.pageBytes),
        drive.spareOf page), drive) := by
  simp only [perform, h.rowAt_eq .read hpage, Device.readOutcome,
    Engine.damage_of_undamaged drive.geometry hundamaged, bind, Except.bind, pure, Except.pure]
  by_cases hhang : drive.hang = true
  · rw [if_pos hhang, if_pos hhang]
    cases drive.profile.poll.exhaust .transferIn <;> rfl
  · rw [if_neg hhang, if_neg hhang]
    rfl

theorem Genuine.serve_undamaged (h : drive.Genuine)
    (hundamaged : drive.flash.reference page = none ∨
      drive.flash.reference page = some (drive.flash.content page))
    (hvalid : (Request.readPage page data spare).Valid drive.geometry drive.chip.pageCount
      drive.chip.blocks) :
    drive.serve (.readPage page data spare) =
      if drive.hang = true then
        (drive.profile.poll.exhaust .transferIn).map fun e =>
          (⟨.error e, data, drive.spareOf page, drive.stats⟩, drive)
      else .ok (⟨.ok (.repaired []),
        data.overlay 0 ((drive.flash.content page).extract 0 drive.geometry.pageBytes),
        drive.spareOf page, drive.stats⟩, drive) := by
  rw [h.serve_eq hvalid, h.perform_undamaged hundamaged hvalid.1]
  by_cases hhang : drive.hang = true
  · rw [if_pos hhang, if_pos hhang]
    cases drive.profile.poll.exhaust .transferIn <;> rfl
  · rw [if_neg hhang, if_neg hhang]
    rfl

/-- The error of a wait in vain. -/
theorem eq_timeout_of_exhaust {poll : Poll} {awaited : Awaited} {e : Error}
    (h : poll.exhaust awaited = .ok e) : e = .timeout awaited := by
  unfold Poll.exhaust at h
  split at h
  · split at h
    · cases h
      rfl
    · cases h
  · cases h

/-- However the read of an undamaged page ends, nothing is reported, lost or counted. -/
theorem Genuine.clean_of_serve (h : drive.Genuine)
    (hundamaged : drive.flash.reference page = none ∨
      drive.flash.reference page = some (drive.flash.content page)) {reply : Reply} {next : Drive}
    (hserve : drive.serve (.readPage page data spare) = .ok (reply, next)) :
    (∀ reports, reply.outcome = .ok (.repaired reports) → reports = []) ∧
      (∀ lost field, reply.outcome ≠ .error (.uncorrectable lost field)) ∧
      reply.stats = drive.stats := by
  obtain ⟨refusal?, hrefusal, hperform⟩ := exists_of_bind_eq_ok hserve
  cases refusal? with
  | some e =>
    cases hperform
    refine ⟨fun _ h => (nomatch h), ?_, rfl⟩
    rintro _ _ ⟨⟩
    exact Request.isRefusal_of_refusal hrefusal
  | none =>
    have hvalid :=
      (Request.refusal?_eq_none_iff h.counted.pages_eq h.counted.blocks_eq _).1 hrefusal
    rw [h.serve_undamaged hundamaged hvalid] at hserve
    -- A device that hangs lets the read run out of time; otherwise nothing is found damaged.
    split at hserve
    · obtain ⟨e, hexhaust, heq⟩ := exists_of_map_eq_ok hserve
      cases heq
      cases eq_timeout_of_exhaust hexhaust
      exact ⟨fun _ h => (nomatch h), fun _ _ h => (nomatch h), rfl⟩
    · cases hserve
      refine ⟨fun reports h => ?_, fun _ _ h => (nomatch h), rfl⟩
      cases h
      rfl

end Sim.Drive

open Sim

/-! ## Sessions that leave a page alone -/

/-- Only an injection flips bits, and a session injects only what it says. -/
theorem Sim.Episode.flip_eq_zero {episode : Episode} {events : List Event} {page : Nat}
    (h : episode.IsOf events) (hnone : ∀ offset mask, .inject page offset mask ∉ events)
    (offset : Nat) : episode.flip page offset = 0 := by
  obtain ⟨device, incident, next⟩ := episode
  rcases h with ⟨access, haccess⟩ | ⟨event, hmem, hincident⟩
  · cases haccess
    rfl
  · cases event with
    | request => cases hincident
    | wearOut | setHang =>
      cases hincident
      rfl
    | inject row column mask =>
      cases hincident
      refine if_neg fun hflip => ?_
      rw [← hflip.1] at hmem
      exact hnone _ _ hmem

namespace Controller

variable {controller : Controller Device} {page : Nat}

/-- A page is read without a report, an error that cannot be corrected, or a count of either, and
the read goes through unless the device hangs. -/
structure ReadsClean (controller : Controller Device) (page : Nat) : Prop where
  clean : ∀ data spare reply next,
    (serve (.readPage page data spare)).run controller = .ok (reply, next) →
      (∀ reports, reply.outcome = .ok (.repaired reports) → reports = []) ∧
      (∀ lost field, reply.outcome ≠ .error (.uncorrectable lost field)) ∧
      reply.stats = controller.stats
  exists_read : controller.channel.bus.engine.hang = false → ∀ data spare,
    (Request.readPage page data spare).Valid controller.profile.geometry
      controller.channel.bus.chip.pageCount controller.channel.bus.chip.blocks →
    ∃ reply next, (serve (.readPage page data spare)).run controller = .ok (reply, next) ∧
      reply.outcome = .ok (.repaired [])

theorem Steady.readsClean (h : controller.Steady) (hchip : controller.drive.chip.Genuine)
    (hundamaged : controller.drive.flash.reference page = none ∨
      controller.drive.flash.reference page = some (controller.drive.flash.content page)) :
    controller.ReadsClean page where
  clean data spare reply next hrun := by
    obtain ⟨-, hserve⟩ := h.drive_serve hrun
    exact (h.genuine hchip).clean_of_serve hundamaged hserve
  exists_read hhang data spare hvalid := by
    have hserve := (h.genuine hchip).serve_undamaged hundamaged hvalid
    have hidle : ¬controller.drive.hang = true := Bool.eq_false_iff.1 hhang
    rw [if_neg hidle] at hserve
    obtain ⟨next, hrun, -, -⟩ := h.run_serve hserve
    exact ⟨_, next, hrun, rfl⟩

/-- The references of a device that can be reached are exact. A controller that comes up on it, on
a genuine chip, therefore reads a page without a report if nothing was injected into the page since
it was last programmed: neither before nor after the controller came up. -/
theorem references_are_exact {device : Device} (h : device.Reachable) :
    (∃ past, History past device) ∧ ∀ past, History past device →
      (∀ page, History.IsExact past device page) ∧
      ∀ setting config controller, device.chip.Genuine →
        probe setting config device = .ok (.ok controller) →
        ∀ events replies last, (events.mapM play).run controller = .ok (replies, last) →
          ∃ run, Run device run last.channel.bus ∧ (∀ episode ∈ run, episode.IsOf events) ∧
            (∀ page, History.IsClean page past →
              (∀ offset mask, .inject page offset mask ∉ events) →
                History.IsClean page (run ++ past)) ∧
            ∀ page, History.IsClean page (run ++ past) → last.ReadsClean page := by
  refine ⟨h.exists_history, fun past hpast => ⟨hpast.isExact, ?_⟩⟩
  intro setting config controller hchip hprobe events replies last hplay
  have hcome : ComesBy events device controller.channel.bus :=
    lasts_probe (lasts_comesBy events device) ⟨[], .nil, fun _ hmem => nomatch hmem⟩ hprobe
  obtain ⟨⟨run, hrun, hof⟩, hsteady⟩ := comesBy_playAll (steady_of_probe h hprobe).1 hcome
    (fun _ hmem => hmem) hplay
  refine ⟨run, hrun, hof, fun page hclean hnone => ?_, fun page hclean => ?_⟩
  · exact hclean.append fun episode hmem => Episode.flip_eq_zero (hof episode hmem) hnone
  · refine hsteady.readsClean ?_ (hclean.reference_eq (hpast.append hrun))
    have hchip_eq : last.channel.bus.chip = device.chip := hrun.chip_eq
    show last.channel.bus.chip.Genuine
    rw [hchip_eq]
    exact hchip

/-- On a fresh K9F1G08 a page that has been written is read without a report, although a bit of
another page has flipped. -/
theorem references_are_exact_written_page : ∃ (device : Device)
    (controller last : Controller Device) (replies : List (Option Reply)),
    Device.new Chip.k9f1g08 = .ok device ∧
    probe .unset ⟨Bits.defaultTiming, ⟨some 20⟩⟩ device = .ok (.ok controller) ∧
    (([.request (.writePage 0 (Bytes.filled 2048 0x5A) (Bytes.erased 64)), .inject 1 0 0x80] :
      List Event).mapM play).run controller = .ok (replies, last) ∧ last.ReadsClean 0 := by
  obtain ⟨device, hnew⟩ : ∃ device, Device.new Chip.k9f1g08 = .ok device := ⟨_, rfl⟩
  have hdevice : device.Reachable := .new hnew
  have hchip : device.chip = Chip.k9f1g08 := by cases hnew; rfl
  obtain ⟨controller, hprobe, hdrive⟩ : ∃ controller,
      probe .unset ⟨Bits.defaultTiming, ⟨some 20⟩⟩ device = .ok (.ok controller) ∧
        controller.drive = ⟨smallProfile ⟨some 20⟩, Chip.k9f1g08,
          FlashArray.blank.flash Chip.k9f1g08.rawLen, false, ⟨0, 0⟩⟩ := by
    cases hnew
    exact exists_probe hdevice rfl rfl
  have hsteady := (steady_of_probe hdevice hprobe).1
  have hgenuine := hsteady.genuine (by rw [hdrive]; exact Chip.genuine_k9f1g08)
  have hvalid : (Request.writePage 0 (Bytes.filled 2048 0x5A) (Bytes.erased 64)).Valid
      controller.drive.geometry controller.drive.chip.pageCount controller.drive.chip.blocks := by
    rw [hdrive]
    exact ⟨by decide, Bytes.size_filled _ _, Bytes.size_erased _⟩
  obtain ⟨reply, drive, hserve, -⟩ := hgenuine.exists_serve (by rw [hdrive]; decide)
    (by rw [hdrive]) hvalid
  obtain ⟨written, hwrite, -, -⟩ := hsteady.run_serve hserve
  obtain ⟨last, hplay⟩ : ∃ last, (([.request (.writePage 0 (Bytes.filled 2048 0x5A)
      (Bytes.erased 64)), .inject 1 0 0x80] : List Event).mapM play).run controller =
        .ok ([some reply, none], last) := by
    rw [List.mapM_cons, List.mapM_cons]
    exact ⟨_, run_step (run_step hwrite rfl) rfl⟩
  obtain ⟨run, -, -, hclean, hreads⟩ := ((references_are_exact hdevice).2 [] (.new hnew)).2
    _ _ _ (hchip ▸ Chip.genuine_k9f1g08) hprobe _ _ _ hplay
  refine ⟨device, controller, last, _, hnew, hprobe, hplay, hreads 0 (hclean 0 (.inl ?_) ?_)⟩
  · exact fun _ hmem => nomatch hmem
  · intro offset mask hmem
    simp at hmem

end Controller

end NandFlash
