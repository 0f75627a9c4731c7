import NandFlash.Proofs.Sim.Planning

/-!
# Correction repairs everything or nothing

If some reported field is lost, correction leaves buffer and device as they are. Otherwise it xors
the listed values onto the listed bytes and does nothing else. Xor undoes itself, so the reports
are a complete record: xored again, they give back what was there before.
-/

namespace NandFlash

namespace Correction

/-! ## Repairs as xor -/

/-- The buffer that repairs at a place are made in. -/
def buffer (page : Bytes × Bytes) : Place → Bytes
  | .data => page.1
  | .window => page.2

/-- All that some repairs xor onto a byte. -/
def xorOn (location : Location) : List Correction → UInt8
  | [] => 0
  | c :: corrections =>
    if c.location = location then c.value ^^^ xorOn location corrections
    else xorOn location corrections

/-- Some bytes are others with repairs xored on, and nothing else has changed. -/
def Xored (corrections : List Correction) (page fixed : Bytes × Bytes) : Prop :=
  ∀ place i, (buffer fixed place)[i]? =
    (buffer page place)[i]?.map (· ^^^ xorOn ⟨place, i⟩ corrections)

variable {page fixed : Bytes × Bytes} {corrections : List Correction}

theorem getElem?_buffer_mend (page : Bytes × Bytes) (c : Correction) (place : Place) (i : Nat) :
    (buffer (mend page c) place)[i]? =
      if c.location = ⟨place, i⟩ then (buffer page place)[i]?.map (· ^^^ c.value)
      else (buffer page place)[i]? := by
  obtain ⟨⟨other, offset⟩, value⟩ := c
  cases place <;> cases other <;>
    simp only [mend, buffer, Array.getElem?_modify, Location.mk.injEq, reduceCtorEq, true_and,
      false_and, if_false]

/-- Repairs one after the other add up, also where they overlap. -/
theorem xored_foldl_mend (corrections : List Correction) (page : Bytes × Bytes) :
    Xored corrections page (corrections.foldl mend page) := by
  induction corrections generalizing page with
  | nil =>
    intro place i
    simp only [List.foldl_nil, xorOn, UInt8.xor_zero, Option.map_id_fun', id_eq]
  | cons c corrections ih =>
    intro place i
    rw [List.foldl_cons, ih, getElem?_buffer_mend, xorOn]
    split
    · rw [Option.map_map]
      congr 1
      funext byte
      exact UInt8.xor_assoc _ _ _
    · rfl

theorem Xored.symm (h : Xored corrections page fixed) : Xored corrections fixed page := by
  intro place i
  rw [h place i, Option.map_map]
  cases (buffer page place)[i]? with
  | none => rfl
  | some byte =>
    simp only [Option.map_some, Function.comp, UInt8.xor_assoc, UInt8.xor_self, UInt8.xor_zero]

theorem Xored.size_fst (h : Xored corrections page fixed) : fixed.1.size = page.1.size := by
  -- A size is known by the places beyond it, where there is no byte.
  have hsize (i : Nat) : fixed.1.size ≤ i ↔ page.1.size ≤ i := by
    rw [← Array.getElem?_eq_none_iff, ← Array.getElem?_eq_none_iff]
    exact (h .data i).symm ▸ Option.map_eq_none_iff
  exact Nat.le_antisymm ((hsize _).2 (Nat.le_refl _)) ((hsize _).1 (Nat.le_refl _))

theorem Xored.unique {other : Bytes × Bytes} (h : Xored corrections page fixed)
    (hother : Xored corrections page other) : fixed = other :=
  Prod.ext (Array.ext_getElem? fun i => (h .data i).trans (hother .data i).symm)
    (Array.ext_getElem? fun i => (h .window i).trans (hother .window i).symm)

end Correction

namespace Sim

open Ecc Correction

variable {device : Device} {g : Geometry} {data : Bytes} {field : Nat}

/-! ## Correction -/

namespace Engine

/-- All repairs that the registers ask for, in the order of the fields. -/
def correctionsOf (engine : Engine) (g : Geometry) : List Correction :=
  (engine.reportsOf g).flatMap (·.corrections)

variable {engine : Engine}

theorem repairable_setWindow {window : Window} {dataLen count : Nat} :
    { engine with window }.Repairable g dataLen field count ↔
      engine.Repairable g dataLen field count :=
  ⟨fun h => ⟨h.count_le, h.parityBytes_le, h.inCodeword, h.within⟩,
    fun h => ⟨h.count_le, h.parityBytes_le, h.inCodeword, h.within⟩⟩

/-- Whether a field is lost does not depend on the window. -/
theorem lost_setWindow {window : Window} {dataLen : Nat} :
    { engine with window }.Lost g dataLen field ↔ engine.Lost g dataLen field := by
  show _ ∧ _ ∧ { engine with window }.Hopeless g dataLen field (engine.fieldStatus field) ↔
    _ ∧ _ ∧ engine.Hopeless g dataLen field (engine.fieldStatus field)
  cases engine.fieldStatus field with
  | clean | uncorrectable => rfl
  | correctable count =>
    exact and_congr Iff.rfl (and_congr Iff.rfl (not_congr repairable_setWindow))

theorem repairable_of_not_lost {dataLen count : Nat} (h : ¬engine.Lost g dataLen field)
    (hpos : 1 ≤ field) (hle : field ≤ g.fieldCount)
    (hstatus : engine.fieldStatus field = .correctable count) :
    engine.Repairable g dataLen field count := by
  rw [Lost, hstatus] at h
  exact not_not.1 fun hnot => h ⟨hpos, hle, hnot⟩

/-- What is repaired lies within the buffers. -/
theorem within_of_mem_correctionsOf {dataLen : Nat}
    (h : ∀ field, ¬engine.Lost g dataLen field) {c : Correction}
    (hc : c ∈ engine.correctionsOf g) : c.Within dataLen engine.spareLen := by
  obtain ⟨report, hreport, hc⟩ := List.mem_flatMap.1 hc
  obtain ⟨index, hindex, hreported⟩ := List.mem_filterMap.1 hreport
  cases hstatus : engine.fieldStatus (index + 1) with
  | clean | uncorrectable => simp only [hstatus] at hreported; cases hreported
  | correctable count =>
    simp only [hstatus, Option.some.injEq] at hreported
    subst hreported
    have hpos : 1 ≤ index + 1 := Nat.succ_le_succ (Nat.zero_le _)
    have hrepairable :=
      repairable_of_not_lost (h (index + 1)) hpos (List.mem_range.1 hindex) hstatus
    obtain ⟨k, hk, rfl⟩ := List.mem_map.1 hc
    exact (hrepairable.planned hpos (List.mem_range.1 hk)).2

end Engine

namespace Device

theorem front_windowLen (window : Window) : window.front windowLen = window.toArray :=
  Array.extract_eq_self_of_le (Nat.le_of_eq window.size_toArray)

theorem run_correct_of_lost (h : device.engine.Lost g data.size field)
    (hlowest : ∀ other < field, ¬device.engine.Lost g data.size other) :
    (correct g data).run.run device = .ok (.error ⟨field⟩, device) :=
  run_attempt_bind_error (run_plan_of_lost h hlowest)

theorem run_correct_of_not_lost (hspare : device.engine.spareLen ≤ windowLen)
    (h : ∀ field, ¬device.engine.Lost g data.size field) : ∃ fixed window,
    (correct g data).run.run device =
        .ok (.ok (device.engine.reportsOf g, fixed), device.setWindow window) ∧
      Xored (device.engine.correctionsOf g) (data, device.engine.window.toArray)
        (fixed, window.toArray) := by
  have hwithin : ∀ c ∈ device.engine.correctionsOf g, c.Within data.size windowLen := by
    intro c hc
    have hlt := Engine.within_of_mem_correctionsOf h hc
    unfold Correction.Within at hlt ⊢
    split at hlt
    · exact hlt
    · exact Nat.lt_of_lt_of_le hlt hspare
  -- The whole window is followed, not just its front, to see that the rest of it stays.
  obtain ⟨window, hrun, hfront⟩ := run_corrections device data hwithin (Nat.le_refl _)
  refine ⟨_, window, run_attempt_step (run_plan_of_not_lost h)
    (run_attempt_step (run_perform hrun) rfl), ?_⟩
  rw [← front_windowLen window, hfront, front_windowLen]
  exact xored_foldl_mend _ _

/-- The registers that correction goes by are not changed by it, so that the same repairs are made
again and give back what was there before. -/
theorem run_correct_again (hspare : device.engine.spareLen ≤ windowLen)
    (h : ∀ field, ¬device.engine.Lost g data.size field) {fixed : Bytes} {window : Window}
    (hxored : Xored (device.engine.correctionsOf g) (data, device.engine.window.toArray)
      (fixed, window.toArray)) :
    (correct g fixed).run.run (device.setWindow window) =
      .ok (.ok (device.engine.reportsOf g, data), device) := by
  have hsize : fixed.size = data.size := hxored.size_fst
  have hsame : ∀ field, ¬(device.setWindow window).engine.Lost g fixed.size field := by
    rw [hsize]
    exact fun field => mt Engine.lost_setWindow.1 (h field)
  have hsize' : (device.setWindow window).engine.spareLen ≤ windowLen := hspare
  obtain ⟨again, other, hrun, hagain⟩ := run_correct_of_not_lost hsize' hsame
  -- The second run xors the same values on, and so does going back.
  have hback := hagain.unique hxored.symm
  obtain rfl : again = data := congrArg Prod.fst hback
  obtain rfl : other = device.engine.window := Vector.toArray_inj.1 (congrArg Prod.snd hback)
  exact hrun

/-- Correction repairs every reported field of a page, or, if there is one that cannot be repaired,
gives up at the lowest of these and changes neither the buffer nor the device. Repairs are xored on
as the registers list them and nothing else changes, so that the reports tell how to undo them, and
a second correction by the same registers does just that. -/
theorem correct_all_or_nothing (device : Device) (g : Geometry) (data : Bytes)
    (hspare : device.engine.spareLen ≤ 472) :
    ((∃ field, device.engine.Lost g data.size field) →
      ∃ field, device.engine.Lost g data.size field ∧
        (∀ other < field, ¬device.engine.Lost g data.size other) ∧
        (correct g data).run.run device = .ok (.error ⟨field⟩, device) ∧
        ∀ state stats reports,
          (Reading.correctFields g).run ⟨⟨state, device⟩, data, stats, reports⟩ =
            .ok (.error ⟨field⟩, ⟨⟨state, device⟩, data, stats, reports⟩)) ∧
    ((∀ field, ¬device.engine.Lost g data.size field) →
      (∀ field count, 1 ≤ field → field ≤ g.fieldCount →
        device.engine.fieldStatus field = .correctable count → ∀ k < count,
          device.engine.errorLocation? g field k =
            some (device.engine.repairAt g field k).location) ∧
      ∃ fixed window,
        (correct g data).run.run device =
          .ok (.ok (device.engine.reportsOf g, fixed), device.setWindow window) ∧
        Xored (device.engine.correctionsOf g) (data, device.engine.window.toArray)
          (fixed, window.toArray) ∧
        Xored (device.engine.correctionsOf g) (fixed, window.toArray)
          (data, device.engine.window.toArray) ∧
        (correct g fixed).run.run (device.setWindow window) =
          .ok (.ok (device.engine.reportsOf g, data), device)) := by
  refine ⟨fun hlost => ?_, fun h => ⟨fun field count hpos hle hstatus k hk => ?_, ?_⟩⟩
  · obtain ⟨field, hfield, hlowest⟩ := exists_first hlost
    have hrun := run_correct_of_lost hfield hlowest
    refine ⟨field, hfield, hlowest, hrun, fun state stats reports => ?_⟩
    rw [Reading.run_correctFields, hrun]
  · have hrepairable := Engine.repairable_of_not_lost (h field) hpos hle hstatus
    exact (hrepairable.planned hpos hk).1
  · obtain ⟨fixed, window, hrun, hxored⟩ := run_correct_of_not_lost hspare h
    exact ⟨fixed, window, hrun, hxored, hxored.symm, run_correct_again hspare h hxored⟩

/-- A device that reports the same two errors in the first two fields of a page of 2048 bytes, in
the metadata and in the parity of each. A metadata byte of the second field is also a parity byte
of the first. -/
def overlapping : Device where
  chip := .k9f1g08
  array := .blank
  latches := .idle 2112
  engine := ((Engine.idle.setRegister Register.spareSize 64).present 2 (.correctable 2)
    [(512, 0x10), (540, 0x01)]).setFieldStatus 1 (.correctable 2)
  powerOn := ⟨0, unsetPins⟩
  log := ⟨#[], #[]⟩

/-- Both repairs of the shared byte are made, one on top of the other. If the last field is lost,
none is made. -/
theorem correct_overlapping :
    let g : Geometry := ⟨.p2048, 64, .t8, rfl⟩
    let data := Bytes.erased 2048
    overlapping.engine.spareLen ≤ 472 ∧ (∀ field, ¬overlapping.engine.Lost g 2048 field) ∧
    (∃ fixed window, (correct g data).run.run overlapping =
        .ok (.ok ([⟨1, 2, [⟨⟨.window, 0⟩, 0x10⟩, ⟨⟨.window, 15⟩, 0x01⟩]⟩,
          ⟨2, 2, [⟨⟨.window, 15⟩, 0x10⟩, ⟨⟨.window, 30⟩, 0x01⟩]⟩], fixed),
          overlapping.setWindow window) ∧
      window.toArray[15]? = some (0xFF ^^^ 0x11) ∧
      (correct g fixed).run.run (overlapping.setWindow window) =
        .ok (.ok (overlapping.engine.reportsOf g, data), overlapping)) ∧
    let lost := overlapping.modifyEngine (·.setFieldStatus 4 .uncorrectable)
    lost.engine.Lost g 2048 4 ∧ (correct g data).run.run lost = .ok (.error ⟨4⟩, lost) := by
  intro g data
  have hsize : data.size = 2048 := Bytes.size_erased 2048
  have hspare : overlapping.engine.spareLen ≤ 472 := by decide +kernel
  have hfew : ∀ field ≤ 4, ¬overlapping.engine.Lost g 2048 field := by decide +kernel
  have hnone : ∀ field, ¬overlapping.engine.Lost g 2048 field := fun field h =>
    hfew field (Nat.le_trans h.2.1 (by decide)) h
  refine ⟨hspare, hnone, ?_, ?_⟩
  · obtain ⟨-, fixed, window, hrun, hxored, -, hagain⟩ :=
      (correct_all_or_nothing overlapping g data hspare).2 (by rw [hsize]; exact hnone)
    refine ⟨fixed, window, ?_, ?_, hagain⟩
    · have hreports : overlapping.engine.reportsOf g =
          [⟨1, 2, [⟨⟨.window, 0⟩, 0x10⟩, ⟨⟨.window, 15⟩, 0x01⟩]⟩,
            ⟨2, 2, [⟨⟨.window, 15⟩, 0x10⟩, ⟨⟨.window, 30⟩, 0x01⟩]⟩] := by decide +kernel
      rw [hrun, hreports]
    · -- Both fields correct byte 15 of the window, and their masks add up.
      have hbefore : overlapping.engine.window.toArray[15]? = some 0xFF := by decide +kernel
      have hxor : xorOn ⟨.window, 15⟩ (overlapping.engine.correctionsOf g) = 0x11 := by
        decide +kernel
      have hbyte := hxored .window 15
      rw [hxor] at hbyte
      exact hbyte.trans (congrArg (Option.map _) hbefore)
  · intro lost
    have hlost : lost.engine.Lost g 2048 4 := by decide +kernel
    have hlower : ∀ field < 4, ¬lost.engine.Lost g 2048 field := by decide +kernel
    obtain ⟨field, hfield, hlowest, hrun, -⟩ :=
      (correct_all_or_nothing lost g data (by decide +kernel)).1 ⟨4, by rw [hsize]; exact hlost⟩
    rw [hsize] at hfield hlowest
    have heq : field = 4 := by
      rcases Nat.lt_trichotomy field 4 with hlt | heq | hgt
      · exact absurd hfield (hlower field hlt)
      · exact heq
      · exact absurd hlost (hlowest 4 hgt)
    exact ⟨hlost, heq ▸ hrun⟩

end Device

end Sim

end NandFlash
