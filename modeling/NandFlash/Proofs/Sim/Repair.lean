import NandFlash.Proofs.Sim.Syndrome
import NandFlash.Proofs.Sim.Window

/-!
# Repairs on the simulated device

Repairs go to the page buffer and to the window. What they make of the two is a plain function of
the buffer and the front of the window.
-/

namespace NandFlash

/-- Make a repair in a page buffer and a spare area. -/
def Correction.mend (page : Bytes × Bytes) (c : Correction) : Bytes × Bytes :=
  match c.location.place with
  | .data => (page.1.modify c.location.offset (· ^^^ c.value), page.2)
  | .window => (page.1, page.2.modify c.location.offset (· ^^^ c.value))

/-- A repair within a page buffer and a spare area of these sizes. -/
def Correction.Within (dataLen spareLen : Nat) (c : Correction) : Prop :=
  c.location.offset < (match c.location.place with
    | .data => dataLen
    | .window => spareLen)

namespace Correction

variable {page : Bytes × Bytes} {c : Correction}

@[simp] theorem size_mend_fst : (mend page c).1.size = page.1.size := by
  unfold mend
  split
  · exact Array.size_modify
  · rfl

@[simp] theorem size_mend_snd : (mend page c).2.size = page.2.size := by
  unfold mend
  split
  · rfl
  · exact Array.size_modify

theorem size_foldl_mend (corrections : List Correction) (page : Bytes × Bytes) :
    (corrections.foldl mend page).1.size = page.1.size ∧
      (corrections.foldl mend page).2.size = page.2.size := by
  induction corrections generalizing page with
  | nil => exact ⟨rfl, rfl⟩
  | cons c corrections ih =>
    obtain ⟨hdata, hspare⟩ := ih (mend page c)
    exact ⟨hdata.trans size_mend_fst, hspare.trans size_mend_snd⟩

end Correction

namespace Sim

open Ecc

namespace Device

variable {device : Device} {g : Geometry} {n : Nat}

/-! ## Making repairs -/

theorem front_setByte_xor {window : Window} {i : Nat} (hi : i < n) (hn : n ≤ windowLen)
    (value : UInt8) :
    (window.setByte i (window.byte i ^^^ value)).front n =
      (window.front n).modify i (· ^^^ value) := by
  have hsize : i < (window.front n).size := by rwa [Window.size_front hn]
  have hbyte := Window.byte_eq_front window hi
  rw [Array.getElem?_eq_getElem hsize, Option.getD_some] at hbyte
  rw [Window.front_setByte]
  apply Array.ext_getElem?
  intro j
  rw [Array.getElem?_setIfInBounds, Array.getElem?_modify]
  by_cases hj : i = j
  · subst hj
    rw [if_pos rfl, if_pos hsize, if_pos rfl, Array.getElem?_eq_getElem hsize, hbyte,
      Option.map_some]
  · rw [if_neg hj, if_neg hj]

theorem run_applyCorrection (device : Device) {data : Bytes} {c : Correction}
    (hc : c.Within data.size n) (hn : n ≤ windowLen) :
    ∃ window, (applyCorrection data c).run device =
        .ok ((c.mend (data, device.engine.window.front n)).1, device.setWindow window) ∧
      window.front n = (c.mend (data, device.engine.window.front n)).2 := by
  unfold Correction.Within at hc
  unfold applyCorrection Correction.mend
  cases hplace : c.location.place with
  | data =>
    rw [hplace] at hc
    refine ⟨device.engine.window, ?_, rfl⟩
    show (liftM (xorAt data _ _) : Action Device Bytes).run device = _
    rw [xorAt, if_pos hc]
    rfl
  | window =>
    rw [hplace] at hc
    have hi : c.location.offset < windowLen := Nat.lt_of_lt_of_le hc hn
    refine ⟨_, run_step (run_read8 device hi) (run_step (run_write8 device hi _) rfl), ?_⟩
    exact front_setByte_xor hc hn c.value

/-- Repairs one after the other, by induction from one. -/
theorem run_corrections (device : Device) (data : Bytes) {corrections : List Correction}
    (hwithin : ∀ c ∈ corrections, c.Within data.size n) (hn : n ≤ windowLen) :
    ∃ window, (corrections.foldlM applyCorrection data).run device =
        .ok ((corrections.foldl Correction.mend (data, device.engine.window.front n)).1,
          device.setWindow window) ∧
      window.front n =
        (corrections.foldl Correction.mend (data, device.engine.window.front n)).2 := by
  -- Each correction keeps the length of the page, so that those that follow lie within it too.
  induction corrections generalizing data device with
  | nil => exact ⟨device.engine.window, rfl, rfl⟩
  | cons c corrections ih =>
    obtain ⟨window, hrun, hfront⟩ := run_applyCorrection device
      (hwithin c (List.mem_cons_self ..)) hn
    have hsize : (c.mend (data, device.engine.window.front n)).1.size = data.size :=
      Correction.size_mend_fst
    obtain ⟨window', hrun', hfront'⟩ := ih (device.setWindow window)
      (c.mend (data, device.engine.window.front n)).1 fun c' hc' => by
        rw [hsize]
        exact hwithin c' (List.mem_cons_of_mem _ hc')
    have hpage : ((c.mend (data, device.engine.window.front n)).1,
        (device.setWindow window).engine.window.front n) =
        c.mend (data, device.engine.window.front n) := by
      rw [show (device.setWindow window).engine.window = window from rfl, hfront]
    rw [hpage] at hrun' hfront'
    exact ⟨window', run_step hrun hrun', hfront'⟩

end Device

end Sim

end NandFlash
