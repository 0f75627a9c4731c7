import NandFlash.Proofs.Sim.Channel
import NandFlash.Staging

/-!
# The front of the window

A driver only ever looks at the first bytes of the window, as many as the spare area has. `front`
is all that needs to be known of a window: what is stored in it, marked in it or generated in it
shows there, and comes from nowhere else.
-/

namespace NandFlash.Sim

/-! ## Windows -/

namespace Window

/-- The first `n` bytes. -/
def front (window : Window) (n : Nat) : Bytes := window.toArray.extract 0 n

variable {window : Window} {n : Nat}

/-- The front of a window is its first bytes. -/
theorem getElem?_front (window : Window) (n i : Nat) :
    (window.front n)[i]? = if i < n then window.toArray[i]? else none := by
  rw [front, Array.getElem?_extract, Nat.sub_zero, Nat.zero_add]
  by_cases hi : i < n
  · rw [if_pos hi]
    by_cases hsize : i < window.toArray.size
    · rw [if_pos (by omega)]
    · rw [if_neg (by omega), Array.getElem?_eq_none (by omega)]
  · rw [if_neg hi, if_neg (by omega)]

theorem size_front (h : n ≤ windowLen) : (window.front n).size = n := by
  rw [front, Array.size_extract, Vector.size_toArray]
  omega

theorem byte_eq (window : Window) (i : Nat) : window.byte i = window.toArray[i]?.getD 0 :=
  Array.getD_eq_getD_getElem? ..

/-- The front of a window is read off byte by byte. -/
theorem front_eq_map_byte (h : n ≤ windowLen) :
    window.front n = ((List.range n).map window.byte).toArray := by
  apply Array.ext_getElem?
  intro i
  have hmap : ((List.range n).map window.byte).toArray[i]? = ((List.range n).map window.byte)[i]? :=
    List.getElem?_toArray
  rw [getElem?_front, hmap, List.getElem?_map]
  by_cases hi : i < n
  · have hsize : i < window.toArray.size := by rw [Vector.size_toArray]; omega
    rw [if_pos hi, List.getElem?_range hi, Option.map_some, byte_eq,
      Array.getElem?_eq_getElem hsize, Option.getD_some]
  · rw [if_neg hi, List.getElem?_eq_none (by rw [List.length_range]; omega), Option.map_none]

/-- What is copied to the start of a window is its front. -/
theorem front_overlay_zero (window : Window) {bytes : Bytes} (h : bytes.size ≤ windowLen) :
    (window.overlay 0 bytes).front bytes.size = bytes := by
  apply Array.ext_getElem?
  intro i
  rw [getElem?_front, overlay, Bytes.getElem?_overlay, Vector.size_toArray]
  by_cases hi : i < bytes.size
  · rw [if_pos hi, if_pos (by omega), Nat.sub_zero]
  · rw [if_neg hi, Array.getElem?_eq_none (by omega)]

/-- Further copying is seen in the front as far as it goes. -/
theorem front_overlay (window : Window) (start : Nat) (bytes : Bytes) (h : n ≤ windowLen) :
    (window.overlay start bytes).front n = (window.front n).overlay start bytes := by
  apply Array.ext_getElem?
  intro i
  rw [getElem?_front, overlay, Bytes.getElem?_overlay, Bytes.getElem?_overlay, getElem?_front,
    Vector.size_toArray, size_front h]
  by_cases hi : i < n
  · rw [if_pos hi, if_pos hi]
    by_cases hin : start ≤ i ∧ i < start + bytes.size
    · rw [if_pos (by omega), if_pos (by omega)]
    · rw [if_neg (by omega), if_neg (by omega)]
  · rw [if_neg hi, if_neg hi, if_neg (by omega)]

/-- A byte that is stored in the window is stored in its front, if it lies there. -/
theorem front_setByte (window : Window) (i : Nat) (byte : UInt8) :
    (window.setByte i byte).front n = (window.front n).setIfInBounds i byte := by
  rw [front, front, setByte, Vector.toArray_setIfInBounds]
  apply Array.ext_getElem?
  intro j
  simp only [Array.getElem?_extract, Array.getElem?_setIfInBounds, Array.size_extract,
    Array.size_setIfInBounds]
  grind

theorem byte_eq_front (window : Window) {i : Nat} (hi : i < n) :
    window.byte i = ((window.front n)[i]?).getD 0 := by
  rw [getElem?_front, if_pos hi, byte_eq]

/-! ### Generated parity -/

/-- A stretch within the front is one of the window. -/
theorem extract_front {start stop : Nat} (h : stop ≤ n) :
    (window.front n).extract start stop = window.toArray.extract start stop := by
  rw [front, Array.extract_extract, Nat.zero_add, Nat.zero_add, Nat.min_eq_left h]

/-- The parity of a field sees a window only through its metadata. -/
theorem parityCode_congr {w w' : Window} (g : Geometry) (data : Bytes) {index : Nat}
    (hfront : w.front n = w'.front n) (h : g.parityLen * index + metadataLen ≤ n) :
    Engine.parityCode g data w index = Engine.parityCode g data w' index := by
  rw [Engine.parityCode, Engine.parityCode, ← extract_front h, hfront, extract_front h]

/-- Filling in the parity of some fields keeps windows alike in front, by induction on the
fields. -/
theorem front_foldl_overlay_congr {w w' : Window} (g : Geometry) (data : Bytes)
    (hn : n ≤ windowLen) (hmetadata : g.parityBytes + metadataLen ≤ n) {indices : List Nat}
    (hindices : ∀ index ∈ indices, index < g.fieldCount) (h : w.front n = w'.front n) :
    (indices.foldl (fun window index => window.overlay
        (n - g.parityBytes + g.parityLen * index) (Engine.parityCode g data window index))
      w).front n =
    (indices.foldl (fun window index => window.overlay
        (n - g.parityBytes + g.parityLen * index) (Engine.parityCode g data window index))
      w').front n := by
  induction indices generalizing w w' with
  | nil => exact h
  | cons index indices ih =>
    rw [List.forall_mem_cons] at hindices
    have hindex : g.parityLen * index ≤ g.parityBytes :=
      Nat.mul_le_mul_left _ (Nat.le_of_lt hindices.1)
    rw [List.foldl_cons, List.foldl_cons]
    apply ih hindices.2
    rw [front_overlay _ _ _ hn, front_overlay _ _ _ hn, h, parityCode_congr g data h (by omega)]

/-- The front of a window, after parity has been generated, only depends on what it was. -/
theorem front_generateParity_congr {w w' : Window} (g : Geometry) (data : Bytes)
    (hn : n ≤ windowLen) (hmetadata : g.parityBytes + metadataLen ≤ n)
    (hfront : w.front n = w'.front n) :
    (Engine.generateParity g n data w).front n = (Engine.generateParity g n data w').front n := by
  unfold Engine.generateParity
  rw [if_neg (by omega), if_neg (by omega)]
  exact front_foldl_overlay_congr g data hn hmetadata (fun index => List.mem_range.1) hfront

/-- Generating parity touches nothing in front of it. -/
theorem getElem?_generateParity (g : Geometry) (data : Bytes) (window : Window) {i : Nat}
    (hi : i < n - g.parityBytes) :
    (Engine.generateParity g n data window).toArray[i]? = window.toArray[i]? := by
  have hfold : ∀ (indices : List Nat) (w : Window),
      (indices.foldl (fun window index => window.overlay
          (n - g.parityBytes + g.parityLen * index) (Engine.parityCode g data window index))
        w).toArray[i]? = w.toArray[i]? := by
    intro indices
    induction indices with
    | nil => exact fun w => rfl
    | cons index indices ih =>
      intro w
      rw [List.foldl_cons, ih, overlay, Bytes.getElem?_overlay, if_neg (by omega)]
  unfold Engine.generateParity
  rw [if_neg (by omega)]
  exact hfold _ _

end Window

/-! ## Moving bytes in and out -/

/-- The states of a bus that differ in the window and in nothing else. An access to the window is
answered from it, and what is written goes to it. -/
structure PresentsWindow {β : Type} [Bus β] (put : Window → β) : Prop where
  read8 : ∀ (window : Window) {i : Nat}, i < windowLen →
    (Bus.read8 (Register.window + i)).run (put window) = .ok (window.byte i, put window)
  write8 : ∀ (window : Window) {i : Nat}, i < windowLen → ∀ value,
    (Bus.write8 (Register.window + i) value).run (put window) =
      .ok ((), put (window.setByte i value))
  read32 : ∀ (window : Window) {i : Nat}, i + 4 ≤ windowLen →
    (Bus.read32 (Register.window + i)).run (put window) = .ok (window.word i, put window)
  write32 : ∀ (window : Window) {i : Nat}, i + 4 ≤ windowLen → ∀ value,
    (Bus.write32 (Register.window + i) value).run (put window) =
      .ok ((), put (window.setWord i value))

namespace PresentsWindow

variable {β : Type} [Bus β] {put : Window → β} (h : PresentsWindow put) (window : Window)

include h

/-- Bytes are written to the window one after the other, by induction on those that are left. -/
theorem run_forM_write8 {bytes : List UInt8} {start : Nat}
    (hfits : start + bytes.length ≤ windowLen) :
    ((bytes.zipIdx start).forM fun item => Bus.write8 (Register.window + item.2) item.1 :
      Action β Unit).run (put window) =
      .ok ((), put (window.overlay start bytes.toArray)) := by
  -- By induction on the bytes, which the window takes one by one.
  induction bytes generalizing start window with
  | nil =>
    have hwindow : window.overlay start #[] = window := by
      apply Vector.toArray_inj.1
      apply Array.ext_getElem?
      intro i
      rw [Window.overlay, Bytes.getElem?_overlay, if_neg (by simp; omega)]
    rw [hwindow]
    rfl
  | cons byte bytes ih =>
    rw [List.length_cons] at hfits
    have hwindow : (window.setByte start byte).overlay (start + 1) bytes.toArray =
        window.overlay start (byte :: bytes).toArray := by
      apply Vector.toArray_inj.1
      simp only [Window.overlay, Window.setByte, Vector.toArray_setIfInBounds,
        Bytes.overlay_setIfInBounds]
    rw [← hwindow]
    exact run_step (h.write8 window (by omega) byte) (ih _ (by omega))

/-- Staged bytes are laid over the front of the window. -/
theorem run_store {area : StagingArea} (hfits : area.bytes.size ≤ windowLen) :
    area.store.run (put window) = .ok ((), put (window.overlay 0 area.bytes)) := by
  obtain ⟨⟨bytes⟩⟩ := area
  exact h.run_forM_write8 window (by simpa using hfits)

/-- As many bytes come back as are staged. -/
theorem run_load {area : StagingArea} (hfits : area.bytes.size ≤ windowLen) :
    area.load.run (put window) = .ok (⟨window.front area.bytes.size⟩, put window) := by
  have hbytes : ((List.range area.bytes.size).mapM fun i => Bus.read8 (Register.window + i) :
      Action β (List UInt8)).run (put window) =
      .ok ((List.range area.bytes.size).map window.byte, put window) := by
    refine run_mapM fun i hi => h.read8 window ?_
    have := List.mem_range.1 hi
    omega
  rw [StagingArea.load, run_bind hbytes, Window.front_eq_map_byte hfits]
  rfl

end PresentsWindow

namespace Device

variable {device : Device}

/-- A device with another window. -/
def setWindow (device : Device) (window : Window) : Device :=
  device.modifyEngine fun engine => { engine with window }

theorem presentsWindow (device : Device) : PresentsWindow device.setWindow where
  read8 window _ hi := run_read8 (device.setWindow window) hi
  write8 window _ hi value := run_write8 (device.setWindow window) hi value
  read32 window _ hi := run_read32_window (device.setWindow window) hi
  write32 window _ hi value := run_write32_window (device.setWindow window) hi value

theorem run_store {area : StagingArea} (h : area.bytes.size ≤ windowLen) :
    area.store.run device =
      .ok ((), device.setWindow (device.engine.window.overlay 0 area.bytes)) :=
  device.presentsWindow.run_store device.engine.window h

theorem run_load {area : StagingArea} (h : area.bytes.size ≤ windowLen) :
    area.load.run device = .ok (⟨device.engine.window.front area.bytes.size⟩, device) :=
  device.presentsWindow.run_load device.engine.window h

/-- A marker byte that says that a page has been written: cleared if it is still erased. -/
def sealed (bytes : Bytes) (i : Nat) : Bytes :=
  bytes.modify i fun byte => if byte = erasedByte then 0 else byte

@[simp] theorem size_sealed (bytes : Bytes) (i : Nat) : (sealed bytes i).size = bytes.size := by
  simp [sealed]

/-- A marker byte that is erased is cleared, and any other is left alone. -/
theorem run_clearMarker (device : Device) {i n : Nat} (hi : i < n) (hn : n ≤ windowLen) :
    ∃ window, (Channel.clearMarker (Register.window + i)).run device =
        .ok ((), device.setWindow window) ∧
      window.front n = sealed (device.engine.window.front n) i := by
  have hbyte := Window.byte_eq_front device.engine.window hi
  have hsize : i < (device.engine.window.front n).size := by rwa [Window.size_front hn]
  rw [Array.getElem?_eq_getElem hsize, Option.getD_some] at hbyte
  have hread := run_read8 device (Nat.lt_of_lt_of_le hi hn)
  -- An erased marker is cleared, and any other byte is left as it is.
  by_cases herased : device.engine.window.byte i = erasedByte
  · refine ⟨device.engine.window.setByte i 0, run_step hread ?_, ?_⟩
    · rw [if_pos (beq_iff_eq.2 herased)]
      exact run_write8 device (by omega) 0
    · rw [Window.front_setByte, sealed]
      apply Array.ext_getElem?
      intro j
      rw [Array.getElem?_setIfInBounds, Array.getElem?_modify]
      by_cases hj : i = j
      · subst hj
        rw [if_pos rfl, if_pos hsize, if_pos rfl, Array.getElem?_eq_getElem hsize, ← hbyte,
          Option.map_some, if_pos herased]
      · rw [if_neg hj, if_neg hj]
  · refine ⟨device.engine.window, run_step hread ?_, ?_⟩
    · rw [if_neg (fun h => herased (beq_iff_eq.1 h))]
      rfl
    · rw [sealed]
      apply Array.ext_getElem?
      intro j
      rw [Array.getElem?_modify]
      by_cases hj : i = j
      · subst hj
        rw [if_pos rfl, Array.getElem?_eq_getElem hsize, ← hbyte, Option.map_some,
          if_neg herased]
      · rw [if_neg hj]

end Device

end NandFlash.Sim
