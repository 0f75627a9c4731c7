import NandFlash.Bus.Memory
import NandFlash.Bus.Monitor
import NandFlash.Proofs.Sim.Window

/-!
# One window on two buses

The simulated device keeps its window in a buffer beside its registers. On plain memory the window
is a stretch of the register block. A driver cannot tell the two apart by the window: whatever it
does there, byte by byte or word by word, goes the same way on both and touches nothing else.
-/

namespace NandFlash

open Sim

/-! ## Accesses -/

/-- A register access of a driver, of eight or of 32 bits. -/
inductive RegisterAccess where
  | read8 (offset : Nat)
  | write8 (offset : Nat) (value : UInt8)
  | read32 (offset : Nat)
  | write32 (offset : Nat) (value : UInt32)
deriving DecidableEq, Repr

namespace RegisterAccess

/-- The register offset of an access. -/
def offset : RegisterAccess → Nat
  | read8 offset | write8 offset _ | read32 offset | write32 offset _ => offset

/-- The bytes that an access takes in. -/
def width : RegisterAccess → Nat
  | read8 _ | write8 _ _ => 1
  | read32 _ | write32 _ _ => 4

/-- An access in the window, aligned to its width. -/
def InWindow (access : RegisterAccess) : Prop :=
  Register.window ≤ access.offset ∧ access.offset < Register.window + windowLen ∧
    access.offset % access.width = 0

instance (access : RegisterAccess) : Decidable access.InWindow :=
  inferInstanceAs (Decidable (_ ∧ _ ∧ _))

/-- Make an access. The event tells what has been read. -/
def issue {β : Type} [Bus β] : RegisterAccess → Action β BusEvent
  | read8 offset => return .read8 offset (← Bus.read8 offset)
  | write8 offset value => do
    Bus.write8 offset value
    return .write8 offset value
  | read32 offset => return .read32 offset (← Bus.read32 offset)
  | write32 offset value => do
    Bus.write32 offset value
    return .write32 offset value

/-- What becomes of an access to a window: the event, and the window that is left. -/
def serve (window : Window) : RegisterAccess → BusEvent × Window
  | read8 offset => (.read8 offset (window.byte (offset - Register.window)), window)
  | write8 offset value =>
    (.write8 offset value, window.setByte (offset - Register.window) value)
  | read32 offset => (.read32 offset (window.word (offset - Register.window)), window)
  | write32 offset value =>
    (.write32 offset value, window.setWord (offset - Register.window) value)

/-- The same for some accesses in a row. -/
def serveAll : Window → List RegisterAccess → List BusEvent × Window
  | window, [] => ([], window)
  | window, access :: rest =>
    let (event, window) := access.serve window
    let (events, window) := serveAll window rest
    (event :: events, window)

/-- The last word of the window ends with it, so that an aligned access lies in the window as a
whole. -/
theorem InWindow.exists_index {access : RegisterAccess} (h : access.InWindow) :
    ∃ i, access.offset = Register.window + i ∧ i + access.width ≤ windowLen := by
  obtain ⟨hstart, hstop, haligned⟩ := h
  have hwindow : Register.window = 0xA00 := rfl
  have hlen : windowLen = 472 := rfl
  refine ⟨access.offset - Register.window, by omega, ?_⟩
  cases access <;> simp only [width] at haligned ⊢ <;> omega

end RegisterAccess

namespace Sim.PresentsWindow

open RegisterAccess

variable {β : Type} [Bus β] {put : Window → β} (h : PresentsWindow put)

include h

/-- An access within the window is served by the window. -/
theorem run_issue (window : Window) {access : RegisterAccess} (hin : access.InWindow) :
    access.issue.run (put window) =
      .ok ((access.serve window).1, put (access.serve window).2) := by
  obtain ⟨i, hoffset, hfits⟩ := hin.exists_index
  cases access <;> simp only [RegisterAccess.offset, width] at hoffset hfits <;> subst hoffset <;>
    simp only [serve, Nat.add_sub_cancel_left]
  · exact run_step (h.read8 window hfits) rfl
  · exact run_step (h.write8 window hfits _) rfl
  · exact run_step (h.read32 window hfits) rfl
  · exact run_step (h.write32 window hfits _) rfl

/-- By induction on the accesses: each finds the window as the one before has left it. -/
theorem run_issueAll (window : Window) {accesses : List RegisterAccess}
    (hin : ∀ access ∈ accesses, access.InWindow) :
    (accesses.mapM issue).run (put window) =
      .ok ((serveAll window accesses).1, put (serveAll window accesses).2) := by
  induction accesses generalizing window with
  | nil => rfl
  | cons access rest ih =>
    rw [List.forall_mem_cons] at hin
    rw [List.mapM_cons]
    exact run_step (h.run_issue window hin.1) (run_step (ih _ hin.2) rfl)

/-- What is stored is loaded again, by any area of the same length. -/
theorem run_store_load (window : Window) {area target : StagingArea}
    (hfits : area.bytes.size ≤ windowLen) (hsize : target.bytes.size = area.bytes.size) :
    (area.store >>= fun _ => target.load).run (put window) =
      .ok (area, put (window.overlay 0 area.bytes)) := by
  refine run_step (h.run_store window hfits) ?_
  rw [h.run_load _ (hsize ▸ hfits), hsize, Window.front_overlay_zero window hfits]

end Sim.PresentsWindow

/-! ## Plain memory -/

namespace Memory

/-- The window of a register block. -/
def window (memory : Memory) : Window :=
  Vector.ofFn fun i => memory.byte (Register.window + i)

/-- A register block with another window. -/
def setWindow (memory : Memory) (window : Window) : Memory :=
  ⟨memory.bytes.overlay Register.window window.toArray⟩

variable {memory : Memory} (hreach : Register.window + windowLen ≤ memory.bytes.size)

/-- Outside its window a register block stays as it is. -/
theorem getElem?_setWindow_of_outside (memory : Memory) (window : Window) {i : Nat}
    (hi : i < Register.window ∨ Register.window + windowLen ≤ i) :
    (memory.setWindow window).bytes[i]? = memory.bytes[i]? := by
  rw [setWindow, Bytes.getElem?_overlay, Vector.size_toArray, if_neg (by omega)]

theorem size_setWindow (memory : Memory) (window : Window) :
    (memory.setWindow window).bytes.size = memory.bytes.size :=
  Bytes.size_overlay _ _ _

include hreach

/-- The window of the memory begins at its offset. -/
theorem getElem?_window {i : Nat} (hi : i < windowLen) :
    memory.window.toArray[i]? = memory.bytes[Register.window + i]? := by
  rw [window, Vector.toArray_ofFn, Array.getElem?_ofFn, dif_pos hi, byte,
    Array.getD_eq_getD_getElem?, Array.getElem?_eq_getElem (by omega), Option.getD_some]

/-- A window that is put there is found there. -/
theorem getElem?_setWindow (window : Window) {i : Nat} (hi : i < windowLen) :
    (memory.setWindow window).bytes[Register.window + i]? = window.toArray[i]? := by
  rw [setWindow, Bytes.getElem?_overlay, Vector.size_toArray, if_pos (by omega),
    Nat.add_sub_cancel_left]

theorem byte_setWindow (window : Window) {i : Nat} (hi : i < windowLen) :
    (memory.setWindow window).byte (Register.window + i) = window.byte i := by
  rw [byte, Array.getD_eq_getD_getElem?, getElem?_setWindow hreach window hi, Window.byte_eq]

theorem word_setWindow (window : Window) {i : Nat} (hi : i + 4 ≤ windowLen) :
    (memory.setWindow window).word (Register.window + i) = window.word i := by
  simp only [word, Window.word, Nat.add_assoc]
  rw [byte_setWindow hreach window (by omega), byte_setWindow hreach window (by omega),
    byte_setWindow hreach window (by omega), byte_setWindow hreach window (by omega)]

/-- What is put is what is read. -/
theorem window_setWindow (window : Window) : (memory.setWindow window).window = window := by
  refine Vector.toArray_inj.1 (Array.ext_getElem? fun i => ?_)
  by_cases hi : i < windowLen
  · rw [getElem?_window (by rwa [size_setWindow]) hi, getElem?_setWindow hreach window hi]
  · rw [Array.getElem?_eq_none (by rw [Vector.size_toArray]; omega),
      Array.getElem?_eq_none (by rw [Vector.size_toArray]; omega)]

/-- Putting back what was there changes nothing. -/
theorem setWindow_window : memory.setWindow memory.window = memory := by
  refine congrArg Memory.mk (Array.ext_getElem? fun i => ?_)
  by_cases hi : Register.window ≤ i ∧ i < Register.window + windowLen
  · obtain ⟨k, rfl⟩ := Nat.exists_eq_add_of_le hi.1
    have hk : k < windowLen := by omega
    exact (getElem?_setWindow hreach _ hk).trans (getElem?_window hreach hk)
  · exact getElem?_setWindow_of_outside memory memory.window (by omega)

/-- A byte that is stored in the memory is stored in its window. -/
theorem setByte_setWindow (window : Window) {i : Nat} (hi : i < windowLen) (value : UInt8) :
    (memory.setWindow window).setByte (Register.window + i) value =
      memory.setWindow (window.setByte i value) := by
  refine congrArg Memory.mk (Array.ext_getElem? fun j => ?_)
  simp only [setWindow, Window.setByte, Vector.toArray_setIfInBounds, Array.getElem?_setIfInBounds,
    Bytes.getElem?_overlay, Bytes.size_overlay, Array.size_setIfInBounds, Vector.size_toArray]
  grind

/-- So is a word. -/
theorem setWord_setWindow (window : Window) {i : Nat} (hi : i + 4 ≤ windowLen)
    (value : UInt32) :
    (memory.setWindow window).setWord (Register.window + i) value =
      memory.setWindow (window.setWord i value) := by
  simp only [setWord, Window.setWord, Nat.add_assoc]
  rw [setByte_setWindow hreach _ (by omega), setByte_setWindow hreach _ (by omega),
    setByte_setWindow hreach _ (by omega), setByte_setWindow hreach _ (by omega)]

/-- A block that reaches to the end of the window lets every access to it through. -/
theorem run_checkAccess (window : Window) {i width : Nat} (hi : i + width ≤ windowLen) :
    (checkAccess (Register.window + i) width).run (memory.setWindow window) =
      .ok ((), memory.setWindow window) := by
  have hwindow : Register.window = 0xA00 := rfl
  have hlen : windowLen = 472 := rfl
  have hword : Register.window + i + width < UInt64.size :=
    Nat.lt_of_le_of_lt (m := 0xBD8) (by omega) (by decide)
  have hstop : (liftM (word64 (Register.window + i + width)) : Action Memory Nat).run
      (memory.setWindow window) = .ok (Register.window + i + width, memory.setWindow window) := by
    rw [word64_eq_ok.2 ⟨hword, rfl⟩]
    rfl
  refine run_step hstop (run_step rfl ?_)
  rw [size_setWindow, if_neg (by omega)]
  rfl

/-- The memory presents its window. -/
theorem presentsWindow : PresentsWindow memory.setWindow where
  read8 window i hi := by
    refine run_step (run_checkAccess hreach window hi) ?_
    rw [← byte_setWindow hreach window hi]
    rfl
  write8 window i hi value := by
    refine run_step (run_checkAccess hreach window hi) ?_
    rw [← setByte_setWindow hreach window hi]
    rfl
  read32 window i hi := by
    refine run_step (run_checkAccess hreach window hi) ?_
    rw [← word_setWindow hreach window hi]
    rfl
  write32 window i hi value := by
    refine run_step (run_checkAccess hreach window hi) ?_
    rw [← setWord_setWindow hreach window hi]
    rfl

end Memory

/-! ## The property -/

/-- Two buses with the same bytes in the window go on alike. Accesses to the window read the same on
a device and on a register block in memory that reaches to the end of the window, they leave the
same window on both, and everything else as it was. So it is also with a staging area: what is
stored is loaded again, and the bytes of the window behind it stay. -/
theorem backends_share_window (device : Device) (memory : Memory)
    (hreach : Register.window + windowLen ≤ memory.bytes.size)
    (hsame : memory.window = device.engine.window) :
    (∀ accesses : List RegisterAccess, (∀ access ∈ accesses, access.InWindow) →
      ∃ events window,
        (accesses.mapM RegisterAccess.issue).run device = .ok (events, device.setWindow window) ∧
        (accesses.mapM RegisterAccess.issue).run memory = .ok (events, memory.setWindow window) ∧
        (memory.setWindow window).window = window) ∧
    ∀ area target : StagingArea, area.bytes.size ≤ 472 → target.bytes.size = area.bytes.size →
      ∃ window,
        (area.store >>= fun _ => target.load).run device = .ok (area, device.setWindow window) ∧
        (area.store >>= fun _ => target.load).run memory = .ok (area, memory.setWindow window) ∧
        (memory.setWindow window).window = window ∧
        ∀ i, area.bytes.size ≤ i → i < 472 → window.byte i = device.engine.window.byte i := by
  have hdevice := device.presentsWindow
  have hmemory := Memory.presentsWindow hreach
  have hstart : memory.setWindow device.engine.window = memory := by
    rw [← hsame, Memory.setWindow_window hreach]
  -- Both present the same window, so that what is shown of one holds of the other.
  refine ⟨fun accesses hin => ?_, fun area target hfits hsize => ?_⟩
  · refine ⟨_, _, hdevice.run_issueAll device.engine.window hin, ?_,
      Memory.window_setWindow hreach _⟩
    rw [← hmemory.run_issueAll device.engine.window hin, hstart]
  · refine ⟨_, hdevice.run_store_load device.engine.window hfits hsize, ?_,
      Memory.window_setWindow hreach _, fun i hi hlt => ?_⟩
    · rw [← hmemory.run_store_load device.engine.window hfits hsize, hstart]
    · rw [Window.byte_eq, Window.byte_eq, Window.overlay, Bytes.getElem?_overlay,
        if_neg (by omega)]

/-- A byte and the last word of the window overlap, on a fresh device and on a block of memory that
ends with the window alike. -/
theorem backends_share_window_last_word :
    let device : Device := ⟨.k9f1g08, .blank, .idle 2112, .idle, ⟨0, Device.unsetPins⟩, ⟨#[], #[]⟩⟩
    let memory := (Memory.zeroed 758).setWindow Window.erased
    let accesses : List RegisterAccess :=
      [.write8 0xBD5 0xA5, .read32 0xBD4, .write32 0xBD4 0x04030201, .read8 0xBD7]
    let events : List BusEvent :=
      [.write8 0xBD5 0xA5, .read32 0xBD4 0xFFFFA5FF, .write32 0xBD4 0x04030201, .read8 0xBD7 4]
    let area : StagingArea := ⟨#[0x12, 0x34, 0x56]⟩
    (Register.window + windowLen ≤ memory.bytes.size ∧ memory.window = device.engine.window) ∧
    ((∀ access ∈ accesses, access.InWindow) ∧ ∃ window,
      (accesses.mapM RegisterAccess.issue).run device = .ok (events, device.setWindow window) ∧
      (accesses.mapM RegisterAccess.issue).run memory = .ok (events, memory.setWindow window)) ∧
    area.bytes.size ≤ 472 ∧ ∃ window,
      (area.store >>= fun _ => (StagingArea.new 3).load).run device =
        .ok (area, device.setWindow window) ∧
      (area.store >>= fun _ => (StagingArea.new 3).load).run memory =
        .ok (area, memory.setWindow window) := by
  intro device memory accesses events area
  have hzeroed : Register.window + windowLen ≤ (Memory.zeroed 758).bytes.size :=
    Nat.le_of_eq (Bytes.size_filled _ _).symm
  have hreach : Register.window + windowLen ≤ memory.bytes.size := by
    rwa [Memory.size_setWindow]
  have hsame : memory.window = device.engine.window := Memory.window_setWindow hzeroed _
  have hin : ∀ access ∈ accesses, access.InWindow := by decide
  obtain ⟨haccesses, hstaging⟩ := backends_share_window device memory hreach hsame
  obtain ⟨seen, window, hdevice, hmemory, -⟩ := haccesses accesses hin
  have hseen : ((accesses.mapM RegisterAccess.issue).run device).map (·.1) = .ok events := by
    decide +kernel
  rw [hdevice] at hseen
  obtain rfl : seen = events := Except.ok.inj hseen
  obtain ⟨stored, hstored, hstored', -⟩ := hstaging area (.new 3) (by decide) rfl
  exact ⟨⟨hreach, hsame⟩, ⟨hin, window, hdevice, hmemory⟩, by decide, stored, hstored, hstored'⟩

end NandFlash
