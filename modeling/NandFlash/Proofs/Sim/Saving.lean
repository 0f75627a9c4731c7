import NandFlash.Proofs.Sim.Genuine
import NandFlash.Proofs.Sim.References
import NandFlash.Proofs.Stream

/-!
# Saving

A saved device is the sequence of its raw pages. There are no reference copies in it, and neither
are the power-on words, the failing blocks and the hang flag: on a device that loads the image they
are to be set anew.
-/

namespace NandFlash

/-- A sink that has room for two buffers takes the first one and has room for the second. -/
theorem Sink.HasRoom.split {sink : Sink} {bytes rest : Bytes}
    (h : sink.HasRoom (bytes ++ rest).size) :
    sink.HasRoom bytes.size ∧ Sink.HasRoom ⟨sink.written ++ bytes, sink.limit⟩ rest.size := by
  constructor
  · intro limit hlimit
    have hle := h limit hlimit
    rw [Array.size_append] at hle
    omega
  · intro limit hlimit
    have hle := h limit hlimit
    rw [Array.size_append] at hle
    rw [Array.size_append]
    omega

namespace Sim

/-- Pages from `page` on, `count` of them, one after the other. -/
def joinPages (content : Nat → Bytes) (count page : Nat) : Bytes :=
  Bytes.join ((List.range' page count).map content)

theorem joinPages_zero (content : Nat → Bytes) (page : Nat) : joinPages content 0 page = #[] := by
  rw [joinPages, List.range'_zero, List.map_nil, Bytes.join_nil]

theorem joinPages_succ (content : Nat → Bytes) (count page : Nat) :
    joinPages content (count + 1) page = content page ++ joinPages content count (page + 1) := by
  rw [joinPages, List.range'_succ, List.map_cons, Bytes.join_cons, joinPages]

namespace Device

variable {device : Device}

/-! ## Saving -/

/-- The raw pages of a device, one after the other. -/
def image (device : Device) : Bytes := joinPages device.rawPage device.chip.pageCount 0

/-- Pages are written one by one, by induction on those that are left. -/
theorem savePages_eq {count page : Nat} {sink : Sink}
    (h : sink.HasRoom (joinPages device.rawPage count page).size) :
    device.savePages count page sink =
      (.ok (), ⟨sink.written ++ joinPages device.rawPage count page, sink.limit⟩) := by
  induction count generalizing page sink with
  | zero => rw [savePages, joinPages_zero, Array.append_empty]
  | succ count ih =>
    rw [joinPages_succ] at h ⊢
    obtain ⟨hfirst, hothers⟩ := h.split
    rw [savePages, Sink.write_of_hasRoom hfirst]
    simp only [ih hothers, Array.append_assoc]

theorem save_eq (hpages : device.chip.pages = .ok device.chip.pageCount) {sink : Sink}
    (h : sink.HasRoom device.image.size) :
    device.save sink = .ok (.ok (), ⟨sink.written ++ device.image, sink.limit⟩) := by
  simp only [save, hpages, bind, Except.bind, pure, Except.pure, savePages_eq h, image]

/-! ## What an image does not hold -/

/-- Give a device what the image of another one does not hold: the failing blocks, the power-on
words and the hang flag. -/
def takeOver (device other : Device) : Device :=
  ((other.array.failing.toList.foldl wearOut device).setPowerOn other.powerOn).setHang
    other.engine.hang

/-- Only the set of failing blocks grows when blocks wear out. -/
theorem foldl_wearOut (device : Device) (blocks : List Nat) :
    blocks.foldl wearOut device =
      { device with array := { device.array with
          failing := blocks.foldl (fun failing block => failing.insert block)
            device.array.failing } } := by
  induction blocks generalizing device with
  | nil => rfl
  | cons block blocks ih => rw [List.foldl_cons, ih, List.foldl_cons, wearOut, FlashArray.wearOut]

theorem contains_foldl_insert (blocks : List Nat) (failing : Std.ExtTreeSet Nat) (block : Nat) :
    (blocks.foldl (fun failing block => failing.insert block) failing).contains block =
      (blocks.contains block || failing.contains block) := by
  induction blocks generalizing failing with
  | nil => rfl
  | cons first blocks ih =>
    rw [List.foldl_cons, ih, Std.ExtTreeSet.contains_insert, List.contains_cons]
    grind

/-- Taking over changes nothing but what is taken over. -/
theorem takeOver_eq (device other : Device) :
    device.takeOver other =
      { device with
        array := { device.array with
          failing := other.array.failing.toList.foldl (fun failing block => failing.insert block)
            device.array.failing }
        engine := { device.engine with hang := other.engine.hang }
        powerOn := other.powerOn } := by
  rw [takeOver, foldl_wearOut]
  rfl

/-- A device without failing blocks of its own has just those that it takes over. -/
theorem isFailing_takeOver {other : Device} (h : device.array.failing = ∅) :
    (device.takeOver other).flash.isFailing = other.flash.isFailing := by
  funext block
  show (device.takeOver other).array.failing.contains block = other.array.failing.contains block
  rw [takeOver_eq, contains_foldl_insert, h, Std.ExtTreeSet.contains_toList]
  exact Bool.or_false _

theorem Reachable.takeOver {other : Device} (h : device.Reachable) :
    (device.takeOver other).Reachable := by
  have hworn : ∀ blocks : List Nat, (blocks.foldl wearOut device).Reachable := by
    intro blocks
    induction blocks generalizing device with
    | nil => exact h
    | cons block blocks ih => exact ih (h.step (.wearOut block))
  exact ((hworn _).step (.setPowerOn _)).step (.setHang _)

end Device

end Sim

end NandFlash
