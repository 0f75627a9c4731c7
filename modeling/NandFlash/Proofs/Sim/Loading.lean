import NandFlash.Proofs.Image.Dumping
import NandFlash.Proofs.Sim.Blocks
import NandFlash.Proofs.Sim.Saving

/-!
# Loading from any source

A device loads page after page until it has them all or its source gives no more. The pages that
have arrived as a whole are there then, and all others are erased, whether the source has ended,
has broken, or has stopped in the middle of a page. A source that gives enough is loaded whole, and
saving gives its bytes back; what a device has saved makes another one of its kind the same.
-/

namespace NandFlash

theorem Bytes.eq_erased_of_isErased {bytes : Bytes} (h : bytes.isErased) :
    bytes = erased bytes.size := by
  refine Array.ext (size_erased _).symm fun i hi _ => ?_
  simp only [erased, filled, Array.getElem_replicate]
  exact isErased_iff.1 h i hi

/-- A piece of a part of a buffer is a part of the buffer. -/
theorem Bytes.piece_extract {bytes : Bytes} {start stop length i : Nat}
    (h : start + (i + 1) * length ≤ stop) : Bytes.piece length i (bytes.extract start stop) =
      bytes.extract (start + i * length) (start + (i + 1) * length) := by
  rw [Bytes.piece, Array.extract_extract, Nat.min_eq_left h]

namespace Sim

/-- Bytes of all pages of a chip with their spare areas. -/
def Chip.imageSize (chip : Chip) : Nat := chip.pageCount * chip.rawLen

/-! ## Storing a page -/

namespace FlashArray

/-- Store a page as loading does: one that is erased is left out. -/
def put (array : FlashArray) (page : Nat) (content : Bytes) : FlashArray :=
  if content.isErased then array
  else { array with pages := array.pages.insert page content }

/-- An array without content; blocks that fail go on failing. -/
def cleared (array : FlashArray) : FlashArray := { array with pages := ∅, reference := ∅ }

variable (array : FlashArray) {page : Nat} (content : Bytes)

theorem pages_cleared (page : Nat) : array.cleared.pages[page]? = none :=
  Std.ExtTreeMap.getElem?_empty

theorem reference_cleared (page : Nat) : array.cleared.reference[page]? = none :=
  Std.ExtTreeMap.getElem?_empty

theorem content_cleared (rawLen page : Nat) :
    array.cleared.content rawLen page = Bytes.erased rawLen := by
  rw [FlashArray.content, pages_cleared, Option.getD_none]

theorem reference_put : (array.put page content).reference = array.reference := by
  rw [put]
  split_ifs <;> rfl

theorem failing_put : (array.put page content).failing = array.failing := by
  rw [put]
  split_ifs <;> rfl

theorem pages_put_of_ne {row : Nat} (h : page ≠ row) :
    (array.put page content).pages[row]? = array.pages[row]? := by
  rw [put]
  split_ifs
  · rfl
  · rw [Std.ExtTreeMap.getElem?_insert, if_neg fun heq => h (compare_eq_iff_eq.1 heq)]

/-- That erased pages are left out makes no difference to the content, if the page was not stored
before. -/
theorem content_put (h : array.pages[page]? = none) (row : Nat) :
    (array.put page content).content content.size row =
      if row = page then content else array.content content.size row := by
  by_cases hrow : row = page
  · rw [if_pos hrow, hrow, FlashArray.content, put]
    split_ifs with herased
    · rw [h, Option.getD_none]
      exact (Bytes.eq_erased_of_isErased herased).symm
    · rw [Std.ExtTreeMap.getElem?_insert_self, Option.getD_some]
  · rw [if_neg hrow, FlashArray.content, array.pages_put_of_ne content (Ne.symm hrow),
      FlashArray.content]

end FlashArray

namespace Device

variable {device fresh : Device} {source : Source}

/-! ## Page after page -/

/-- The page that comes next and those behind it, counted from where the source stands before it. -/
theorem page_or_later {bytes old : Bytes} {rawLen start stop page count row : Nat}
    (hfirst : start + rawLen ≤ stop) :
    (if page + 1 ≤ row ∧ row < page + 1 + count ∧
        start + rawLen + (row - (page + 1) + 1) * rawLen ≤ stop then
      bytes.extract (start + rawLen + (row - (page + 1)) * rawLen)
        (start + rawLen + (row - (page + 1) + 1) * rawLen)
    else if row = page then bytes.extract start (start + rawLen) else old) =
    if page ≤ row ∧ row < page + (count + 1) ∧ start + (row - page + 1) * rawLen ≤ stop then
      bytes.extract (start + (row - page) * rawLen) (start + (row - page + 1) * rawLen)
    else old := by
  -- Before the page, at it, and behind it, where the counts differ by one page.
  rcases Nat.lt_trichotomy row page with hrow | rfl | hrow
  · rw [if_neg (by omega), if_neg (by omega), if_neg (by omega)]
  · rw [if_neg (by omega), if_pos rfl, Nat.sub_self, Nat.zero_mul, Nat.zero_add, Nat.one_mul,
      if_pos ⟨Nat.le_refl _, by omega, hfirst⟩, Nat.add_zero]
  · obtain ⟨i, rfl⟩ : ∃ i, row = page + 1 + i := ⟨row - (page + 1), by omega⟩
    have hstart : start + rawLen + i * rawLen = start + (i + 1) * rawLen := by
      rw [Nat.succ_mul, Nat.add_assoc, Nat.add_comm rawLen]
    have hstop : start + rawLen + (i + 1) * rawLen = start + (i + 1 + 1) * rawLen := by
      rw [Nat.succ_mul (i + 1), Nat.add_assoc, Nat.add_comm rawLen]
    rw [if_neg (Nat.ne_of_gt hrow), Nat.add_sub_cancel_left,
      show page + 1 + i - page = i + 1 by omega, hstart, hstop]
    congr 1
    exact propext (by omega)

/-- Pages are loaded until the source gives no more, by induction on those that are left. A page is
stored if the source has got as far as to the end of it. -/
theorem exists_loadPages (rawLen count page : Nat) {array : FlashArray}
    (hblank : ∀ row, page ≤ row → array.pages[row]? = none)
    (htaken : source.taken ≤ source.content.size) :
    ∃ after next, source.Takes (count * rawLen) next ∧
      loadPages rawLen count page array source =
        (if next.taken = source.taken + count * rawLen then .ok ()
          else .error (source.shortfall next.taken), after, next) ∧
      after.reference = array.reference ∧ after.failing = array.failing ∧
      ∀ row, after.content rawLen row =
        if page ≤ row ∧ row < page + count ∧
            source.taken + (row - page + 1) * rawLen ≤ next.taken then
          source.content.extract (source.taken + (row - page) * rawLen)
            (source.taken + (row - page + 1) * rawLen)
        else array.content rawLen row := by
  -- By induction on the pages to come; a page that is short ends the walk.
  induction count generalizing page array source with
  | zero =>
    refine ⟨array, source, ⟨rfl, rfl, fun _ h => h, Nat.le_refl _, Nat.le_add_right _ _, htaken,
      fun _ => .inl (by rw [Nat.zero_mul, Nat.add_zero])⟩, ?_, rfl, rfl, fun row => ?_⟩
    · rw [loadPages, if_pos (by rw [Nat.zero_mul, Nat.add_zero])]
    · rw [if_neg (by omega)]
  | succ count ih =>
    obtain ⟨mid, htakes, hfill⟩ := Source.exists_fillExact htaken rawLen
    rw [Nat.succ_mul, Nat.add_comm (count * rawLen)]
    by_cases hfull : mid.taken = source.taken + rawLen
    · rw [if_pos hfull, hfull] at hfill
      have hsize : (source.content.extract source.taken (source.taken + rawLen)).size = rawLen := by
        rw [Array.size_extract, Nat.min_eq_left (hfull ▸ htakes.taken_le_size)]
        omega
      have hbeyond : ∀ row, page + 1 ≤ row → (array.put page
          (source.content.extract source.taken (source.taken + rawLen))).pages[row]? = none := by
        intro row hrow
        rw [array.pages_put_of_ne _ (Nat.ne_of_lt hrow)]
        exact hblank row (Nat.le_of_succ_le hrow)
      obtain ⟨after, next, htakes', hload, hreference, hfailing, hafter⟩ :=
        ih (page + 1) hbeyond (htakes.content_eq ▸ htakes.taken_le_size)
      rw [hfull, Nat.add_assoc, Source.shortfall, htakes.breakAt_eq] at hload
      refine ⟨after, next, htakes.trans hfull htakes', ?_, hreference.trans (array.reference_put _),
        hfailing.trans (array.failing_put _), fun row => ?_⟩
      · rw [loadPages, hfill]
        exact hload
      · have hput := array.content_put (source.content.extract source.taken (source.taken + rawLen))
          (hblank page (Nat.le_refl _)) row
        have hle := htakes'.le_taken
        rw [hsize] at hput
        rw [hfull] at hle
        rw [hafter, hput, htakes.content_eq, hfull]
        exact page_or_later hle
    · -- What there is of the last page is lost, and no page after it is tried.
      rw [if_neg hfull] at hfill
      have hle := htakes.taken_le
      have hshort : ∀ i, ¬source.taken + (i + 1) * rawLen ≤ mid.taken := by
        intro i
        have hfirst : rawLen ≤ (i + 1) * rawLen := Nat.le_mul_of_pos_left _ (Nat.succ_pos i)
        omega
      refine ⟨array, mid, htakes.ask_more hfull _, ?_, rfl, rfl, fun row => ?_⟩
      · rw [loadPages, hfill, if_neg (by omega)]
      · rw [if_neg fun h => hshort _ h.2.2]

/-! ## All pages -/

/-- What a device has become by loading: whole pages of `bytes` are stored from the first page on,
the other pages are erased, and no page has a reference. The rest of the device is as before. -/
structure Loaded (before : Device) (bytes : Bytes) (after : Device) : Prop where
  eq_with : after = { before with array := after.array }
  failing_eq : after.array.failing = before.array.failing
  rawPage_eq : ∀ page, after.rawPage page =
    if page < bytes.size / before.chip.rawLen then bytes.piece before.chip.rawLen page
    else Bytes.erased before.chip.rawLen
  no_reference : ∀ page : Nat, after.array.reference[page]? = none

/-- Loading takes what the source has to give, and succeeds if that is all that the chip has room
for. -/
theorem exists_load (hpages : device.chip.pages = .ok device.chip.pageCount)
    (htaken : source.taken ≤ source.content.size) :
    ∃ loaded next, source.Takes device.chip.imageSize next ∧
      device.load source = .ok (if next.taken = source.taken + device.chip.imageSize then .ok ()
        else .error (source.shortfall next.taken), loaded, next) ∧
      device.Loaded (source.content.extract source.taken next.taken) loaded := by
  obtain ⟨array, next, htakes, hload, hreference, hfailing, hcontent⟩ :=
    exists_loadPages device.chip.rawLen device.chip.pageCount 0
      (fun row _ => device.array.pages_cleared row) htaken
  refine ⟨{ device with array }, next, htakes, ?_, rfl, hfailing, fun page => ?_, fun page => ?_⟩
  · rw [load, hpages]
    exact congrArg (fun result => Except.ok (result.1, { device with array := result.2.1 },
      result.2.2)) hload
  · have hsize : (source.content.extract source.taken next.taken).size =
        next.taken - source.taken := by
      rw [Array.size_extract, Nat.min_eq_left htakes.taken_le_size]
    show array.content device.chip.rawLen page = _
    rw [hcontent, FlashArray.content_cleared, hsize, Nat.zero_add, Nat.sub_zero]
    rcases Nat.eq_zero_or_pos device.chip.rawLen with hzero | hpos
    · -- Pages without bytes are as good as erased.
      rw [hzero, Nat.div_zero, if_neg (Nat.not_lt_zero _), Nat.mul_zero, Nat.mul_zero,
        Array.extract_eq_empty_of_le (Nat.min_le_left _ _)]
      exact ite_self _
    · have hle := htakes.le_taken
      have hroom := htakes.taken_le
      have hwhole : page < (next.taken - source.taken) / device.chip.rawLen ↔
          source.taken + (page + 1) * device.chip.rawLen ≤ next.taken := by
        rw [Nat.lt_iff_add_one_le, Nat.le_div_iff_mul_le hpos]
        omega
      by_cases hpage : source.taken + (page + 1) * device.chip.rawLen ≤ next.taken
      · have hcount : (page + 1) * device.chip.rawLen ≤
            device.chip.pageCount * device.chip.rawLen := by omega
        rw [if_pos ⟨Nat.zero_le _, Nat.le_of_mul_le_mul_right hcount hpos, hpage⟩,
          if_pos (hwhole.2 hpage), Bytes.piece_extract hpage]
      · rw [if_neg fun h => hpage h.2.2, if_neg fun h => hpage (hwhole.1 h)]
  · exact (congrArg (·[page]?) hreference).trans (device.array.reference_cleared page)

/-- A source that has enough to give is loaded whole. -/
theorem exists_load_of_supplies (hpages : device.chip.pages = .ok device.chip.pageCount)
    (h : source.Supplies device.chip.imageSize) :
    ∃ loaded next, device.load source = .ok (.ok (), loaded, next) ∧
      next.content = source.content ∧ next.taken = source.taken + device.chip.imageSize ∧
      device.Loaded (source.rest.extract 0 device.chip.imageSize) loaded := by
  obtain ⟨loaded, next, htakes, hload, hloaded⟩ := exists_load hpages
    (Nat.le_trans (Nat.le_add_right _ _) h.le_size)
  have htaken := h.taken_eq htakes
  rw [if_pos htaken] at hload
  rw [htaken, ← Nat.min_eq_left h.le_size, Source.extract_taken] at hloaded
  exact ⟨loaded, next, hload, htakes.content_eq, htaken, hloaded⟩

/-- A source that stops for some reason before there are enough bytes is loaded as far as it
goes. -/
theorem exists_load_of_runs_out (hpages : device.chip.pages = .ok device.chip.pageCount)
    (htaken : source.taken ≤ source.content.size) {reason : StreamError}
    (hshort : source.rest.size < device.chip.imageSize)
    (h : ∀ next, source.Takes device.chip.imageSize next →
      next.taken = source.content.size ∧ source.shortfall next.taken = reason) :
    ∃ loaded next, device.load source = .ok (.error reason, loaded, next) ∧
      device.Loaded source.rest loaded := by
  obtain ⟨loaded, next, htakes, hload, hloaded⟩ := exists_load hpages htaken
  obtain ⟨hend, hreason⟩ := h next htakes
  rw [Source.size_rest] at hshort
  rw [if_neg (by omega), hreason] at hload
  rw [hend] at hloaded
  exact ⟨loaded, next, hload, hloaded⟩

/-! ## Images -/

theorem size_image (hwhole : device.flash.IsWhole device.chip.rawLen) :
    device.image.size = device.chip.imageSize := by
  rw [image, joinPages, Bytes.size_join, List.length_map, List.length_range', Chip.imageSize]
  intro piece hpiece
  obtain ⟨page, -, rfl⟩ := List.mem_map.1 hpiece
  exact hwhole page

/-- The pages of a device are the pieces of its image. -/
theorem piece_image (hwhole : device.flash.IsWhole device.chip.rawLen) {page : Nat}
    (hpage : page < device.chip.pageCount) :
    Bytes.piece device.chip.rawLen page device.image = device.rawPage page := by
  refine Bytes.piece_join (fun piece hpiece => ?_) ?_
  · obtain ⟨row, -, rfl⟩ := List.mem_map.1 hpiece
    exact hwhole row
  · rw [List.getElem?_map, List.getElem?_range' hpage]
    simp

/-- When all of an image has been loaded there is a piece of it on each page. -/
theorem Loaded.rawPage_of_lt {bytes : Bytes} {loaded : Device} (h : device.Loaded bytes loaded)
    (hsize : bytes.size = device.chip.imageSize) {page : Nat}
    (hpage : page < device.chip.pageCount) :
    loaded.rawPage page = Bytes.piece device.chip.rawLen page bytes := by
  rw [h.rawPage_eq, hsize, Chip.imageSize]
  rcases Nat.eq_zero_or_pos device.chip.rawLen with hzero | hpos
  · rw [hzero, Nat.div_zero, if_neg (Nat.not_lt_zero _), Bytes.piece, Nat.mul_zero, Nat.mul_zero,
      Array.extract_eq_empty_of_le (Nat.min_le_left _ _)]
    rfl
  · rw [Nat.mul_div_cancel _ hpos, if_pos hpage]

/-- What has been loaded whole is what is saved. -/
theorem Loaded.image_eq {bytes : Bytes} {loaded : Device} (h : device.Loaded bytes loaded)
    (hsize : bytes.size = device.chip.imageSize) : loaded.image = bytes := by
  have hchip : loaded.chip = device.chip := by rw [h.eq_with]
  rw [image, joinPages, hchip, ← List.range_eq_range']
  refine Eq.trans (congrArg Bytes.join (List.map_congr_left fun page hpage => ?_))
    (Bytes.join_pieces hsize)
  exact h.rawPage_of_lt hsize (List.mem_range.1 hpage)

/-- A device that loads the image of another one of its kind gets the pages of that one, and no
references. -/
theorem load_image (hwhole : device.flash.IsWhole device.chip.rawLen)
    (hpages : device.chip.pages = .ok device.chip.pageCount) (hchip : fresh.chip = device.chip)
    {source : Source} (hlasts : source.Lasts) (hrest : source.rest = device.image) :
    ∃ loaded next, fresh.load source = .ok (.ok (), loaded, next) ∧ loaded.chip = device.chip ∧
      loaded.array.failing = fresh.array.failing ∧
      (∀ page : Nat, loaded.array.reference[page]? = none) ∧
      ∀ page < device.chip.pageCount, loaded.rawPage page = device.rawPage page := by
  have hsize : source.rest.size = fresh.chip.imageSize := by
    rw [hrest, hchip, size_image hwhole]
  obtain ⟨loaded, next, hload, -, -, hloaded⟩ := exists_load_of_supplies (hchip ▸ hpages)
    (hlasts.supplies (Nat.le_of_eq hsize.symm))
  rw [← hsize, Array.extract_size] at hloaded
  refine ⟨loaded, next, hload, ?_, hloaded.failing_eq, hloaded.no_reference, fun page hpage => ?_⟩
  · rw [hloaded.eq_with, ← hchip]
  · rw [hloaded.rawPage_of_lt hsize (hchip ▸ hpage), hrest, hchip, piece_image hwhole hpage]

/-! ## There and back -/

/-- Loading and saving are inverse to each other, on all devices with some chip. A source that has
enough to give is loaded whole, not a byte more is taken from it, and saving gives back what has
been taken. Of any source at all a device loads the whole pages that have arrived; where the source
ends or breaks with too few bytes the failure says so. The image that a saved device has become
turns any other device with the chip into one with the same pages. Saving does not change the
device: it answers none. -/
theorem load_and_save_are_inverse {chip : Chip} (hpages : chip.pages = .ok chip.pageCount) :
    (∀ (device : Device) (source : Source), device.chip = chip → source.Supplies chip.imageSize →
      ∃ loaded next, device.load source = .ok (.ok (), loaded, next) ∧
        next.content = source.content ∧ next.taken = source.taken + chip.imageSize ∧
        device.Loaded (source.rest.extract 0 chip.imageSize) loaded ∧
        ∀ sink : Sink, sink.HasRoom chip.imageSize → loaded.save sink =
          .ok (.ok (), ⟨sink.written ++ source.rest.extract 0 chip.imageSize, sink.limit⟩)) ∧
    (∀ (device : Device) (source : Source), device.chip = chip →
      source.taken ≤ source.content.size →
      (∃ loaded next, source.Takes chip.imageSize next ∧
        device.load source = .ok (if next.taken = source.taken + chip.imageSize then .ok ()
          else .error (source.shortfall next.taken), loaded, next) ∧
        device.Loaded (source.content.extract source.taken next.taken) loaded) ∧
      (source.rest.size < chip.imageSize → source.Lasts →
        ∃ loaded next, device.load source = .ok (.error .unexpectedEnd, loaded, next) ∧
          device.Loaded source.rest loaded) ∧
      (source.rest.size < chip.imageSize → source.Breaks →
        ∃ loaded next, device.load source = .ok (.error .broken, loaded, next) ∧
          device.Loaded source.rest loaded)) ∧
    ∀ saved : Device, saved.Reachable → saved.chip = chip → ∃ image : Bytes,
      image.size = chip.imageSize ∧
      (∀ sink : Sink, sink.HasRoom image.size →
        saved.save sink = .ok (.ok (), ⟨sink.written ++ image, sink.limit⟩)) ∧
      ∀ (device : Device) (source : Source), device.chip = chip →
        source.Supplies chip.imageSize → source.rest.extract 0 chip.imageSize = image →
        ∃ loaded next, device.load source = .ok (.ok (), loaded, next) ∧
          ∀ page < chip.pageCount, loaded.rawPage page = saved.rawPage page := by
  refine ⟨?_, ?_, ?_⟩
  · rintro device source rfl hsupplies
    obtain ⟨loaded, next, hload, hcontent, htaken, hloaded⟩ :=
      exists_load_of_supplies hpages hsupplies
    refine ⟨loaded, next, hload, hcontent, htaken, hloaded, fun sink hroom => ?_⟩
    have himage := hloaded.image_eq hsupplies.size_extract
    have hchip : loaded.chip = device.chip := by rw [hloaded.eq_with]
    rw [save_eq (hchip ▸ hpages) (by rw [himage, hsupplies.size_extract]; exact hroom), himage]
  · rintro device source rfl htaken
    exact ⟨exists_load hpages htaken,
      fun hshort h => exists_load_of_runs_out hpages htaken hshort fun _ => h.runs_out hshort,
      fun hshort h => exists_load_of_runs_out hpages htaken hshort fun _ => h.runs_out hshort⟩
  · rintro saved hsaved rfl
    have hwhole := hsaved.isWhole.flash
    refine ⟨saved.image, size_image hwhole, fun sink hroom => save_eq hpages hroom,
      fun device source hchip hsupplies himage => ?_⟩
    obtain ⟨loaded, next, hload, -, -, hloaded⟩ :=
      exists_load_of_supplies (hchip ▸ hpages) (hchip ▸ hsupplies)
    rw [hchip, himage] at hloaded
    refine ⟨loaded, next, hload, fun page hpage => ?_⟩
    rw [hloaded.rawPage_of_lt (by rw [size_image hwhole, hchip]) (hchip ▸ hpage), hchip,
      piece_image hwhole hpage]

/-- A chip of four blocks of four small pages. -/
def smallChip : Chip := ⟨"small", idBytes 0xEC 0xF1 0x00 0x95 0x40 0x00, 512, 16, 4, 4⟩

/-- A source that breaks as soon as it has given an image of the small chip. -/
def ampleSource : Source := ⟨Bytes.filled 9000 0x5A, 0, [.upTo 100, .interrupted], some 8448⟩

/-- A source that ends, or breaks, in the middle of the second page of the small chip. -/
def scantSource (breakAt : Option Nat) : Source :=
  ⟨Bytes.filled 1000 0x5A, 0, [.interrupted, .upTo 600, .upTo 1], breakAt⟩

/-- Images of the small chip, from sources that have enough to give and from some that have not, and
of a device with a byte of its own. -/
theorem load_and_save_are_inverse_small_chip : ∃ fresh saved : Device,
    fresh.chip = smallChip ∧ smallChip.pages = .ok smallChip.pageCount ∧
    saved.Reachable ∧ saved.chip = smallChip ∧ (saved.rawPage 3)[10]? = some 0xF0 ∧
    (∃ loaded next, fresh.load ampleSource = .ok (.ok (), loaded, next) ∧ next.taken = 8448 ∧
      loaded.save (.unlimited 0) =
        .ok (.ok (), ⟨(Bytes.filled 9000 0x5A).extract 0 8448, none⟩)) ∧
    (∃ loaded next, fresh.load (scantSource none) = .ok (.error .unexpectedEnd, loaded, next) ∧
      (loaded.rawPage 0)[527]? = some 0x5A ∧ loaded.rawPage 1 = Bytes.erased 528) ∧
    (∃ loaded next, fresh.load (scantSource (some 1000)) = .ok (.error .broken, loaded, next) ∧
      (loaded.rawPage 0)[527]? = some 0x5A ∧ loaded.rawPage 1 = Bytes.erased 528) ∧
    ∃ image loaded next, saved.save (.unlimited 0) = .ok (.ok (), ⟨image, none⟩) ∧
      fresh.load (.ofBytes image) = .ok (.ok (), loaded, next) ∧
      (loaded.rawPage 3)[10]? = some 0xF0 := by
  have hpages : smallChip.pages = .ok smallChip.pageCount := rfl
  obtain ⟨fresh, hnew, hchip, harray⟩ : ∃ fresh, Device.new smallChip = .ok fresh ∧
      fresh.chip = smallChip ∧ fresh.array = .blank := ⟨_, rfl, rfl, rfl⟩
  obtain ⟨hsupplied, hshort, hsaved⟩ := load_and_save_are_inverse hpages
  have hdelivers : ∀ breakAt limit, .upTo limit ∈ (scantSource breakAt).plan → 0 < limit := by
    intro breakAt limit hlimit
    simp [scantSource] at hlimit
    omega
  have hscant : ∀ breakAt, (scantSource breakAt).rest = Bytes.filled 1000 0x5A :=
    fun _ => Array.extract_size
  have hless : ∀ breakAt, (scantSource breakAt).rest.size < smallChip.imageSize := by
    intro breakAt
    rw [hscant, Bytes.size_filled]
    decide
  -- A thousand bytes are one page and a part of the next.
  have hfirst : ∀ {breakAt : Option Nat} {loaded : Device},
      fresh.Loaded (scantSource breakAt).rest loaded →
        (loaded.rawPage 0)[527]? = some 0x5A ∧ loaded.rawPage 1 = Bytes.erased 528 := by
    intro breakAt loaded h
    rw [h.rawPage_eq, h.rawPage_eq, hscant, hchip, Bytes.size_filled]
    refine ⟨?_, if_neg (by decide)⟩
    rw [if_pos (by decide)]
    simp [Bytes.piece, Bytes.filled, smallChip, Chip.rawLen]
  have hample' : ampleSource.rest = Bytes.filled 9000 0x5A := Array.extract_size
  have hample : ampleSource.Supplies smallChip.imageSize := by
    refine ⟨?_, fun limit hlimit => ?_, fun limit hlimit => ?_⟩
    · rw [ampleSource, Bytes.size_filled]
      decide
    · simp [ampleSource] at hlimit
      omega
    · cases hlimit
      decide
  have hroom : ∀ count, (Sink.unlimited 0).HasRoom count := by
    rintro count _ ⟨⟩
  have hnothing : (Sink.unlimited 0).written = #[] := rfl
  have hstored : ((fresh.inject 3 10 0x0F).rawPage 3)[10]? = some 0xF0 := by
    rw [rawPage, inject, FlashArray.content_inject, if_pos rfl, harray, FlashArray.content_blank,
      hchip, Array.getElem?_modify, if_pos rfl, Bytes.erased, Bytes.filled,
      Array.getElem?_replicate, if_pos (by decide)]
    rfl
  refine ⟨fresh, fresh.inject 3 10 0x0F, hchip, hpages, (Reachable.new hnew).step (.inject _ _ _),
    hchip, hstored, ?_, ?_, ?_, ?_⟩
  · obtain ⟨loaded, next, hload, -, htaken, -, hsave⟩ := hsupplied fresh ampleSource hchip hample
    refine ⟨loaded, next, hload, htaken, ?_⟩
    rw [hsave _ (hroom _), hnothing, Array.empty_append, hample']
    rfl
  · obtain ⟨loaded, next, hload, hloaded⟩ := (hshort fresh (scantSource none) hchip
      (Nat.zero_le _)).2.1 (hless none) ⟨Nat.zero_le _, hdelivers none, by rintro _ ⟨⟩⟩
    exact ⟨loaded, next, hload, hfirst hloaded⟩
  · obtain ⟨loaded, next, hload, hloaded⟩ := (hshort fresh (scantSource (some 1000)) hchip
      (Nat.zero_le _)).2.2 (hless _) ⟨Nat.zero_le _, hdelivers _, by
        rw [scantSource, Bytes.size_filled]⟩
    exact ⟨loaded, next, hload, hfirst hloaded⟩
  · obtain ⟨image, hsize, hsave, hreload⟩ := hsaved _
      ((Reachable.new hnew).step (.inject 3 10 0x0F)) hchip
    have hlasts := (Source.lasts_ofBytes image)
    have hrest := Source.rest_ofBytes image
    obtain ⟨loaded, next, hload, hpage⟩ := hreload fresh (.ofBytes image) hchip
      (hlasts.supplies (by rw [hrest, hsize])) (by rw [hrest, ← hsize, Array.extract_size])
    refine ⟨image, loaded, next, ?_, hload, ?_⟩
    · rw [hsave _ (hroom _), hnothing, Array.empty_append]
      rfl
    · rw [hpage 3 (by decide)]
      exact hstored

end Device

end Sim

end NandFlash
