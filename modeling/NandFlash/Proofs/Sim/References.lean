import NandFlash.Proofs.Sim.History

/-!
# References

The copy that the ECC stage compares a page with is exact: it differs from the page by what has been
injected since the page was programmed with ECC, and a page that has been rewritten in any other way
has no copy. `History.isCovered` and `History.flips` work both out from what has happened to the
device; the array never looks back.
-/

namespace NandFlash.Sim

/-! ## What an episode does to a page -/

namespace Episode

variable (episode : Episode)

/-- Was a page programmed? -/
def programs (page : Nat) : Bool :=
  (episode.command? = some .program ∨ episode.command? = some .programCached) ∧
    ∃ pending ∈ episode.device.latches.pending, pending.row = page ∧
      page < episode.device.chip.pageCount

/-- Was it programmed with ECC, and in a sound block? -/
def covers (page : Nat) : Bool :=
  episode.programs page ∧ (∃ pending ∈ episode.device.latches.pending, pending.ecc = true) ∧
    episode.device.array.failing.contains (page / episode.device.chip.pagesPerBlock) = false

/-- Was the whole array loaded, as far as the image went? -/
def loads : Bool :=
  match episode.incident with
  | .load _ => true
  | _ => false

/-- Was a page programmed, erased or loaded? -/
def rewrites (page : Nat) : Bool :=
  episode.programs page || episode.erases page || episode.loads

/-- The bits that were flipped in a byte of a page. -/
def flip (page offset : Nat) : UInt8 :=
  match episode.incident with
  | .inject row column mask => if page = row ∧ offset = column then mask else 0
  | .markFactoryBad block =>
    if page = block * episode.device.chip.pagesPerBlock ∧ offset = episode.device.chip.pageSize
    then 0xFF else 0
  | _ => 0

end Episode

namespace History

/-- Was a page last rewritten by a program with ECC in a sound block? -/
def isCovered (page : Nat) : List Episode → Bool
  | [] => false
  | episode :: past => if episode.rewrites page then episode.covers page else isCovered page past

/-- All that was flipped in a byte of a page since it was last programmed with ECC in a sound
block. -/
def flips (page offset : Nat) : List Episode → UInt8
  | [] => 0
  | episode :: past =>
    if episode.covers page then 0 else episode.flip page offset ^^^ flips page offset past

end History

/-! ## Arrays -/

namespace FlashArray

variable (array : FlashArray) (rawLen : Nat)

/-- A program changes the content of one page. -/
theorem pages_program (page row : Nat) (buffer : Bytes) (ecc : Bool) :
    (array.program rawLen row buffer ecc).pages[page]? =
      if page = row then some (merge (array.content rawLen row) buffer) else array.pages[page]? := by
  simp only [program, Std.ExtTreeMap.getElem?_insert]
  grind

/-- A program with ECC leaves a reference, and one without takes it away. -/
theorem reference_program (page row : Nat) (buffer : Bytes) (ecc : Bool) :
    (array.program rawLen row buffer ecc).reference[page]? =
      if page = row then
        if ecc = true then some (merge (array.content rawLen row) buffer) else none
      else array.reference[page]? := by
  cases ecc with
  | true =>
    simp only [program, if_true, Std.ExtTreeMap.getElem?_insert]
    grind
  | false =>
    simp only [program, Bool.false_eq_true, if_false, Std.ExtTreeMap.getElem?_erase]
    grind

/-- An erase clears the pages of its range. -/
theorem pages_erase (first count page : Nat) :
    (array.erase first count).pages[page]? =
      if first ≤ page ∧ page < first + count then none else array.pages[page]? := by
  unfold erase
  induction count generalizing array first with
  | zero =>
    rw [if_neg (by omega)]
    rfl
  | succ count ih =>
    rw [List.range'_succ, List.foldl_cons, ih]
    simp only [Std.ExtTreeMap.getElem?_erase]
    grind

/-- An injection flips bits of one byte. -/
theorem pages_inject (page row offset : Nat) (mask : UInt8) :
    (array.inject rawLen row offset mask).pages[page]? =
      if page = row then some ((array.content rawLen row).modify offset (· ^^^ mask))
      else array.pages[page]? := by
  simp only [content, inject, Std.ExtTreeMap.getElem?_alter]
  grind

end FlashArray

theorem Device.reference_loadPages {rawLen count page : Nat} {array : FlashArray} {source : Source}
    (row : Nat) : (loadPages rawLen count page array source).2.1.reference[row]? =
      array.reference[row]? := by
  induction count generalizing page array source with
  | zero => rfl
  | succ count ih =>
    unfold loadPages
    split
    · rfl
    · rw [ih]
      split <;> rfl

/-! ## One episode -/

/-- What an episode can do to a page and its reference. -/
inductive Episode.Accounts (episode : Episode) (page : Nat) : Prop where
  /-- The page has got a reference, the same as itself. -/
  | covered (hcovers : episode.covers page = true) {content : Bytes}
    (hstored : episode.next.array.pages[page]? = some content)
    (hreference : episode.next.array.reference[page]? = some content)
  /-- The page has been rewritten, and has no reference. -/
  | uncovered (hcovers : episode.covers page = false) (hrewrites : episode.rewrites page = true)
    (hreference : episode.next.array.reference[page]? = none)
  /-- Bits of the page may have been flipped, and the reference is as before. -/
  | flipped (hrewrites : episode.rewrites page = false)
    (hreference : episode.next.array.reference[page]? = episode.device.array.reference[page]?)
    (hstored : ∀ content, episode.device.array.pages[page]? = some content →
      ∃ flipped, episode.next.array.pages[page]? = some flipped ∧ ∀ offset < content.size,
        flipped.getD offset 0 = content.getD offset 0 ^^^ episode.flip page offset)

namespace Episode

variable {device next : Device}

/-- Only a program gives a page a reference. -/
theorem covers_le (episode : Episode) {page : Nat} (h : episode.covers page = true) :
    episode.programs page = true := by
  rw [covers, decide_eq_true_eq] at h
  exact h.1

/-- An episode that leaves a page and its reference alone. -/
theorem accounts_of_eq {episode : Episode} {page : Nat} (hrewrites : episode.rewrites page = false)
    (hpages : episode.next.array.pages[page]? = episode.device.array.pages[page]?)
    (hreference : episode.next.array.reference[page]? = episode.device.array.reference[page]?)
    (hflip : ∀ offset, episode.flip page offset = 0) : episode.Accounts page := by
  refine .flipped hrewrites hreference fun content hcontent => ?_
  refine ⟨content, hpages.trans hcontent, fun offset _ => ?_⟩
  rw [hflip, UInt8.xor_zero]

/-- A flip of bits in one byte. -/
theorem getD_modify (content : Bytes) (row offset : Nat) (mask : UInt8)
    (h : offset < content.size) :
    (content.modify row (· ^^^ mask)).getD offset 0 =
      content.getD offset 0 ^^^ if offset = row then mask else 0 := by
  rw [Array.getD_eq_getD_getElem?, Array.getD_eq_getD_getElem?, Array.getElem?_modify,
    Array.getElem?_eq_getElem h]
  by_cases hrow : row = offset
  · rw [if_pos hrow, if_pos hrow.symm]
    rfl
  · rw [if_neg hrow, if_neg (Ne.symm hrow)]
    exact UInt8.xor_zero.symm

/-- An injection flips the bits of its mask, and leaves every reference alone. -/
theorem accounts_of_inject {incident : Incident} {page row column : Nat} {mask : UInt8}
    (hnext : next = device.inject row column mask)
    (hrewrites : (⟨device, incident, next⟩ : Episode).rewrites page = false)
    (hflip : ∀ offset, (⟨device, incident, next⟩ : Episode).flip page offset =
      if page = row ∧ offset = column then mask else 0) :
    (⟨device, incident, next⟩ : Episode).Accounts page := by
  subst hnext
  refine .flipped hrewrites rfl fun content hcontent => ?_
  by_cases hrow : page = row
  · subst hrow
    refine ⟨content.modify column (· ^^^ mask), ?_, fun offset hoffset => ?_⟩
    · show (device.array.inject _ _ _ _).pages[page]? = _
      rw [FlashArray.pages_inject, if_pos rfl, FlashArray.content, hcontent]
      rfl
    · rw [hflip, getD_modify _ _ _ _ hoffset]
      simp only [true_and]
  · refine ⟨content, ?_, fun offset _ => ?_⟩
    · show (device.array.inject _ _ _ _).pages[page]? = _
      rw [FlashArray.pages_inject, if_neg hrow]
      exact hcontent
    · rw [hflip, if_neg fun h => hrow h.1, UInt8.xor_zero]

variable {access : Access}

/-- A program goes to the page that has been collected, if there is such a page. -/
theorem programs_iff {page : Nat} (hcommand : access.command? device = some .program ∨
    access.command? device = some .programCached) :
    (⟨device, .onBus access, next⟩ : Episode).programs page = true ↔
      ∃ pending, device.latches.pending = some pending ∧ pending.row = page ∧
        page < device.chip.pageCount := by
  simp only [programs, decide_eq_true_eq]
  exact ⟨fun h => h.2, fun h => ⟨hcommand, h⟩⟩

/-- Other commands rewrite no page, and neither do other accesses. -/
theorem rewrites_of_other {page : Nat}
    (hother : ∀ command ∈ Device.changers, access.command? device ≠ some command) :
    (⟨device, .onBus access, next⟩ : Episode).rewrites page = false := by
  have hprograms : (⟨device, .onBus access, next⟩ : Episode).programs page = false := by
    refine decide_eq_false fun h => ?_
    rcases h.1 with hcommand | hcommand
    · exact hother _ (by decide) hcommand
    · exact hother _ (by decide) hcommand
  have herases : (⟨device, .onBus access, next⟩ : Episode).erases page = false :=
    decide_eq_false fun h => hother _ (by decide) h.1
  rw [rewrites, hprograms, herases]
  rfl

/-- A program erases nothing. -/
theorem rewrites_of_program {page : Nat} (hcommand : access.command? device = some .program ∨
    access.command? device = some .programCached) :
    (⟨device, .onBus access, next⟩ : Episode).rewrites page =
      (⟨device, .onBus access, next⟩ : Episode).programs page := by
  have herases : (⟨device, .onBus access, next⟩ : Episode).erases page = false := by
    have hnot : access.command? device ≠ some .erase := by
      rcases hcommand with hcommand | hcommand <;> rw [hcommand] <;> decide
    exact decide_eq_false fun herase => hnot herase.1
  rw [rewrites, herases, Bool.or_false]
  exact Bool.or_false _

/-- The page that a program is for. -/
theorem accounts_of_programmed {pending : PendingProgram}
    (hcommand : access.command? device = some .program ∨
      access.command? device = some .programCached)
    (hpending : device.latches.pending = some pending)
    (hin : pending.row < device.chip.pageCount)
    (harray : next.array = device.array.program device.chip.rawLen pending.row pending.buffer
      (pending.ecc && !device.array.failing.contains
        (pending.row / device.chip.pagesPerBlock))) :
    (⟨device, .onBus access, next⟩ : Episode).Accounts pending.row := by
  have hprograms : (⟨device, .onBus access, next⟩ : Episode).programs pending.row = true :=
    (programs_iff hcommand).2 ⟨pending, hpending, rfl, hin⟩
  -- The page is covered exactly if the ECC stage is on and the block takes the program.
  have hcovers : (⟨device, .onBus access, next⟩ : Episode).covers pending.row = (pending.ecc &&
      !device.array.failing.contains (pending.row / device.chip.pagesPerBlock)) := by
    rw [Bool.eq_iff_iff, covers, decide_eq_true_eq]
    simp [hprograms, hpending]
  have hstored : next.array.pages[pending.row]? =
      some (FlashArray.merge (device.rawPage pending.row) pending.buffer) := by
    rw [harray, FlashArray.pages_program, if_pos rfl]
    rfl
  have hreference : next.array.reference[pending.row]? =
      if (⟨device, .onBus access, next⟩ : Episode).covers pending.row = true then
        some (FlashArray.merge (device.rawPage pending.row) pending.buffer) else none := by
    rw [harray, FlashArray.reference_program, if_pos rfl, hcovers]
    rfl
  cases hcovered : (⟨device, .onBus access, next⟩ : Episode).covers pending.row with
  | true =>
    rw [hcovered, if_pos rfl] at hreference
    exact .covered hcovered hstored hreference
  | false =>
    rw [hcovered, if_neg Bool.false_ne_true] at hreference
    exact .uncovered hcovered ((rewrites_of_program hcommand).trans hprograms) hreference

/-- A program gives its page a reference, or takes it away, and leaves the others alone. -/
theorem accounts_of_program {page : Nat} (h : access.run device = .ok next)
    (hcommand : access.command? device = some .program ∨
      access.command? device = some .programCached) :
    (⟨device, .onBus access, next⟩ : Episode).Accounts page := by
  have hrewrites : (⟨device, .onBus access, next⟩ : Episode).rewrites page =
      (⟨device, .onBus access, next⟩ : Episode).programs page := rewrites_of_program hcommand
  -- Without a page to program on the chip, the command leaves the array as it is.
  rcases ((Device.AfterAccess.of_run h).programmed hcommand).cases with
    ⟨harray, -, hout⟩ | ⟨pending, hpending, hin, harray⟩
  · refine accounts_of_eq ?_ (congrArg (·.pages[page]?) harray)
      (congrArg (·.reference[page]?) harray) fun _ => rfl
    rw [hrewrites, Bool.eq_false_iff, ne_eq, programs_iff hcommand]
    rintro ⟨pending, hpending, rfl, hlt⟩
    exact absurd hlt (Nat.not_lt.2 (hout pending hpending))
  · by_cases hrow : page = pending.row
    · rw [hrow]
      exact accounts_of_programmed hcommand hpending hin harray
    · refine accounts_of_eq ?_ ?_ ?_ fun _ => rfl
      · rw [hrewrites, Bool.eq_false_iff, ne_eq, programs_iff hcommand]
        rintro ⟨pending', hpending', hrow', -⟩
        cases hpending.symm.trans hpending'
        exact hrow hrow'.symm
      · show next.array.pages[page]? = _
        rw [harray, FlashArray.pages_program, if_neg hrow]
      · show next.array.reference[page]? = _
        rw [harray, FlashArray.reference_program, if_neg hrow]

/-- An erase reaches the pages of one block, unless the block fails. -/
theorem erases_iff {page : Nat} (hcommand : access.command? device = some .erase) :
    (⟨device, .onBus access, next⟩ : Episode).erases page = true ↔
      device.latches.row / device.chip.pagesPerBlock < device.chip.blocks ∧
        device.array.failing.contains (device.latches.row / device.chip.pagesPerBlock) = false ∧
        page / device.chip.pagesPerBlock = device.latches.row / device.chip.pagesPerBlock := by
  simp only [erases, decide_eq_true_eq]
  exact ⟨fun h => h.2, fun h => ⟨hcommand, h⟩⟩

theorem programs_of_erase {page : Nat} (hcommand : access.command? device = some .erase) :
    (⟨device, .onBus access, next⟩ : Episode).programs page = false := by
  refine decide_eq_false fun h => ?_
  rcases h.1 with hprogram | hprogram <;> cases hcommand.symm.trans hprogram

/-- An erase takes the references of its block away. -/
theorem accounts_of_erase {page : Nat} (h : access.run device = .ok next)
    (hcommand : access.command? device = some .erase) :
    (⟨device, .onBus access, next⟩ : Episode).Accounts page := by
  have herased := (Device.AfterAccess.of_run h).erased hcommand
  have hprograms : (⟨device, .onBus access, next⟩ : Episode).programs page = false :=
    programs_of_erase hcommand
  have hcovers : (⟨device, .onBus access, next⟩ : Episode).covers page = false :=
    decide_eq_false fun h => absurd h.1 (Bool.eq_false_iff.1 hprograms)
  have hrewrites : (⟨device, .onBus access, next⟩ : Episode).rewrites page =
      (⟨device, .onBus access, next⟩ : Episode).erases page := by
    rw [rewrites, hprograms, Bool.false_or]
    exact Bool.or_false _
  have hcases := herased.cases
  -- A block that does not exist or is worn out is left as it is.
  by_cases hrefused : device.chip.blocks ≤ device.latches.row / device.chip.pagesPerBlock ∨
      device.array.failing.contains (device.latches.row / device.chip.pagesPerBlock) = true
  · have harray := ((if_pos hrefused).mp hcases).1
    refine accounts_of_eq ?_ (congrArg (·.pages[page]?) harray)
      (congrArg (·.reference[page]?) harray) fun _ => rfl
    rw [hrewrites, Bool.eq_false_iff, ne_eq, erases_iff hcommand]
    rintro ⟨hlt, hsound, -⟩
    rcases hrefused with hle | hworn
    · omega
    · exact absurd hworn (Bool.eq_false_iff.1 hsound)
  · have harray := (if_neg hrefused).mp hcases
    rw [not_or] at hrefused
    have herases : (⟨device, .onBus access, next⟩ : Episode).erases page = true ↔
        page / device.chip.pagesPerBlock = device.latches.row / device.chip.pagesPerBlock := by
      rw [erases_iff hcommand, and_iff_right (Nat.lt_of_not_le hrefused.1),
        and_iff_right (Bool.eq_false_iff.2 hrefused.2)]
    have hrange := (herased.mem_block_iff page).trans herases.symm
    cases hblock : (⟨device, .onBus access, next⟩ : Episode).erases page with
    | true =>
      refine .uncovered hcovers (hrewrites.trans hblock) ?_
      show next.array.reference[page]? = _
      rw [harray, FlashArray.reference_erase, if_pos (hrange.2 hblock)]
    | false =>
      have hout := mt hrange.1 (Bool.eq_false_iff.1 hblock)
      refine accounts_of_eq (hrewrites.trans hblock) ?_ ?_ fun _ => rfl
      · show next.array.pages[page]? = _
        rw [harray, FlashArray.pages_erase, if_neg hout]
      · show next.array.reference[page]? = _
        rw [harray, FlashArray.reference_erase, if_neg hout]

/-- What any episode does to a page, whatever it is. -/
theorem accounts_of_run {incident : Incident} (h : incident.run device = .ok next) (page : Nat) :
    (⟨device, incident, next⟩ : Episode).Accounts page := by
  -- Commands, injections and loads account for a page; nothing else touches the array.
  cases incident with
  | onBus access =>
    rcases Device.cases_of_command (access.command? device) with hprogram | herase | hother
    · exact accounts_of_program h hprogram
    · exact accounts_of_erase h herase
    · have harray := (Device.AfterAccess.of_run h).array_eq hother
      exact accounts_of_eq (rewrites_of_other hother) (congrArg (·.pages[page]?) harray)
        (congrArg (·.reference[page]?) harray) fun _ => rfl
  | inject row column mask =>
    cases h
    exact accounts_of_inject rfl rfl fun _ => rfl
  | markFactoryBad block =>
    obtain ⟨row, hrow, h⟩ := exists_of_bind_eq_ok h
    obtain ⟨-, rfl⟩ := word32_eq_ok.1 hrow
    exact accounts_of_inject (Except.ok.inj h).symm rfl fun _ => rfl
  | load source =>
    obtain ⟨⟨outcome, last, rest⟩, hload, rfl⟩ := exists_of_map_eq_ok h
    obtain ⟨pages, -, hload⟩ := exists_of_bind_eq_ok hload
    cases hload
    refine .uncovered ?_ ?_ ((Device.reference_loadPages page).trans ?_)
    · exact decide_eq_false fun h => by
        have hnone := (decide_eq_true_eq.mp h.1).1
        rcases hnone with hnone | hnone <;> cases hnone
    · exact Bool.or_true _
    · exact Std.ExtTreeMap.getElem?_empty
  | wearOut | setHang | setPowerOn | clearLog | present | setFieldStatus | setWindow =>
    cases h
    exact accounts_of_eq rfl rfl rfl fun _ => rfl

end Episode

/-! ## Whole histories -/

namespace History

variable {past : List Episode} {device : Device}

/-- A page has a reference if and only if the last thing that rewrote it was a program with ECC in a
sound block. The page is then stored, and differs from the reference by what has been flipped since,
byte by byte. -/
structure IsExact (past : List Episode) (device : Device) (page : Nat) : Prop where
  isSome_eq : device.array.reference[page]?.isSome = isCovered page past
  flips_eq : ∀ reference, device.array.reference[page]? = some reference →
    ∃ content, device.array.pages[page]? = some content ∧
      content.size = device.chip.rawLen ∧ reference.size = device.chip.rawLen ∧
      ∀ offset < device.chip.rawLen,
        content.getD offset 0 ^^^ reference.getD offset 0 = flips page offset past

/-- Every page that is stored is as long as the chip says. -/
theorem size_of_stored (h : device.Reachable) {page : Nat} {content : Bytes}
    (hstored : device.array.pages[page]? = some content) : content.size = device.chip.rawLen := by
  have hsize : (device.rawPage page).size = device.chip.rawLen := h.isWhole.flash page
  rw [Device.rawPage, FlashArray.content, hstored] at hsize
  exact hsize

/-- By induction on the history, one episode at a time. -/
theorem isExact (h : History past device) (page : Nat) : IsExact past device page := by
  induction h with
  | @new chip device h =>
    obtain ⟨rawLen, -, h⟩ := exists_of_bind_eq_ok h
    cases h
    have hnone : FlashArray.blank.reference[page]? = none := Std.ExtTreeMap.getElem?_empty
    exact ⟨congrArg Option.isSome hnone, fun _ hsome => nomatch hnone.symm.trans hsome⟩
  | @next past device next hpast incident hrun ih =>
    have hreachable := (hpast.next incident hrun).reachable
    have hchip := Incident.chip_eq hrun
    -- What the last incident has done to the page decides on what is known of its past.
    cases Episode.accounts_of_run hrun page with
    | covered hcovers hstored hreference =>
      have hprograms := Episode.covers_le _ hcovers
      refine ⟨?_, fun reference hsome => ?_⟩
      · simp only [isCovered, Episode.rewrites, hprograms, Bool.true_or, if_true, hcovers]
        exact congrArg Option.isSome hreference
      · cases hreference.symm.trans hsome
        have hsize := size_of_stored hreachable hstored
        refine ⟨_, hstored, hsize, hsize, fun offset _ => ?_⟩
        simp only [flips, hcovers, if_true, UInt8.xor_self]
    | uncovered hcovers hrewrites hreference =>
      refine ⟨?_, fun _ hsome => nomatch hreference.symm.trans hsome⟩
      simp only [isCovered, hrewrites, if_true, hcovers]
      exact congrArg Option.isSome hreference
    | flipped hrewrites hreference hstored =>
      have hcovers : (⟨device, incident, next⟩ : Episode).covers page = false := by
        rw [Bool.eq_false_iff]
        intro hcovers
        rw [Episode.rewrites, Episode.covers_le _ hcovers] at hrewrites
        cases hrewrites
      refine ⟨?_, fun reference hsome => ?_⟩
      · simp only [isCovered, hrewrites, Bool.false_eq_true, if_false]
        exact (congrArg Option.isSome hreference).trans ih.isSome_eq
      · obtain ⟨content, hcontent, hsize, hreferenceSize, hflips⟩ :=
          ih.flips_eq reference (hreference.symm.trans hsome)
        obtain ⟨flipped, hflipped, hbytes⟩ := hstored content hcontent
        have hnext : next.chip.rawLen = device.chip.rawLen := by rw [hchip]
        refine ⟨flipped, hflipped, size_of_stored hreachable hflipped,
          hreferenceSize.trans hnext.symm, fun offset hoffset => ?_⟩
        rw [hnext] at hoffset
        simp only [flips, hcovers, Bool.false_eq_true, if_false]
        rw [hbytes offset (hsize ▸ hoffset), ← hflips offset hoffset, ← UInt8.xor_assoc]
        congr 1
        exact UInt8.xor_comm _ _

/-! ### Pages that nothing was injected into -/

/-- Was a page programmed, and has nothing been flipped in it since? -/
def Untouched (page : Nat) : List Episode → Prop
  | [] => False
  | episode :: past => episode.programs page = true ∨
      (∀ offset < episode.device.chip.rawLen, episode.flip page offset = 0) ∧ Untouched page past

/-- Nothing was flipped in a page since it was last programmed, if it ever was. -/
def IsClean (page : Nat) (past : List Episode) : Prop :=
  (∀ episode ∈ past, episode.programs page = false) ∨ Untouched page past

/-- A page with a reference has been programmed. -/
theorem exists_programs_of_isCovered {page : Nat} (h : isCovered page past = true) :
    ∃ episode ∈ past, episode.programs page = true := by
  induction past with
  | nil => cases h
  | cons episode past ih =>
    simp only [isCovered] at h
    split at h
    · exact ⟨episode, List.mem_cons_self, episode.covers_le h⟩
    · obtain ⟨earlier, hmem, hprograms⟩ := ih h
      exact ⟨earlier, List.mem_cons_of_mem _ hmem, hprograms⟩

/-- Without an injection no bit is flipped. -/
theorem flips_eq_zero {page : Nat} (h : History past device) (hcovered : isCovered page past = true)
    (huntouched : Untouched page past) :
    ∀ offset < device.chip.rawLen, flips page offset past = 0 := by
  induction h with
  | new => cases hcovered
  | @next past device next hpast incident hrun ih =>
    rw [Incident.chip_eq hrun]
    intro offset hoffset
    simp only [flips]
    split
    · rfl
    · next hcovers =>
      simp only [isCovered] at hcovered
      split at hcovered
      · exact absurd hcovered hcovers
      · next hrewrites =>
        rcases huntouched with hprograms | ⟨hflip, huntouched⟩
        · exact absurd (by rw [Episode.rewrites, hprograms]; rfl) hrewrites
        · rw [hflip offset hoffset, ih hcovered huntouched offset hoffset, UInt8.xor_self]

/-- A clean page has no reference, or one that it does not differ from. -/
theorem IsClean.reference_eq {page : Nat} (hclean : IsClean page past) (h : History past device) :
    device.flash.reference page = none ∨
      device.flash.reference page = some (device.flash.content page) := by
  have hexact := h.isExact page
  show device.array.reference[page]? = none ∨
    device.array.reference[page]? = some (device.array.content device.chip.rawLen page)
  cases hreference : device.array.reference[page]? with
  | none => exact .inl rfl
  | some reference =>
    have hcovered : isCovered page past = true := by
      rw [← hexact.isSome_eq, hreference]
      rfl
    obtain ⟨content, hcontent, hsize, hreferenceSize, hflips⟩ := hexact.flips_eq _ hreference
    -- A page that no program has covered has no reference, and one without flips is its own.
    rcases hclean with hnever | huntouched
    · obtain ⟨episode, hmem, hprograms⟩ := exists_programs_of_isCovered hcovered
      rw [hnever episode hmem] at hprograms
      cases hprograms
    · refine .inr (congrArg some ?_)
      rw [FlashArray.content, hcontent, Option.getD_some]
      refine Array.ext (hreferenceSize.trans hsize.symm) fun offset hlt hlt' => ?_
      have hzero := hflips offset (hsize ▸ hlt')
      rw [flips_eq_zero h hcovered huntouched offset (hsize ▸ hlt'), UInt8.xor_eq_zero_iff,
        Array.getD_eq_getD_getElem?, Array.getD_eq_getD_getElem?, Array.getElem?_eq_getElem hlt,
        Array.getElem?_eq_getElem hlt'] at hzero
      exact hzero.symm

/-- What injects nothing into a clean page leaves it clean. -/
theorem IsClean.append {page : Nat} {run : List Episode} (h : IsClean page past)
    (hflip : ∀ episode ∈ run, ∀ offset, episode.flip page offset = 0) :
    IsClean page (run ++ past) := by
  induction run with
  | nil => exact h
  | cons episode run ih =>
    have hrest := ih fun other hmem => hflip other (List.mem_cons_of_mem _ hmem)
    cases hprograms : episode.programs page with
    | true => exact .inr (.inl hprograms)
    | false =>
      rcases hrest with hnever | huntouched
      · refine .inl fun other hmem => ?_
        rcases List.mem_cons.1 hmem with rfl | hmem
        · exact hprograms
        · exact hnever other hmem
      · exact .inr (.inr ⟨fun offset _ => hflip episode List.mem_cons_self offset, huntouched⟩)

end History

end NandFlash.Sim
