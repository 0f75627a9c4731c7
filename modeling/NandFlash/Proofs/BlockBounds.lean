import NandFlash.Proofs.AnyBus.PageRanges
import NandFlash.Proofs.AnyBus.Session
import NandFlash.Proofs.Sim.Blocks
import NandFlash.Proofs.SideBySide.Recording
import NandFlash.Proofs.SideBySide.Surface

/-!
# The bounds of a block

Reads and programs of part of a block stay within it. A request that goes beyond the block is
refused before the bus is touched, and one that is granted addresses no page but its own. The sum
that decides on this is one of 32 bits, though: a request for pages that begin or end near `2 ^ 32`
crashes where it should be refused, and one for `2 ^ 32` pages or more is taken for a shorter one.
-/

namespace NandFlash

open Sim BusEvent Monitor

namespace Block

variable {β : Type} [Bus β] {block : Block} {start : Nat} {buffer : Bytes}

/-! ## Loops that end -/

section

variable {clock : β → Nat} (answers : Bus.Answers clock) {limit : Nat} {profile : Profile}
  (hpoll : profile.poll.Reaches limit) (hsettled : profile.Settled)

include answers hpoll hsettled

/-- Pages are read one by one, by induction on the pages. -/
theorem keeps_readPages (g : Geometry) (buffer : Bytes) (pages : List (Nat × Nat)) :
    Keeps (Controller.ticks clock) ((1086 * limit + 1129 + 3 * windowLen) * pages.length)
      (Controller.Ready profile) (readPages (β := β) g buffer pages) Any := by
  induction pages with
  | nil => exact .pure trivial
  | cons entry pages ih =>
    rw [List.length_cons, Nat.mul_succ, Nat.add_comm]
    refine Keeps.bind (Controller.keeps_readPage answers hpoll hsettled entry.1 _ _)
      fun result _ => ?_
    rcases result with ⟨_ | _, data, spare⟩
    · exact .pure trivial
    · exact (Keeps.bind (n := 0) ih fun _ _ => .pure trivial).le (Nat.le_refl _)

theorem keeps_readAt (g : Geometry) (buffer : Bytes) (pages : List Nat) :
    Keeps (Controller.ticks clock) ((1086 * limit + 1129 + 3 * windowLen) * pages.zipIdx.length)
      (Controller.Ready profile) (readAt (β := β) g buffer pages) Any :=
  Keeps.bind (n := 0) (keeps_readPages answers hpoll hsettled g buffer _) fun _ _ => .pure trivial

/-- Pages are programmed one by one, but for those that would stay erased. -/
theorem ends_programPages (g : Geometry) (content : Bytes) (pages : List (Nat × Nat)) :
    Ends (Controller.ticks clock) ((7 * limit + 62 + 2 * windowLen) * pages.length)
      (Controller.Ready profile) (programPages (β := β) g content pages) Any := by
  induction pages with
  | nil => exact .pure trivial
  | cons entry pages ih =>
    rw [List.length_cons, Nat.mul_succ, Nat.add_comm]
    by_cases herased : (content.piece g.pageBytes entry.2).isErased = true
    · simp only [programPages, herased, if_true]
      exact Ends.le ih (Nat.le_add_left _ _)
    · simp only [programPages, herased]
      refine Ends.bind (.perform (Controller.keeps_writePage answers hpoll hsettled entry.1 _ _))
        fun result _ => ?_
      rcases result with ⟨_ | _, spare⟩
      · exact .throw
      · exact ih

end

/-! ## What a request comes to -/

section

variable {controller : Controller (Monitor β)} {pages : List Nat}

/-- A read and a program of these pages are refused, and nothing has gone over the bus. -/
structure Refuses (block : Block) (controller : Controller (Monitor β)) (start : Nat)
    (buffer : Bytes) (refusal : Refusal) : Prop where
  read_eq : (block.read start buffer).run controller =
    .ok ((.error (.refused refusal), buffer), controller)
  program_eq : (block.program start buffer).run.run controller =
    .ok (.error (.refused refusal), controller)

/-- A read and a program work on the given pages one after the other. What they leave on record
when they return is confined to these pages, and they do return if the device answers and every
wait has a limit. -/
structure Grants (block : Block) (controller : Controller (Monitor β)) (start : Nat)
    (buffer : Bytes) (pages : List Nat) : Prop where
  read_eq : (block.read start buffer).run controller =
    (readAt controller.profile.geometry buffer pages).run controller
  program_eq : (block.program start buffer).run.run controller =
    (programPages controller.profile.geometry buffer pages.zipIdx).run.run controller
  read_confined : ∀ {result next}, (block.read start buffer).run controller = .ok (result, next) →
    Logged (Confined controller.profile.chip.rowCycles pages) next.channel.bus
  program_confined : ∀ {result next},
    (block.program start buffer).run.run controller = .ok (result, next) →
    Logged (Confined controller.profile.chip.rowCycles pages) next.channel.bus
  returns : ∀ {clock : β → Nat} {limit : Nat}, Bus.Answers clock →
    controller.profile.poll.Reaches limit →
    (∃ result next, (block.read start buffer).run controller = .ok (result, next)) ∧
      ∃ result next, (block.program start buffer).run.run controller = .ok (result, next)

variable (hsettled : controller.profile.Settled)
  (hready : Controller.Ready controller.profile controller)
  (hrecorded : controller.channel.bus.recorded = some #[])

include hsettled hready hrecorded

theorem grants_of_pagesFor (hpages : (block.pagesFor start buffer.size).run.run controller =
    .ok (.ok pages, controller)) : block.Grants controller start buffer pages := by
  have hadmits := Monitor.admits (β := β) controller.profile pages
  -- The run is set beside itself: what two runs in step agree on holds of the record of the one.
  have hpaired : Controller.Paired controller.profile
      (Twice (Logged (Confined controller.profile.chip.rowCycles pages))) controller controller :=
    ⟨rfl, rfl, ⟨rfl, rfl, #[], hrecorded, .nil⟩, hready.size_eq, rfl, rfl⟩
  have hmem : ∀ entry ∈ pages.zipIdx, entry.1 ∈ pages :=
    fun entry hentry => List.fst_mem_of_mem_zipIdx hentry
  refine ⟨run_read hpages, run_program hpages, ?_, ?_, ?_⟩
  · intro result next hrun
    have hinStep := inStep_readPages controller.profile.geometry buffer fun entry hentry =>
      Controller.inStep_readPage hadmits hsettled (.inl trivial)
        (hmem entry hentry)
    have hreadAt : InStep Any _ (readAt controller.profile.geometry buffer pages)
        (readAt controller.profile.geometry buffer pages) Any :=
      hinStep.next fun _ => .pure trivial
    rw [run_read hpages] at hrun
    obtain ⟨_, -, hend, -⟩ := hreadAt.exists_of_run hpaired hrun
    exact hend.channel.bus.2
  · intro result next hrun
    have hinStep := inStep_programPages controller.profile.geometry buffer fun entry hentry =>
      Controller.inStep_writePage hadmits hsettled (.inl trivial)
        (hmem entry hentry)
    rw [run_program hpages] at hrun
    obtain ⟨_, -, hend⟩ := hinStep.parallel_any.exists_of_run hpaired hrun
    cases result <;> exact hend.channel.bus.2
  · intro clock limit answers hpoll
    have hmonitor := Monitor.answers answers
    obtain ⟨result, next, hread, -⟩ := keeps_readAt hmonitor hpoll hsettled
      controller.profile.geometry buffer pages controller hready
    obtain ⟨result', next', hprogram, -⟩ := ends_programPages hmonitor hpoll hsettled
      controller.profile.geometry buffer pages.zipIdx controller hready
    exact ⟨⟨result, next, (run_read hpages).trans hread⟩, result', next',
      (run_program hpages).trans hprogram⟩

omit [Bus β] hsettled hready hrecorded in
/-- The pages of a range that ends within a block are pages of the block. -/
theorem mem_range'_of_block {index pagesPerBlock blocks count page : Nat} (hindex : index < blocks)
    (hstop : start + count ≤ pagesPerBlock)
    (hpage : page ∈ List.range' (index * pagesPerBlock + start) count) :
    page / pagesPerBlock = index ∧ page < blocks * pagesPerBlock := by
  obtain ⟨hle, hlt⟩ := List.mem_range'_1.1 hpage
  have hlast := Profile.Laid.add_le hindex hstop
  refine ⟨?_, by omega⟩
  obtain ⟨k, rfl⟩ := Nat.exists_eq_add_of_le (Nat.le_trans (Nat.le_add_right _ start) hle)
  rw [Nat.mul_comm, Nat.mul_add_div (by omega), Nat.div_eq_of_lt (by omega), Nat.add_zero]

/-! ## The bounds check -/

/-- As long as the sum of the first page and the number of pages fits 32 bits, the bounds check is
exact: a buffer that is not a whole number of pages is refused, so is one that goes beyond the
block, neither with an access to the bus, and any other one is granted the pages of the block that
it asks for, and no others. Where the sum does not fit, the number of pages is cut to 32 bits first.
The run crashes if the sum still does not fit, and else the request is treated as one for fewer
pages. -/
theorem bounds_hold_while_sum_fits {blocks pagesPerBlock : Nat}
    (hblocks : controller.profile.chip.blocks = .ok blocks)
    (hpagesPerBlock : controller.profile.chip.pagesPerBlock = .ok pagesPerBlock)
    (hindex : block.index < blocks) (start : Nat) (buffer : Bytes) :
    let length := controller.profile.geometry.pageBytes
    let count := buffer.size / length
    let pages := List.range' (block.index * pagesPerBlock + start)
    (buffer.size % length ≠ 0 → block.Refuses controller start buffer .partialPage) ∧
    (buffer.size % length = 0 →
      (start + count ≤ pagesPerBlock → block.Grants controller start buffer (pages count) ∧
        ∀ page ∈ pages count,
          page / pagesPerBlock = block.index ∧ page < blocks * pagesPerBlock) ∧
      (pagesPerBlock < start + count → start + count < UInt32.size →
        block.Refuses controller start buffer
          (.beyondBlock block.index start (start + count))) ∧
      (UInt32.size ≤ start + count →
        let short := count % UInt32.size
        (UInt32.size ≤ start + short →
          (block.read start buffer).run controller = .error .arithmetic ∧
            (block.program start buffer).run.run controller = .error .arithmetic) ∧
        (pagesPerBlock < start + short → start + short < UInt32.size →
          block.Refuses controller start buffer
            (.beyondBlock block.index start (start + short))) ∧
        (start + short ≤ pagesPerBlock →
          block.Grants controller start buffer (pages short)))) := by
  intro length count pages
  have hlaid := hsettled.laid hblocks hpagesPerBlock
  refine ⟨fun hpartial => ?_, fun hwhole => ⟨fun hstop => ?_, fun hbeyond hword => ?_,
    fun hover => ⟨fun hcrash => ?_, fun hbeyond hword => ?_, fun hstop => ?_⟩⟩⟩
  · have hpages := run_pagesFor_partial hlaid block start hpartial
    exact ⟨run_read_error hpages, run_program_error hpages⟩
  · -- A number of pages within the block is one of 32 bits, since all pages of the chip are.
    have hfits : count % UInt32.size = count := by
      have := Profile.Laid.add_le hindex hstop
      have := hlaid.pages_lt
      exact Nat.mod_eq_of_lt (by omega)
    have hpages := run_pagesFor hlaid block start ⟨hwhole, hfits⟩ hindex hstop
    exact ⟨grants_of_pagesFor hsettled hready hrecorded hpages,
      fun page => mem_range'_of_block hindex hstop⟩
  · have hfits : count % UInt32.size = count := Nat.mod_eq_of_lt (by omega)
    have hpages := run_pagesFor_beyond hlaid block start ⟨hwhole, hfits⟩ hword hbeyond
    exact ⟨run_read_error hpages, run_program_error hpages⟩
  · have hpages := run_pagesFor_overflow hlaid block start ⟨hwhole, rfl⟩ hcrash
    exact ⟨run_read_crash hpages, run_program_crash hpages⟩
  · have hpages := run_pagesFor_beyond hlaid block start ⟨hwhole, rfl⟩ hword hbeyond
    exact ⟨run_read_error hpages, run_program_error hpages⟩
  · exact grants_of_pagesFor hsettled hready hrecorded
      (run_pagesFor hlaid block start ⟨hwhole, rfl⟩ hindex hstop)

end

/-- On a device that answers nothing but zeros: the last two pages of a block, one page more than
that, less than a page, and a page at the end of all numbers. -/
theorem bounds_hold_while_sum_fits_last_pages : ∃ controller : Controller (Monitor Erratic),
    controller.profile.Settled ∧ Controller.Ready controller.profile controller ∧
    controller.channel.bus.recorded = some #[] ∧
    controller.profile.chip.blocks = .ok 1024 ∧ controller.profile.chip.pagesPerBlock = .ok 64 ∧
    let block : Block := ⟨3⟩
    let twoPages := Bytes.filled 4096 0
    block.index < 1024 ∧
    block.Grants controller 62 twoPages [254, 255] ∧
    block.Refuses controller 63 twoPages (.beyondBlock 3 63 65) ∧
    block.Refuses controller 63 (Bytes.filled 100 0) .partialPage ∧
    (block.read 4294967295 twoPages).run controller = .error .arithmetic := by
  obtain ⟨controller, hcontroller⟩ : ∃ controller : Controller (Monitor Erratic), controller =
      Controller.start (Controller.smallProfile ⟨some 5⟩)
        ⟨⟨0, fun _ _ => 0⟩, some #[], []⟩ := ⟨_, rfl⟩
  have hprofile : controller.profile = Controller.smallProfile ⟨some 5⟩ := by rw [hcontroller]; rfl
  have hsettled : controller.profile.Settled :=
    hprofile ▸ Controller.settled_smallProfile ⟨some 5⟩
  have hready : Controller.Ready controller.profile controller := by
    rw [hcontroller]
    exact Controller.ready_start _ _
  have hrecorded : controller.channel.bus.recorded = some #[] := by rw [hcontroller]; rfl
  have hblocks : controller.profile.chip.blocks = .ok 1024 := by rw [hprofile]; rfl
  have hpagesPerBlock : controller.profile.chip.pagesPerBlock = .ok 64 := by rw [hprofile]; rfl
  have hlength : controller.profile.geometry.pageBytes = 2048 := by rw [hprofile]; rfl
  have hcheck := bounds_hold_while_sum_fits hsettled hready hrecorded hblocks hpagesPerBlock
    (show (⟨3⟩ : Block).index < 1024 by decide)
  have hwhole : (Bytes.filled 4096 0).size % controller.profile.geometry.pageBytes = 0 := by
    rw [hlength, Bytes.size_filled]
  have hcount : (Bytes.filled 4096 0).size / controller.profile.geometry.pageBytes = 2 := by
    rw [hlength, Bytes.size_filled]
  obtain ⟨-, hgranted⟩ := hcheck 62 (Bytes.filled 4096 0)
  obtain ⟨-, hrefused⟩ := hcheck 63 (Bytes.filled 4096 0)
  obtain ⟨-, hcrashed⟩ := hcheck 4294967295 (Bytes.filled 4096 0)
  simp only [hcount] at hgranted hrefused hcrashed
  refine ⟨controller, hsettled, hready, hrecorded, hblocks, hpagesPerBlock, by decide,
    ((hgranted hwhole).1 (by decide)).1, (hrefused hwhole).2.1 (by decide) (by decide),
    (hcheck 63 (Bytes.filled 100 0)).1 ?_, (((hcrashed hwhole).2.2 (by decide)).1 (by decide)).1⟩
  rw [hlength, Bytes.size_filled]
  decide

/-- A good block of a fresh K9F1G08 does not refuse the last page that a number of 32 bits can name,
it crashes on it. -/
theorem sum_overflows_k9f1g08 : ∃ controller : Controller Device, controller.InUse ∧
    controller.drive = ⟨Controller.smallProfile ⟨some 20⟩, Chip.k9f1g08,
      FlashArray.blank.flash Chip.k9f1g08.rawLen, false, ⟨0, 0⟩⟩ ∧
    ∃ (block : Block) (ready : Controller Device),
      (Controller.block? 0).run.run controller = .ok (.ok (some block), ready) ∧
      let start := 4294967295
      let page := Bytes.filled 2048 0
      start < UInt32.size ∧ page.size = ready.profile.geometry.pageBytes ∧
      (block.read start page).run ready = .error .arithmetic ∧
      (block.program start page).run.run ready = .error .arithmetic := by
  obtain ⟨controller, ready, hinUse, -, -, hdrive, hrun, -, hsame⟩ :=
    Controller.exists_fresh_block (show 0 < 1024 by decide)
  rw [hdrive] at hsame
  have hprofile : ready.profile = Controller.smallProfile ⟨some 20⟩ :=
    congrArg Drive.profile hsame
  have hlaid : ready.profile.Laid 1024 64 := by
    rw [hprofile]
    exact ⟨rfl, rfl, by decide⟩
  have hlength : ready.profile.geometry.pageBytes = 2048 := by rw [hprofile]; rfl
  have hcounts : Counts ready.profile.geometry.pageBytes (Bytes.filled 2048 0).size 1 := by
    rw [hlength, Bytes.size_filled]
    exact ⟨rfl, rfl⟩
  -- Page 4294967295 and one more: the sum does not fit into 32 bits.
  have hpages := run_pagesFor_overflow hlaid ⟨0⟩ 4294967295 hcounts (by decide)
  exact ⟨controller, hinUse, hdrive, ⟨0⟩, ready, hrun, by decide,
    by rw [hlength, Bytes.size_filled], run_read_crash hpages, run_program_crash hpages⟩

end Block

end NandFlash
