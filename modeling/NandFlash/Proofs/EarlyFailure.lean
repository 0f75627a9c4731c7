import NandFlash.Proofs.AnyBus.Programming
import NandFlash.Proofs.AnyBus.Session
import NandFlash.Proofs.Sim.Restoring

/-!
# Page programs that fail early

A page program is refused, or its transfer fails, or the page is programmed. In the first case
nothing has happened at all; in the second the chip has been given an address and perhaps a page,
but no command to program it. On the simulated device a transfer fails by hanging, and this leaves
nothing behind: once it hangs no longer, the page is programmed as if that had not been tried
before.
-/

namespace NandFlash

open Sim BusEvent

/-! ## Kinds of failures -/

theorem Error.IsRefusal.not_isTimeoutOf {e : Error} {waits : List Awaited} (h : e.IsRefusal) :
    ¬e.IsTimeoutOf waits := by
  rintro ⟨awaited, -, rfl⟩
  exact h

namespace Controller

theorem IsCommitFailure.not_isRefusal {page : Nat} {e : Error} (h : IsCommitFailure page e) :
    ¬e.IsRefusal := by
  rcases h with rfl | rfl <;> exact id

theorem IsCommitFailure.not_isTimeoutOf {page : Nat} {e : Error} (h : IsCommitFailure page e) :
    ¬e.IsTimeoutOf Channel.writeWaits := by
  rintro ⟨awaited, hmem, rfl⟩
  rcases h with h | h
  · cases h
    exact absurd hmem (by decide)
  · cases h

/-! ## On any bus -/

section

variable {β : Type} {controller next : Controller (Monitor β)} {page : Nat}
  {data spare answered : Bytes} {outcome : Except Error Unit} {trace : List BusEvent}

/-- What a page program does, as seen in the events on the bus. The spare buffer comes back as
`answered`. -/
structure ProgramsLast (controller : Controller (Monitor β)) (page : Nat) (spare : Bytes)
    (outcome : Except Error Unit) (answered : Bytes) (next : Controller (Monitor β))
    (trace : List BusEvent) : Prop where
  /-- It fails by an argument, by a wait of the transfer, or by what comes after that. -/
  fails : ∀ e, outcome = .error e →
    e.IsRefusal ∨ e.IsTimeoutOf Channel.writeWaits ∨ IsCommitFailure page e
  /-- Refused, it has done nothing. -/
  refused : ∀ e, outcome = .error e → e.IsRefusal →
    next = controller ∧ trace = [] ∧ answered = spare
  /-- With its transfer failed it has given the chip no command to program. -/
  untransferred : ∀ e, outcome = .error e → e.IsTimeoutOf Channel.writeWaits →
    commands trace = [.programSetup] ∧ answered = spare
  /-- It programs once at most. -/
  count_le : (commands trace).count .program ≤ 1 ∧ .programCached ∉ commands trace
  /-- It programs what has been addressed and then transferred. -/
  ordered : ∀ before event after, trace = before ++ event :: after →
    event.command? = some .program →
      Transferred (addressing controller.profile.chip.rowCycles page) before
  /-- The caller's spare bytes stay as they are as far as the parity. -/
  spare_eq : answered.size = spare.size ∧
    answered.extract 0 controller.profile.layout.parityStart =
      spare.extract 0 controller.profile.layout.parityStart

theorem programsLast_of_refusal {e : Error} (h : e.IsRefusal) :
    controller.ProgramsLast page spare (.error e) spare controller [] where
  fails := by
    rintro _ ⟨⟩
    exact .inl h
  refused _ _ _ := ⟨rfl, rfl, rfl⟩
  untransferred := by
    rintro _ ⟨⟩ htimeout
    exact absurd htimeout h.not_isTimeoutOf
  count_le := by decide
  ordered before event after hsplit := by simp at hsplit
  spare_eq := ⟨rfl, rfl⟩

theorem programsLast_of_timeout {e : Error} (h : e.IsTimeoutOf Channel.writeWaits)
    (htrace : WriteTrace (addressing controller.profile.chip.rowCycles page) .addressed trace) :
    controller.ProgramsLast page spare (.error e) spare next trace := by
  have hgiven : commands trace = [.programSetup] := htrace.gives (commands_addressing _ _)
  refine ⟨?_, ?_, ?_, ?_, ?_, rfl, rfl⟩
  · rintro _ ⟨⟩
    exact .inr (.inl h)
  · rintro _ ⟨⟩ hrefusal
    exact absurd h hrefusal.not_isTimeoutOf
  · exact fun _ _ _ => ⟨hgiven, rfl⟩
  · rw [hgiven]
    decide
  · exact fun _ _ _ => htrace.transferred_before (commands_addressing _ _)

/-- A spare buffer comes back with its own bytes in front of the parity. -/
theorem front_of_parity {parity : Bytes} {start : Nat} (h : start + parity.size = spare.size) :
    (spare.extract 0 start ++ parity).size = spare.size ∧
      (spare.extract 0 start ++ parity).extract 0 start = spare.extract 0 start := by
  have hfront : (spare.extract 0 start).size = start := by
    rw [Array.size_extract]
    omega
  constructor
  · rw [Array.size_append, hfront, h]
  · rw [Array.extract_append, hfront, Nat.sub_self, Nat.zero_sub, Array.extract_extract]
    simp

theorem programsLast_of_commit (houtcome : ∀ e, outcome = .error e → IsCommitFailure page e)
    (htrace : WriteTrace (addressing controller.profile.chip.rowCycles page) .programmed trace)
    {parity : Bytes} (hparity : controller.profile.layout.parityStart + parity.size = spare.size) :
    controller.ProgramsLast page spare outcome
      (spare.extract 0 controller.profile.layout.parityStart ++ parity) next trace := by
  obtain ⟨n, hgiven⟩ := htrace.gives (commands_addressing _ _)
  refine ⟨?_, ?_, ?_, ?_, ?_, front_of_parity hparity⟩
  · exact fun e he => .inr (.inr (houtcome e he))
  · exact fun e he hrefusal => absurd hrefusal (houtcome e he).not_isRefusal
  · exact fun e he htimeout => absurd htimeout (houtcome e he).not_isTimeoutOf
  · rw [hgiven, List.count_cons_of_ne (by decide), List.count_cons_self,
      List.count_replicate, if_neg (by decide)]
    simp
  · exact fun _ _ _ => htrace.transferred_before (commands_addressing _ _)

variable [Bus β] {clock : β → Nat} (answers : Bus.Answers clock) {limit : Nat}
  (hpoll : controller.profile.poll.Reaches limit) (hsettled : controller.profile.Settled)
  (hready : Ready controller.profile controller)
  (hrecorded : controller.channel.bus.recorded = some #[])

include answers hpoll hsettled hready hrecorded

/-- Every page program ends, and does so in one of these ways. -/
theorem exists_programsLast (page : Nat) (data spare : Bytes) : ∃ outcome answered next trace,
    (writePage page data spare).run controller = .ok ((outcome, answered), next) ∧
    next.channel.bus.recorded = some trace ∧
    controller.ProgramsLast page spare outcome answered next trace.toList := by
  obtain ⟨pages, hpages⟩ := hsettled.exists_pages
  obtain ⟨blocks, hblocks⟩ := hsettled.exists_blocks
  obtain ⟨refusal?, hrefusal⟩ := (Request.writePage page data spare).exists_refusal hsettled
  -- Refused before the bus is touched, given up in the transfer, or gone on to program.
  cases refusal? with
  | some e =>
    exact ⟨.error e, spare, controller, #[],
      run_step rfl (run_step (run_fillPage_refused hsettled hrefusal) rfl), hrecorded,
      programsLast_of_refusal (Request.isRefusal_of_refusal hrefusal)⟩
  | none =>
    obtain ⟨hpage, hdata, hspare⟩ : page < pages ∧ _ ∧ _ :=
      (Request.refusal?_eq_none_iff hpages hblocks _).1 hrefusal
    obtain ⟨filled, mid, hfill, -, hmid⟩ := within_fillPage answers hpoll hsettled hpages hpage
      hdata hspare controller ⟨hready, #[], hrecorded, rfl⟩
    cases filled with
    | error e =>
      obtain ⟨-, ⟨trace, htrace, hwrite⟩, htimeout⟩ := hmid
      exact ⟨.error e, spare, mid, trace, run_step rfl (run_step hfill rfl), htrace,
        programsLast_of_timeout htimeout hwrite⟩
    | ok parity =>
      obtain ⟨hmid, hparity⟩ := hmid
      obtain ⟨outcome, next, hcommit, -, hnext⟩ := within_commitPage answers hpoll page mid hmid
      obtain ⟨trace, htrace, hwrite, houtcome⟩ : ∃ trace, next.channel.bus.recorded = some trace ∧
          WriteTrace (addressing controller.profile.chip.rowCycles page) .programmed trace.toList ∧
          ∀ e, outcome = .error e → IsCommitFailure page e := by
        cases outcome with
        | ok _ =>
          obtain ⟨-, trace, htrace, hwrite⟩ := hnext
          exact ⟨trace, htrace, hwrite, nofun⟩
        | error e =>
          obtain ⟨-, ⟨trace, htrace, hwrite⟩, he⟩ := hnext
          refine ⟨trace, htrace, hwrite, ?_⟩
          rintro _ ⟨⟩
          exact he
      have hspareSize : controller.profile.layout.parityStart + parity.size = spare.size := by
        have hadd := hsettled.fits.parityStart_add
        omega
      have hreplace := Bytes.replaceFrom_eq_ok hspareSize
      exact ⟨outcome, _, next, trace, run_step rfl (run_step hfill
        (run_step (run_action_lift hreplace) (run_step hcommit rfl))), htrace,
        programsLast_of_commit houtcome hwrite hspareSize⟩

end

/-! ## On the simulated device -/

section

variable {controller : Controller Device} {page : Nat} {data spare : Bytes}

/-- A page program goes as the drive says. -/
theorem exists_writePage (h : controller.Rests) (hgenuine : controller.drive.Genuine)
    (hvalid : (Request.writePage page data spare).Valid controller.drive.geometry
      controller.drive.chip.pageCount controller.drive.chip.blocks)
    {answer : Except Error Answer} {answered : Bytes} {after : Drive}
    (hperform : controller.drive.perform (.writePage page data spare) =
      .ok ((answer, data, answered), after)) :
    ∃ next, (writePage page data spare).run controller =
      .ok ((answer.map fun _ => (), answered), next) ∧ next.Rests ∧ next.drive = after := by
  obtain ⟨hpage, hdata, hspare⟩ := hvalid
  have hfollows := follows_writePage h hgenuine.counted.pages_eq hpage hdata hspare
  rw [hperform] at hfollows
  obtain ⟨⟨outcome, found⟩, next, hrun, houtcome, -, hfound, hrests, hdrive⟩ :=
    hfollows.exists_of_ok
  refine ⟨next, ?_, hrests, hdrive⟩
  rw [hrun, show found = answered from hfound, ← show outcome.map (fun _ => Answer.done) = answer
    from houtcome]
  cases outcome <;> rfl

/-- While the engine hangs, a page program comes to nothing. -/
theorem exists_writePage_hung (h : controller.Rests) (hgenuine : controller.drive.Genuine)
    (hhang : controller.drive.hang = true) {limit : Nat}
    (hpoll : controller.profile.poll.Reaches limit)
    (hvalid : (Request.writePage page data spare).Valid controller.drive.geometry
      controller.drive.chip.pageCount controller.drive.chip.blocks) :
    ∃ failed, (writePage page data spare).run controller =
        .ok ((.error (.timeout .transferOut), spare), failed) ∧
      failed.Rests ∧ failed.drive = controller.drive := by
  have hexhaust : controller.drive.profile.poll.exhaust .transferOut =
      .ok (.timeout .transferOut) := hpoll.exhaust_eq .transferOut
  have hperform : controller.drive.perform (.writePage page data spare) =
      .ok ((.error (.timeout .transferOut), data, spare), controller.drive) := by
    rw [hgenuine.perform_writePage hvalid.1, Drive.transferOut, hhang, if_pos rfl, hexhaust]
    rfl
  exact exists_writePage h hgenuine hvalid hperform

/-- Let the engine go on, and program a page. -/
def resumeWrite (page : Nat) (data spare : Bytes) :
    Action (Controller Device) (Except Error Unit × Bytes) := do
  let _ ← play (.setHang false)
  writePage page data spare

/-- What comes of that is a matter of the drive alone. -/
theorem exists_resumeWrite {drive : Drive} (hgenuine : drive.Genuine)
    (hraw : drive.geometry.pageBytes + drive.geometry.spareSize ≤ drive.chip.rawLen)
    (hvalid : (Request.writePage page data spare).Valid drive.geometry drive.chip.pageCount
      drive.chip.blocks) :
    ∃ result after, ∀ controller : Controller Device, controller.Rests → controller.drive = drive →
      ∃ next, (resumeWrite page data spare).run controller = .ok (result, next) ∧
        next.drive = after := by
  -- The result is read off the drive alone, before any controller on it is looked at.
  obtain ⟨resumed, hresumed⟩ : ∃ resumed, resumed = { drive with hang := false } := ⟨_, rfl⟩
  have hgenuine' : resumed.Genuine := by
    rw [hresumed]
    exact ⟨hgenuine.counted, hgenuine.fits, hgenuine.isWhole⟩
  have hvalid' : (Request.writePage page data spare).Valid resumed.geometry resumed.chip.pageCount
      resumed.chip.blocks := by
    rw [hresumed]
    exact hvalid
  obtain ⟨answer, answered, after, hperform⟩ : ∃ answer answered after,
      resumed.perform (.writePage page data spare) = .ok ((answer, data, answered), after) := by
    obtain ⟨answered, hperform⟩ := hgenuine'.exists_perform_writePage
      (by rw [hresumed]; exact hraw) (by rw [hresumed]) hvalid'.1 hvalid'.2.1 hvalid'.2.2
    exact ⟨_, answered, _, hperform⟩
  refine ⟨(answer.map fun _ => (), answered), after, fun controller hrests hdrive => ?_⟩
  subst hdrive
  obtain ⟨_, mid, hplay, -, hmid, hmidDrive⟩ := (follows_play hrests (.setHang false)).exists_of_ok
  obtain rfl : mid.drive = resumed := hmidDrive.trans hresumed.symm
  obtain ⟨next, hrun, -, hnext⟩ := exists_writePage hmid hgenuine' hvalid' hperform
  exact ⟨next, run_step hplay hrun, hnext⟩

end

/-! ## Early failures -/

/-- A page program that fails early programs nothing. On every bus, whatever it answers, it ends;
refused it has not been on the bus at all, and with its transfer failed it has given the chip no
command to program. Such a command is given once at most, after the page has been addressed, the
transfer has been started and its end has been seen. On a simulated device that hangs a valid page
program runs out of time and leaves every raw page and every reference copy alone, and once the
device hangs no longer, programming the page comes to the same as it would have before. -/
theorem early_failure_programs_nothing {β : Type} [Bus β] {clock : β → Nat}
    (answers : Bus.Answers clock) {limit : Nat} (hlimit : limit < UInt32.size - 1) :
    (∀ controller : Controller (Monitor β), Ready controller.profile controller →
      controller.profile.Settled → controller.profile.poll = ⟨some limit⟩ →
      controller.channel.bus.recorded = some #[] → ∀ (page : Nat) (data spare : Bytes),
      ∃ outcome answered next trace,
        (writePage page data spare).run controller = .ok ((outcome, answered), next) ∧
        next.channel.bus.recorded = some trace ∧
        controller.ProgramsLast page spare outcome answered next trace.toList) ∧
    ∀ hung : Controller Device, hung.InUse → hung.channel.bus.chip.Genuine →
      hung.profile.geometry.pageBytes + hung.profile.geometry.spareSize ≤
        hung.channel.bus.chip.rawLen →
      hung.channel.bus.engine.hang = true → hung.profile.poll = ⟨some limit⟩ →
      ∀ (page : Nat) (data spare : Bytes),
      (Request.writePage page data spare).Valid hung.profile.geometry
        hung.channel.bus.chip.pageCount hung.channel.bus.chip.blocks →
      ∃ failed, (writePage page data spare).run hung =
          .ok ((.error (.timeout .transferOut), spare), failed) ∧
        failed.channel.bus.flash = hung.channel.bus.flash ∧
        ∃ result next fresh,
          (resumeWrite page data spare).run failed = .ok (result, next) ∧
          (resumeWrite page data spare).run hung = .ok (result, fresh) ∧
          next.channel.bus.flash = fresh.channel.bus.flash := by
  refine ⟨fun controller hready hsettled hpoll hrecorded page data spare => ?_,
    fun hung hinUse hchip hraw hhang hpoll page data spare hvalid => ?_⟩
  · exact exists_programsLast answers (by rw [hpoll]; exact ⟨rfl, hlimit⟩) hsettled hready
      hrecorded page data spare
  · have hgenuine := hinUse.steady.genuine hchip
    have hrests := hinUse.steady.rests
    obtain ⟨failed, hrun, hfailed, hdrive⟩ := exists_writePage_hung hrests hgenuine hhang
      (by rw [hpoll]; exact ⟨rfl, hlimit⟩) hvalid
    obtain ⟨result, after, hresume⟩ := exists_resumeWrite hgenuine hraw hvalid
    -- The failed controller may differ in its registers and latches, but not in its drive.
    obtain ⟨next, hnext, hnextDrive⟩ := hresume failed hfailed hdrive
    obtain ⟨fresh, hfresh, hfreshDrive⟩ := hresume hung hrests rfl
    exact ⟨failed, hrun, congrArg Drive.flash hdrive, result, next, fresh, hnext, hfresh,
      congrArg Drive.flash (hnextDrive.trans hfreshDrive.symm)⟩

/-- A device that answers nothing but zeros never finishes a transfer, and neither does a K9F1G08
that hangs. -/
theorem early_failure_programs_nothing_silent :
    Bus.Answers Erratic.turn ∧ 5 < UInt32.size - 1 ∧
    (∃ controller : Controller (Monitor Erratic), Ready controller.profile controller ∧
      controller.profile.Settled ∧ controller.profile.poll = ⟨some 5⟩ ∧
      controller.channel.bus.recorded = some #[] ∧
      ∃ answered next trace,
        (writePage 0 (Bytes.filled 2048 0x5A) (Bytes.erased 64)).run controller =
          .ok ((.error (.timeout .transferOut), answered), next) ∧
        next.channel.bus.recorded = some trace ∧
        controller.ProgramsLast 0 (Bytes.erased 64) (.error (.timeout .transferOut)) answered next
          trace.toList) ∧
    ∃ hung : Controller Device, hung.InUse ∧ hung.channel.bus.chip.Genuine ∧
      hung.profile.geometry.pageBytes + hung.profile.geometry.spareSize ≤
        hung.channel.bus.chip.rawLen ∧
      hung.channel.bus.engine.hang = true ∧ hung.profile.poll = ⟨some 5⟩ ∧
      let data := Bytes.filled 2048 0x5A
      let spare := Bytes.erased 64
      (Request.writePage 64 data spare).Valid hung.profile.geometry
        hung.channel.bus.chip.pageCount hung.channel.bus.chip.blocks ∧
      ∃ failed, (writePage 64 data spare).run hung =
          .ok ((.error (.timeout .transferOut), spare), failed) ∧
        failed.channel.bus.flash = hung.channel.bus.flash ∧
        ∃ result next fresh,
          (resumeWrite 64 data spare).run failed = .ok (result, next) ∧
          (resumeWrite 64 data spare).run hung = .ok (result, fresh) ∧
          next.channel.bus.flash = fresh.channel.bus.flash := by
  have hlimit : 5 < UInt32.size - 1 := by decide
  obtain ⟨hany, hdevice⟩ := early_failure_programs_nothing Erratic.answers hlimit
  obtain ⟨fresh, hinUse, hdrive⟩ := exists_inUse ⟨some 5⟩
  have hsettled : (smallProfile ⟨some 5⟩).Settled := settled_smallProfile _
  refine ⟨Erratic.answers, hlimit, ?_, ?_⟩
  · obtain ⟨controller, hcontroller⟩ : ∃ controller : Controller (Monitor Erratic), controller =
        start (smallProfile ⟨some 5⟩) ⟨⟨0, fun _ _ => 0⟩, some #[], []⟩ := ⟨_, rfl⟩
    have hready : Ready controller.profile controller := by
      rw [hcontroller]
      exact ready_start _ _
    obtain ⟨outcome, answered, next, trace, hrun, htrace, hprograms⟩ := hany controller hready
      (by rw [hcontroller]; exact hsettled) (by rw [hcontroller]; rfl) (by rw [hcontroller]; rfl)
      0 (Bytes.filled 2048 0x5A) (Bytes.erased 64)
    have houtcome : ((writePage 0 (Bytes.filled 2048 0x5A) (Bytes.erased 64)).run controller).map
        (·.1.1) = .ok (.error (.timeout .transferOut)) := by
      rw [hcontroller]
      decide +kernel
    rw [hrun] at houtcome
    obtain rfl := Except.ok.inj houtcome
    exact ⟨controller, hready, by rw [hcontroller]; exact hsettled, by rw [hcontroller]; rfl,
      by rw [hcontroller]; rfl, answered, next, trace, hrun, htrace, hprograms⟩
  · obtain ⟨hung, hplay⟩ : ∃ hung, (play (.setHang true)).run fresh = .ok (none, hung) := ⟨_, rfl⟩
    have hhung : hung.drive = { fresh.drive with hang := true } := by
      cases hplay
      rfl
    rw [hdrive] at hhung
    have hhungInUse : hung.InUse := hinUse.played hplay
    have hchip : hung.channel.bus.chip = Chip.k9f1g08 := congrArg Drive.chip hhung
    have hprofile : hung.profile = smallProfile ⟨some 5⟩ := congrArg Drive.profile hhung
    have hgenuine : hung.channel.bus.chip.Genuine := hchip ▸ Chip.genuine_k9f1g08
    have hhang : hung.channel.bus.engine.hang = true := congrArg Drive.hang hhung
    have hpoll : hung.profile.poll = ⟨some 5⟩ := congrArg Profile.poll hprofile
    have hraw : hung.profile.geometry.pageBytes + hung.profile.geometry.spareSize ≤
        hung.channel.bus.chip.rawLen := by
      rw [hprofile, hchip]
      decide
    have hvalid : (Request.writePage 64 (Bytes.filled 2048 0x5A) (Bytes.erased 64)).Valid
        hung.profile.geometry hung.channel.bus.chip.pageCount hung.channel.bus.chip.blocks := by
      rw [hprofile, hchip]
      refine ⟨?_, Bytes.size_filled _ _, Bytes.size_erased _⟩
      decide
    exact ⟨hung, hhungInUse, hgenuine, hraw, hhang, hpoll, hvalid,
      hdevice hung hhungInUse hgenuine hraw hhang hpoll 64 _ _ hvalid⟩

end Controller

end NandFlash
