import NandFlash.Proofs.Sim.Flipping

/-!
# What a limit on waiting ends

The wait for the end of a read repairs a field in each of its turns, and the turns are counted
whether they repair anything or not. On a device that does not hang every other wait is over at
once. The main statement is that a limit makes a difference to just those reads whose fields take
more repairs than it allows for: they are given up half repaired, and everything else is as without
a limit.
-/

namespace NandFlash

/-! ## Going through the reports -/

/-- A limit ends a read between two fields: the fields up to there have been repaired, one turn
each, and there is another one to come. -/
def Poll.CutsShort (poll : Poll) (g : Geometry) (reports : List Sim.DamageReport) : Prop :=
  ∃ limit, poll.limit = some limit ∧ limit + 1 < reports.length ∧
    ∀ report ∈ reports.take (limit + 1), report.errors.length ≤ g.correctable

/-- A poll without a limit. -/
def Poll.unlimited : Poll := ⟨none⟩

namespace Sim

namespace Repairs

variable {poll : Poll} {g : Geometry} {page limit turns : Nat} {reports : List DamageReport}

/-- Without a limit nothing is given up for the time it takes. -/
theorem all_unlimited_ne_timeout (turns : Nat) (reports : List DamageReport) (repairs : Repairs)
    (awaited : Awaited) :
    (all .unlimited g page turns reports repairs).1 ≠ .error (.timeout awaited) := by
  induction reports generalizing turns repairs with
  | nil => rintro ⟨⟩
  | cons report rest ih =>
    rw [all]
    split
    · rintro ⟨⟩
    · rw [show Poll.unlimited.isOver (turns + 1) = false from rfl, Bool.and_false,
        if_neg Bool.false_ne_true]
      exact ih _ _

/-- A limit below the number of repairs ends the loop; by induction on the reports, of which as
many may still be repaired as there are turns left. -/
theorem all_eq_timeout (hlimit : poll.limit = some limit) (hturns : turns ≤ limit)
    (hmany : limit + 1 < turns + reports.length)
    (hgood : ∀ report ∈ reports.take (limit + 1 - turns), report.errors.length ≤ g.correctable)
    (repairs : Repairs) :
    (all poll g page turns reports repairs).1 = .error (.timeout .transferIn) := by
  induction reports generalizing turns repairs with
  | nil =>
    rw [List.length_nil] at hmany
    omega
  | cons report rest ih =>
    have hleft : limit + 1 - turns = limit - turns + 1 := by omega
    rw [hleft, List.take_succ_cons, List.forall_mem_cons] at hgood
    rw [List.length_cons] at hmany
    have hrest : rest.isEmpty = false := by
      rw [List.isEmpty_eq_false_iff_exists_mem]
      exact List.exists_mem_of_length_pos (by omega)
    rw [all, if_neg (Nat.not_lt_of_le hgood.1), hrest, Poll.isOver, hlimit]
    -- The limit is hit at this report or at a later one.
    by_cases hover : limit < turns + 1
    · rw [if_pos (by simpa using hover)]
    · rw [if_neg (by simpa using hover)]
      refine ih (by omega) (by omega) ?_ _
      rw [show limit + 1 - (turns + 1) = limit - turns by omega]
      exact hgood.2

/-- A limit that is not reached before the last report or a lost field makes no difference. -/
theorem all_eq_unlimited (hlimit : poll.limit = some limit) (hturns : turns ≤ limit)
    (hkept : ¬(limit + 1 < turns + reports.length ∧
      ∀ report ∈ reports.take (limit + 1 - turns), report.errors.length ≤ g.correctable))
    (repairs : Repairs) :
    all poll g page turns reports repairs = all .unlimited g page turns reports repairs := by
  induction reports generalizing turns repairs with
  | nil => rfl
  | cons report rest ih =>
    rw [all, all]
    by_cases hlost : report.errors.length > g.correctable
    · rw [if_pos hlost, if_pos hlost]
    · rw [if_neg hlost, if_neg hlost, show Poll.unlimited.isOver (turns + 1) = false from rfl,
        Bool.and_false, if_neg Bool.false_ne_true]
      cases rest with
      | nil => rfl
      | cons other rest =>
        have hleft : limit + 1 - turns = limit - turns + 1 := by omega
        rw [hleft, List.take_succ_cons, List.forall_mem_cons, List.length_cons, List.length_cons]
          at hkept
        -- With two reports left the limit is not reached by the first one.
        have hbelow : turns + 1 ≤ limit := by
          by_contra hover
          refine hkept ⟨by omega, Nat.le_of_not_lt hlost, ?_⟩
          rw [show limit - turns = 0 by omega]
          exact fun _ hmem => absurd hmem List.not_mem_nil
        rw [Poll.isOver, hlimit, if_neg (by simpa using hbelow)]
        refine ih hbelow ?_ _
        rintro ⟨hmany, hgood⟩
        refine hkept ⟨?_, Nat.le_of_not_lt hlost, ?_⟩
        · rw [List.length_cons] at hmany
          omega
        · rwa [show limit + 1 - (turns + 1) = limit - turns by omega] at hgood

/-- A loop that is not cut short goes as without a limit. -/
theorem all_of_not_cutsShort (hkept : ¬poll.CutsShort g reports) (repairs : Repairs) :
    all poll g page 0 reports repairs = all .unlimited g page 0 reports repairs := by
  cases hlimit : poll.limit with
  | none =>
    obtain rfl : poll = .unlimited := congrArg Poll.mk hlimit
    rfl
  | some limit =>
    refine all_eq_unlimited hlimit (Nat.zero_le _) (fun ⟨hmany, hgood⟩ => hkept ?_) repairs
    exact ⟨limit, hlimit, by omega, hgood⟩

theorem all_of_cutsShort (hcut : poll.CutsShort g reports) (page : Nat) (repairs : Repairs) :
    (all poll g page 0 reports repairs).1 = .error (.timeout .transferIn) := by
  obtain ⟨limit, hlimit, hmany, hgood⟩ := hcut
  exact all_eq_timeout hlimit (Nat.zero_le _) (by omega) hgood repairs

end Repairs

/-! ## Drives -/

namespace Drive

variable {drive : Drive} {request : Request}

/-- The same drive without a limit on its waits. -/
def withoutLimit (drive : Drive) : Drive :=
  { drive with profile := { drive.profile with poll := .unlimited } }

/-- The limit ends a request: it is a page read that is not refused, and whose page takes more
repairs than the limit allows for. -/
def CutsShort (drive : Drive) : Request → Prop
  | .readPage page data spare =>
    (Request.readPage page data spare).refusal? drive.profile = .ok none ∧
    ∃ row, drive.rowAt .read page = .ok row ∧ drive.profile.poll.CutsShort drive.geometry
      (Engine.damage drive.geometry (drive.flash.content row) (drive.flash.reference row))
  | _ => False

/-- Whether a request is refused does not depend on the limit. -/
theorem refusal?_withoutLimit (drive : Drive) (request : Request) :
    request.refusal? drive.withoutLimit.profile = request.refusal? drive.profile := by
  cases request <;> rfl

/-- A computation that is reworked at its end may be reworked after its first step. -/
theorem bind_eq_map_bind {α β γ : Type} {x : Except Crash α} {f : α → Except Crash β}
    {f' : α → Except Crash γ} {change : β → γ} (h : ∀ a, x = .ok a → f' a = (f a).map change) :
    (x >>= f') = (x >>= f).map change := by
  cases x with
  | error defect => rfl
  | ok a => exact h a rfl

/-- Every request but a read that is cut short is carried out as without a limit. -/
theorem perform_withoutLimit (hhang : drive.hang = false)
    (hrefusal : request.refusal? drive.profile = .ok none) (hkept : ¬drive.CutsShort request) :
    drive.withoutLimit.perform request =
      (drive.perform request).map fun performed => (performed.1, performed.2.withoutLimit) := by
  have hout : drive.transferOut = .ok none := by
    rw [transferOut, hhang]
    rfl
  have hout' : drive.withoutLimit.transferOut = .ok none := by
    rw [transferOut, show drive.withoutLimit.hang = false from hhang]
    rfl
  -- Only a read counts turns; any other request does not ask for the limit.
  cases request with
  | readPage page data spare =>
    rw [perform, perform]
    refine bind_eq_map_bind (x := drive.rowAt .read page) fun row hrow => ?_
    refine bind_eq_map_bind (x := drive.rowAt .read page) fun row hrow => ?_
    have hall : ∀ repairs : Repairs, Repairs.all drive.withoutLimit.profile.poll drive.geometry
        page 0 (Engine.damage drive.geometry (drive.flash.content row)
          (drive.flash.reference row)) repairs = _ := fun repairs =>
      (Repairs.all_of_not_cutsShort (fun hcut => hkept ⟨hrefusal, row, hrow, hcut⟩)
        repairs).symm
    simp only [bind, Except.bind, Device.readOutcome, hhang,
      show drive.withoutLimit.hang = false from hhang, Bool.false_eq_true, if_false]
    rw [show drive.withoutLimit.geometry = drive.geometry from rfl,
      show drive.withoutLimit.flash = drive.flash from rfl, hall]
    rfl
  | writePage page data spare =>
    rw [perform, perform, hout, hout']
    refine bind_eq_map_bind (x := drive.rowAt .programSetup page) fun row _ => ?_
    exact bind_eq_map_bind (x := drive.chip.programRow drive.flash row _ _) fun _ _ => rfl
  | readSpare page spare =>
    exact bind_eq_map_bind (x := drive.rowAt .read page) fun _ _ => rfl
  | eraseBlock block =>
    refine bind_eq_map_bind (x := drive.firstRow block) fun first _ => ?_
    refine bind_eq_map_bind (x := drive.rowAt .eraseSetup first) fun row _ => ?_
    exact bind_eq_map_bind (x := drive.chip.eraseRow drive.flash row) fun _ _ => rfl
  | isBad block =>
    refine bind_eq_map_bind (x := drive.firstRow block) fun first _ => ?_
    exact bind_eq_map_bind (x := drive.rowAt .read first) fun _ _ => rfl
  | markBad block =>
    refine bind_eq_map_bind (x := drive.firstRow block) fun first _ => ?_
    refine bind_eq_map_bind (x := drive.rowAt .programSetup first) fun row _ => ?_
    exact bind_eq_map_bind (x := drive.chip.programRow drive.flash row _ _) fun _ _ => rfl
  | readId => exact bind_eq_map_bind (x := discard drive.chip.rowCycles) fun _ _ => rfl
  | reset => rfl

/-- Every request but a read that is cut short is served as without a limit. -/
theorem serve_withoutLimit (hhang : drive.hang = false) (hkept : ¬drive.CutsShort request) :
    drive.withoutLimit.serve request =
      (drive.serve request).map fun served => (served.1, served.2.withoutLimit) := by
  rw [serve, serve, refusal?_withoutLimit]
  refine bind_eq_map_bind fun refusal? hrefusal => ?_
  cases refusal? with
  | some e => rfl
  | none =>
    simp only [perform_withoutLimit hhang hrefusal hkept]
    cases drive.perform request <;> rfl

/-- A read that is cut short is given up. -/
theorem exists_serve_of_cutsShort (hhang : drive.hang = false) (hcut : drive.CutsShort request) :
    ∃ reply next, drive.serve request = .ok (reply, next) ∧
      reply.outcome = .error (.timeout .transferIn) := by
  cases request with
  | readPage page data spare =>
    obtain ⟨hrefusal, row, hrow, hcut⟩ := hcut
    have htimeout := Repairs.all_of_cutsShort hcut page
      ⟨data.overlay 0 ((drive.flash.content row).extract 0 drive.geometry.pageBytes),
        drive.spareOf row, drive.stats, []⟩
    simp only [serve, hrefusal, perform, hrow, Device.readOutcome, hhang, bind, Except.bind,
      Bool.false_eq_true, if_false, pure, Except.pure]
    refine ⟨_, _, rfl, ?_⟩
    show ((Repairs.all _ _ _ _ _ _).1.map _).map _ = _
    rw [htimeout]
    rfl
  | _ => exact hcut.elim

/-- Without the limit the same read comes to an end. -/
theorem exists_serve_withoutLimit (hhang : drive.hang = false) (hcut : drive.CutsShort request) :
    ∃ reply next, drive.withoutLimit.serve request = .ok (reply, next) := by
  cases request with
  | readPage page data spare =>
    obtain ⟨hrefusal, row, hrow, -⟩ := hcut
    have hrow' : drive.withoutLimit.rowAt .read page = .ok row := hrow
    simp only [serve, refusal?_withoutLimit, hrefusal, perform, hrow', Device.readOutcome,
      show drive.withoutLimit.hang = false from hhang, bind, Except.bind, Bool.false_eq_true,
      if_false, pure, Except.pure]
    exact ⟨_, _, rfl⟩
  | _ => exact hcut.elim

theorem map_ne_error {ε α β : Type} {x : Except ε α} {e : ε} (h : x ≠ .error e) (f : α → β) :
    x.map f ≠ .error e := by
  cases x with
  | error e' =>
    intro heq
    cases heq
    exact h rfl
  | ok a => exact fun heq => nomatch heq

theorem ne_timeout_of_readOutcome {g : Geometry} {page : Nat} {content : Bytes}
    {reference? : Option Bytes} {start found : Repairs}
    {outcome : Except Error (List FieldReport)}
    (h : Device.readOutcome .unlimited g page false content reference? start =
      .ok (outcome, found)) (awaited : Awaited) : outcome ≠ .error (.timeout awaited) := by
  rw [Device.readOutcome, if_neg Bool.false_ne_true] at h
  cases h
  exact map_ne_error (Repairs.all_unlimited_ne_timeout _ _ _ _) _

/-- Without a limit nothing times out on a device that does not hang. -/
theorem ne_timeout_of_perform (hhang : drive.hang = false)
    (hpoll : drive.profile.poll = .unlimited) {result : Except Error Answer × Bytes × Bytes}
    {next : Drive} (h : drive.perform request = .ok (result, next)) (awaited : Awaited) :
    result.1 ≠ .error (.timeout awaited) := by
  have houtcome : ∀ isSound failure, failure ≠ Error.timeout awaited →
      outcomeOf isSound failure ≠ .error (.timeout awaited) := by
    rintro (_ | _) failure hfailure heq <;> cases heq
    exact hfailure rfl
  -- A device that does not hang lets a read wait in vain at most, and that has no limit.
  cases request with
  | readPage page data spare =>
    obtain ⟨_, -, h⟩ := exists_of_bind_eq_ok h
    obtain ⟨row, -, h⟩ := exists_of_bind_eq_ok h
    obtain ⟨⟨outcome, found⟩, hread, h⟩ := exists_of_bind_eq_ok h
    cases h
    rw [hhang, hpoll] at hread
    exact map_ne_error (ne_timeout_of_readOutcome hread awaited) _
  | writePage page data spare =>
    obtain ⟨row, -, h⟩ := exists_of_bind_eq_ok h
    obtain ⟨failure?, hout, h⟩ := exists_of_bind_eq_ok h
    rw [transferOut, hhang] at hout
    cases hout
    obtain ⟨_, -, h⟩ := exists_of_bind_eq_ok h
    cases h
    exact houtcome _ _ (by rintro ⟨⟩)
  | eraseBlock block =>
    obtain ⟨first, -, h⟩ := exists_of_bind_eq_ok h
    obtain ⟨row, -, h⟩ := exists_of_bind_eq_ok h
    obtain ⟨_, -, h⟩ := exists_of_bind_eq_ok h
    cases h
    exact houtcome _ _ (by rintro ⟨⟩)
  | markBad block =>
    obtain ⟨first, -, h⟩ := exists_of_bind_eq_ok h
    obtain ⟨row, -, h⟩ := exists_of_bind_eq_ok h
    obtain ⟨_, -, h⟩ := exists_of_bind_eq_ok h
    cases h
    exact houtcome _ _ (by rintro ⟨⟩)
  | readSpare page spare =>
    obtain ⟨row, -, h⟩ := exists_of_bind_eq_ok h
    cases h
    rintro ⟨⟩
  | isBad block =>
    obtain ⟨first, -, h⟩ := exists_of_bind_eq_ok h
    obtain ⟨row, -, h⟩ := exists_of_bind_eq_ok h
    cases h
    rintro ⟨⟩
  | readId =>
    obtain ⟨_, -, h⟩ := exists_of_bind_eq_ok h
    cases h
    rintro ⟨⟩
  | reset =>
    cases h
    rintro ⟨⟩

theorem ne_timeout_of_serve (hhang : drive.hang = false)
    (hpoll : drive.profile.poll = .unlimited) {reply : Reply} {next : Drive}
    (h : drive.serve request = .ok (reply, next)) (awaited : Awaited) :
    reply.outcome ≠ .error (.timeout awaited) := by
  obtain ⟨refusal?, hrefusal, h⟩ := exists_of_bind_eq_ok h
  cases refusal? with
  | some e =>
    cases h
    rintro ⟨⟩
    exact Request.isRefusal_of_refusal hrefusal
  | none =>
    obtain ⟨⟨result, after⟩, hperform, h⟩ := exists_of_bind_eq_ok h
    cases h
    exact ne_timeout_of_perform hhang hpoll hperform awaited

end Drive

end Sim

/-! ## Controllers -/

open Sim

namespace Controller

/-- The same controller, in the same state, without a limit on its waits. -/
def withoutLimit (controller : Controller Device) : Controller Device :=
  { controller with profile := { controller.profile with poll := .unlimited } }

variable {controller : Controller Device}

theorem Rests.withoutLimit (h : controller.Rests) : controller.withoutLimit.Rests :=
  ⟨⟨h.settled.scaled, h.settled.fits⟩, h.isIdle, h.size_eq, h.atRest⟩

theorem Steady.withoutLimit (h : controller.Steady) : controller.withoutLimit.Steady :=
  ⟨h.rests.withoutLimit, h.decodes, h.isWhole⟩

/-- A request that is not cut short is served as without a limit. -/
theorem sameEnd_serve_withoutLimit (h : controller.Rests)
    (hhang : controller.drive.hang = false) {request : Request}
    (hkept : ¬controller.drive.CutsShort request) :
    SameEnd (fun reply next rival => (∀ awaited, reply.outcome ≠ .error (.timeout awaited)) ∧
        rival.drive = next.drive.withoutLimit)
      ((serve request).run controller) ((serve request).run controller.withoutLimit) := by
  have hfollows := follows_serve h request
  have hrival := follows_serve h.withoutLimit request
  have hserve : controller.withoutLimit.drive.serve request = _ :=
    Drive.serve_withoutLimit hhang hkept
  -- Both controllers follow their drives, which come to the same.
  cases hown : controller.drive.serve request with
  | error defect =>
    rw [hown] at hfollows hserve
    rw [hserve] at hrival
    rw [hfollows.run_eq_error, hrival.run_eq_error]
    exact rfl
  | ok served =>
    rw [hown] at hfollows hserve
    rw [hserve] at hrival
    obtain ⟨reply, next, hrun, rfl, -, hnext⟩ := hfollows.exists_of_ok
    obtain ⟨reply', next', hrun', rfl, -, hnext'⟩ := hrival.exists_of_ok
    rw [hrun, hrun']
    have hunbounded : controller.withoutLimit.drive.hang = false := hhang
    exact ⟨rfl, Drive.ne_timeout_of_serve hunbounded rfl hserve,
      by rw [hnext', hnext]⟩

/-- A page is written to a fresh K9F1G08, by a controller that gives up at the second turn of a
wait, and a byte flips in each of its first two fields. -/
theorem exists_twice_damaged : ∃ controller : Controller Device, controller.InUse ∧
    controller.drive = ⟨smallProfile ⟨some 0⟩, Chip.k9f1g08,
      FlashArray.blank.flash Chip.k9f1g08.rawLen, false, ⟨0, 0⟩⟩ ∧
    ∃ replies damaged, ([.request (.writePage 0 (Bytes.filled 2048 0x5A) (Bytes.erased 64)),
        .inject 0 0 0x01, .inject 0 512 0x01].mapM play).run controller =
          .ok (replies, damaged) ∧
      damaged.InUse ∧ damaged.channel.bus.engine.hang = false ∧
      damaged.drive.CutsShort (.readPage 0 (Bytes.filled 2048 0) (Bytes.filled 64 0)) := by
  obtain ⟨controller, hinUse, hdrive, replies, damaged, hrun, hdamaged, hhang, hchip, hprofile,
    before, hbefore, hcontent, hreference⟩ := exists_flipped ⟨some 0⟩ [0, 512]
  refine ⟨controller, hinUse, hdrive, replies, damaged, hrun, hdamaged, hhang, ?_⟩
  have hgenuine := hdamaged.steady.genuine (hchip ▸ Chip.genuine_k9f1g08)
  have hrow : damaged.drive.rowAt .read 0 = .ok 0 :=
    hgenuine.rowAt_eq .read (by rw [hchip]; decide)
  have hrefusal := (Request.refusal?_eq_none_iff hgenuine.counted.pages_eq
    hgenuine.counted.blocks_eq (.readPage 0 (Bytes.filled 2048 0) (Bytes.filled 64 0))).2 (by
      rw [hprofile, hchip]
      exact ⟨by decide, Bytes.size_filled _ _, Bytes.size_filled _ _⟩)
  have hfits := hgenuine.fits
  -- The first two fields are reported, with one error each.
  have hreports : (Engine.damage damaged.drive.geometry (damaged.drive.flash.content 0)
      (damaged.drive.flash.reference 0)).map (fun report => (report.field, report.errors.length)) =
      [(1, 1), (2, 1)] := by
    simp only [Drive.geometry, hprofile] at hfits ⊢
    rw [hcontent, hreference, map_damage_flipped (by decide) hfits (by rw [hbefore]; decide)
      (by decide) (by rw [hbefore]; decide)]
    decide
  refine ⟨hrefusal, 0, hrow, 0, by rw [hprofile]; rfl, ?_, fun report hreport => ?_⟩
  · have hlength := congrArg List.length hreports
    rw [List.length_map] at hlength
    rw [hlength]
    decide
  · have hmem := List.mem_map_of_mem (f := fun report : DamageReport =>
      (report.field, report.errors.length)) hreport
    rw [List.map_take, hreports, List.take_succ_cons, List.take_zero, List.mem_singleton,
      Prod.mk.injEq] at hmem
    rw [hmem.2, Drive.geometry, hprofile]
    decide

/-- A limit ends no wait on a device that does not hang, with one exception: a read is given up if
its page takes more repairs than the limit allows for, since each repair counts as a turn of the
wait. Every other request never times out, and comes to the same outcome, buffers and statistics,
or to the same crash, as without a limit. -/
theorem limit_ends_long_repairs_only (h : controller.InUse)
    (hhang : controller.channel.bus.engine.hang = false) (request : Request) :
    (controller.drive.CutsShort request → ∃ reply next,
      (serve request).run controller = .ok (reply, next) ∧
      reply.outcome = .error (.timeout .transferIn)) ∧
    (¬controller.drive.CutsShort request →
      SameEnd (fun reply next rival => (∀ awaited, reply.outcome ≠ .error (.timeout awaited)) ∧
          rival.drive = next.drive.withoutLimit)
        ((serve request).run controller) ((serve request).run controller.withoutLimit)) := by
  refine ⟨fun hcut => ?_, sameEnd_serve_withoutLimit h.steady.rests hhang⟩
  obtain ⟨reply, drive, hserve, htimeout⟩ := Drive.exists_serve_of_cutsShort hhang hcut
  obtain ⟨next, hrun, -, -⟩ := h.steady.run_serve hserve
  exact ⟨reply, next, hrun, htimeout⟩

/-- On the twice damaged page a read is cut short, and asking for the mark of its block is not. -/
theorem limit_ends_long_repairs_only_two_flips : ∃ controller : Controller Device,
    controller.InUse ∧ controller.channel.bus.engine.hang = false ∧
    let read := Request.readPage 0 (Bytes.filled 2048 0) (Bytes.filled 64 0)
    controller.drive.CutsShort read ∧ ¬controller.drive.CutsShort (.isBad 0) ∧
    (∃ reply next, (serve read).run controller = .ok (reply, next) ∧
      reply.outcome = .error (.timeout .transferIn)) ∧
    SameEnd (fun reply next rival => (∀ awaited, reply.outcome ≠ .error (.timeout awaited)) ∧
        rival.drive = next.drive.withoutLimit)
      ((serve (.isBad 0)).run controller) ((serve (.isBad 0)).run controller.withoutLimit) := by
  obtain ⟨-, -, -, -, damaged, -, hinUse, hhang, hcut⟩ := exists_twice_damaged
  exact ⟨damaged, hinUse, hhang, hcut, id,
    (limit_ends_long_repairs_only hinUse hhang _).1 hcut,
    (limit_ends_long_repairs_only hinUse hhang _).2 id⟩

/-- A limit does not bound waiting only: on a page written to a fresh K9F1G08, a byte that flips in
each of two fields is enough for a read to time out when the limit is 0, although the device does
not hang. Without the limit the same read does not time out. -/
theorem two_repairs_time_out : ∃ controller : Controller Device, controller.InUse ∧
    controller.drive = ⟨smallProfile ⟨some 0⟩, Chip.k9f1g08,
      FlashArray.blank.flash Chip.k9f1g08.rawLen, false, ⟨0, 0⟩⟩ ∧
    ∃ replies damaged, ([.request (.writePage 0 (Bytes.filled 2048 0x5A) (Bytes.erased 64)),
        .inject 0 0 0x01, .inject 0 512 0x01].mapM play).run controller =
          .ok (replies, damaged) ∧
      damaged.channel.bus.engine.hang = false ∧
      let read := Request.readPage 0 (Bytes.filled 2048 0) (Bytes.filled 64 0)
      (∃ reply next, (serve read).run damaged = .ok (reply, next) ∧
        reply.outcome = .error (.timeout .transferIn)) ∧
      ∃ reply next, (serve read).run damaged.withoutLimit = .ok (reply, next) ∧
        ∀ awaited, reply.outcome ≠ .error (.timeout awaited) := by
  obtain ⟨controller, hfresh, hdrive, replies, damaged, hrun, hinUse, hhang, hcut⟩ :=
    exists_twice_damaged
  refine ⟨controller, hfresh, hdrive, replies, damaged, hrun, hhang, ?_, ?_⟩
  · obtain ⟨reply, drive, hserve, htimeout⟩ := Drive.exists_serve_of_cutsShort hhang hcut
    obtain ⟨next, hrun, -, -⟩ := hinUse.steady.run_serve hserve
    exact ⟨reply, next, hrun, htimeout⟩
  · obtain ⟨reply, drive, hserve⟩ := Drive.exists_serve_withoutLimit hhang hcut
    obtain ⟨next, hrun, -, -⟩ := hinUse.steady.withoutLimit.run_serve hserve
    have hunbounded : damaged.withoutLimit.drive.hang = false := hhang
    exact ⟨reply, next, hrun, Drive.ne_timeout_of_serve hunbounded rfl hserve⟩

end Controller

end NandFlash
