import NandFlash.Proofs.Layers
import NandFlash.Proofs.Sim.ReadBack

/-!
# Reads on the simulated device

A read that goes through fills the buffer from the page register and then goes through the
damaged fields one at a time. `repairAll` is that loop as a function of the reports; how the
device shows them has no part in it.
-/

namespace NandFlash.Sim

/-! ## Going through the reports -/

/-- What a read has come to: the buffer, the spare area, the statistics and the repairs made. -/
structure Repairs where
  data : Bytes
  spare : Bytes
  stats : EccStats
  reports : List FieldReport

namespace Repairs

/-- A field has been repaired. -/
def credit (g : Geometry) (report : DamageReport) (repairs : Repairs) : Repairs :=
  let page := (report.corrections g).foldl Correction.mend (repairs.data, repairs.spare)
  { data := page.1
    spare := page.2
    stats := { repairs.stats with
      corrected := repairs.stats.corrected + (report.corrections g).length }
    reports := repairs.reports ++ [report.fieldReport g] }

/-- The page has been lost. -/
def debit (repairs : Repairs) : Repairs :=
  { repairs with stats := { repairs.stats with failed := repairs.stats.failed + 1 } }

/-- Go through the reports of a page: repair fields until one is lost, or until the wait between
two of them is given up. `turns` is the count of turns so far. -/
def all (poll : Poll) (g : Geometry) (page : Nat) :
    Nat → List DamageReport → Repairs → Except Error Unit × Repairs
  | _, [], repairs => (.ok (), repairs)
  | turns, report :: rest, repairs =>
    if report.errors.length > g.correctable then
      (.error (.uncorrectable page report.field), repairs.debit)
    else if !rest.isEmpty && poll.isOver (turns + 1) then
      (.error (.timeout .transferIn), repairs.credit g report)
    else
      all poll g page (turns + 1) rest (repairs.credit g report)

end Repairs

namespace Device

variable {device : Device} {g : Geometry} {report : DamageReport} {rest : List DamageReport}

/-! ## Flags -/

/-- The ready line does not get in the way of the other flags. -/
theorem flags_eq {word seen : UInt32} (bits : UInt32)
    (h : word &&& (Bits.transferDone ||| Bits.eccEvent) = seen)
    (hbits : (Bits.transferDone ||| Bits.eccEvent) &&& bits = bits)
    (hready : Bits.ready &&& bits = 0) : (word ||| Bits.ready) &&& bits = seen &&& bits := by
  rw [← Bits.adjust_neg_one, Bits.adjust_and, UInt32.neg_one_and, hready, UInt32.or_zero,
    Bits.and_eq_of_le h hbits]

theorem run_anySet_status (bits : UInt32) :
    (Bus.anySet Register.status bits).run device =
      .ok ((device.engine.register Register.status ||| Bits.ready) &&& bits != 0, device) := by
  rw [Bus.anySet, run_bind (run_read32_status device)]
  rfl

/-! ## Giving a page up -/

/-- Abandoning a page drops whatever is still queued. -/
theorem run_abandon (device : Device) (h : device.engine.Showing g (report :: rest))
    (hfields : ∀ report ∈ rest, ∃ index < 16, report.field = index + 1) (state : DmaState) :
    ∃ next, Channel.abandon.run ⟨state, device⟩ = .ok ((), ⟨.aborted, next⟩) ∧
      device.Driven (Engine.AtRest g) next := by
  have hvalue : (Bits.dmaEnable ||| Bits.dmaReset) &&& Bits.dmaReset = Bits.dmaReset := by decide
  obtain ⟨h₁, hu₁⟩ := h.acknowledge hfields
  have h₂ := h₁.toProgrammed.writeDmaControl (Bits.dmaEnable ||| Bits.dmaReset)
  have huntouched := (hu₁.trans (Engine.untouched_writeDmaControl hvalue)).trans
    h₂.untouched_reset
  refine ⟨_, ?_, _, rfl, huntouched, h₂.atRest_reset⟩
  have hbus : (do
      Bus.write32 Register.status Bits.eccEvent
      Bus.write32 Register.dmaControl (Bits.dmaEnable ||| Bits.dmaReset)
      Bus.setBits Register.control Bits.reset : Action Device Unit).run device =
      .ok ((), { device with engine := _ }) :=
    run_step (run_write32_status device _) <| run_step (run_write32_dmaControl _ _) <|
      run_modify32_control _
  exact run_step (Channel.run_onBus_ok hbus state) (Channel.run_enter _ _ _)

/-! ## One look -/

variable {state : DmaState} {data : Bytes} {stats : EccStats} {fixed : List FieldReport}
  {page : Nat}

/-- Is an ECC event pending? -/
theorem run_event {seen : UInt32} (hflags : device.engine.register Register.status &&&
    (Bits.transferDone ||| Bits.eccEvent) = seen) :
    (Reading.onBus (Bus.anySet Register.status Bits.eccEvent)).run
        ⟨⟨state, device⟩, data, stats, fixed⟩ =
      .ok (seen &&& Bits.eccEvent != 0, ⟨⟨state, device⟩, data, stats, fixed⟩) := by
  rw [Reading.run_onBus_ok (run_anySet_status Bits.eccEvent),
    flags_eq _ hflags (by decide) (by decide)]

/-- The answer of a look: is the transfer over? -/
def answer : Attempt Error (Reading Device) Bool := do
  let status ← perform (Reading.onBus (Bus.read32 Register.status))
  return status &&& Bits.transferDone != 0 && status &&& Bits.eccEvent == 0

theorem run_answer (state : DmaState) (data : Bytes) (stats : EccStats)
    (fixed : List FieldReport) {seen : UInt32} (hflags : device.engine.register Register.status &&&
    (Bits.transferDone ||| Bits.eccEvent) = seen) :
    answer.run.run ⟨⟨state, device⟩, data, stats, fixed⟩ =
      .ok (.ok (seen &&& Bits.transferDone != 0 && seen &&& Bits.eccEvent == 0),
        ⟨⟨state, device⟩, data, stats, fixed⟩) := by
  rw [answer, run_attempt_bind (run_perform (Reading.run_onBus_ok (run_read32_status device) state
    data stats fixed)), ← flags_eq Bits.transferDone hflags (by decide) (by decide),
    ← flags_eq Bits.eccEvent hflags (by decide) (by decide)]
  rfl

/-- Without an event a look only asks. -/
theorem run_look_quiet (seen : UInt32) (hflags : device.engine.register Register.status &&&
    (Bits.transferDone ||| Bits.eccEvent) = seen) (hquiet : seen &&& Bits.eccEvent = 0) :
    (Reading.look g page).run.run ⟨⟨state, device⟩, data, stats, fixed⟩ =
      .ok (.ok (seen &&& Bits.transferDone != 0), ⟨⟨state, device⟩, data, stats, fixed⟩) := by
  have hanswer := run_answer state data stats fixed hflags
  rw [hquiet, beq_self_eq_true, Bool.and_true] at hanswer
  unfold Reading.look
  refine run_attempt_step (run_perform (run_event hflags)) ?_
  simp only [hquiet, bne_self_eq_false, Bool.false_eq_true, if_false]
  exact hanswer

/-- With an event it repairs first. -/
theorem run_look_event {seen : UInt32} (hflags : device.engine.register Register.status &&&
    (Bits.transferDone ||| Bits.eccEvent) = seen) (hevent : (seen &&& Bits.eccEvent != 0) = true) :
    (Reading.look g page).run.run ⟨⟨state, device⟩, data, stats, fixed⟩ =
      (Reading.repair g page >>= fun _ => answer).run.run
        ⟨⟨state, device⟩, data, stats, fixed⟩ := by
  unfold Reading.look
  refine run_attempt_step (run_perform (run_event hflags)) ?_
  simp only [hevent, if_true]
  rfl

/-- A reading on a device whose engine alone has changed. -/
structure Held (device : Device) (n : Nat) (state : DmaState) (P : Engine → Prop)
    (repairs : Repairs) (reading : Reading Device) : Prop where
  eq : ∃ engine, reading = ⟨⟨state, { device with engine }⟩, repairs.data, repairs.stats,
    repairs.reports⟩ ∧ engine.hang = device.engine.hang ∧
    engine.window.front n = repairs.spare ∧ P engine

theorem Held.mono {device : Device} {n : Nat} {state : DmaState} {P Q : Engine → Prop}
    {repairs : Repairs} {reading : Reading Device} (h : device.Held n state P repairs reading)
    (hmono : ∀ engine, P engine → Q engine) : device.Held n state Q repairs reading := by
  obtain ⟨engine, heq, hhang, hfront, hholds⟩ := h
  exact ⟨engine, heq, hhang, hfront, hmono engine hholds⟩

/-- A look at a field that is lost gives the page up. -/
theorem run_look_lost {repairs : Repairs} {reading : Reading Device}
    (h : device.Held g.spareSize .running (Engine.Showing g (report :: rest)) repairs reading)
    (hlegible : ∀ other ∈ report :: rest, other.Legible g)
    (hdata : repairs.data.size = g.pageBytes) (hspare : g.spareSize ≤ windowLen)
    (hparity : g.parityBytes ≤ g.spareSize) (hlost : report.errors.length > g.correctable) :
    ∃ next, (Reading.look g page).run.run reading =
        .ok (.error (.uncorrectable page report.field), next) ∧
      device.Held g.spareSize .aborted (Engine.AtRest g) repairs.debit next := by
  obtain ⟨engine, rfl, hhang, hfront, hshowing⟩ := h
  have hself := hlegible report (List.mem_cons_self ..)
  -- The report that is shown is the first one, and it is beyond correction.
  have hcorrect := run_correct { device with engine }
    (hshowing.shows_head report rfl) hself hshowing.spareSize_eq hspare hparity hdata
  rw [if_pos hlost] at hcorrect
  obtain ⟨next, hrun, rested, rfl, huntouched, hrest⟩ := run_abandon { device with
    engine } hshowing
      (fun other hother => (hlegible other (List.mem_cons_of_mem _ hother)).field_lt)
    .running
  refine ⟨_, ?_, rested, rfl, huntouched.hang_eq.trans hhang, ?_, hrest⟩
  · have hfields : (Reading.correctFields g).run ⟨⟨.running, { device with engine }⟩,
        repairs.data, repairs.stats, repairs.reports⟩ = .ok (.error ⟨report.field⟩,
        ⟨⟨.running, { device with engine }⟩, repairs.data, repairs.stats, repairs.reports⟩) := by
      rw [Reading.run_correctFields, hcorrect]
    rw [run_look_event hshowing.event_eq (by decide)]
    refine run_attempt_bind_error (run_attempt_step (run_perform hfields) ?_)
    refine run_attempt_step (run_perform rfl) ?_
    exact run_attempt_step (run_perform (Reading.run_onChannel_ok hrun _ _ _)) rfl
  · show rested.window.front _ = _
    rw [huntouched.window_eq, hfront]
    rfl

/-- A look at a field that can be repaired repairs it, and is the last one if no other field is
left. -/
theorem run_look_repaired {repairs : Repairs} {reading : Reading Device}
    (h : device.Held g.spareSize .running (Engine.Showing g (report :: rest)) repairs reading)
    (hlegible : ∀ other ∈ report :: rest, other.Legible g)
    (hdata : repairs.data.size = g.pageBytes) (hspare : g.spareSize ≤ windowLen)
    (hparity : g.parityBytes ≤ g.spareSize) (hrepaired : ¬report.errors.length > g.correctable) :
    ∃ next, (Reading.look g page).run.run reading = .ok (.ok rest.isEmpty, next) ∧
      device.Held g.spareSize .running (Engine.Showing g rest) (repairs.credit g report) next := by
  obtain ⟨engine, rfl, hhang, hfront, hshowing⟩ := h
  have hself := hlegible report (List.mem_cons_self ..)
  have hcorrect := run_correct { device with engine }
    (hshowing.shows_head report rfl) hself hshowing.spareSize_eq hspare hparity hdata
  rw [if_neg hrepaired] at hcorrect
  obtain ⟨window, hcorrect, hmended⟩ := hcorrect
  have hmendedShowing := hshowing.setWindow window
  obtain ⟨hnext, huntouched⟩ := hmendedShowing.acknowledge
    (fun other hother => (hlegible other (List.mem_cons_of_mem _ hother)).field_lt)
  have hfields : (Reading.correctFields g).run ⟨⟨.running, { device with engine }⟩,
      repairs.data, repairs.stats, repairs.reports⟩ = .ok (.ok [report.fieldReport g],
      ⟨⟨.running, { device with engine := { engine with window } }⟩,
        (repairs.credit g report).data, repairs.stats, repairs.reports⟩) := by
    rw [Reading.run_correctFields, hcorrect, hfront]
    rfl
  -- Repair, book and acknowledge; the acknowledgement brings up the next report.
  have hrepair : (Reading.repair g page).run.run ⟨⟨.running, { device with engine }⟩,
      repairs.data, repairs.stats, repairs.reports⟩ = .ok (.ok (), ⟨⟨.running, { device with
        engine := { engine with window }.acknowledge Bits.eccEvent }⟩,
        (repairs.credit g report).data, (repairs.credit g report).stats,
        (repairs.credit g report).reports⟩) := by
    unfold Reading.repair
    refine run_attempt_step (run_perform hfields) (run_attempt_step (Reading.run_credit _ _) ?_)
    exact run_perform (Reading.run_onBus_ok (run_write32_status _ _) _ _ _ _)
  refine ⟨⟨⟨.running, { device with
    engine := { engine with window }.acknowledge Bits.eccEvent }⟩, (repairs.credit g report).data,
    (repairs.credit g report).stats, (repairs.credit g report).reports⟩, ?_, _, rfl,
    huntouched.hang_eq.trans hhang, ?_, hnext⟩
  -- The look is the last one exactly if the read is done and no other event is pending.
  · have hover : ∀ isLast : Bool, ((if isLast then Bits.transferDone else Bits.eccEvent) &&&
        Bits.transferDone != 0 && (if isLast then Bits.transferDone else Bits.eccEvent) &&&
        Bits.eccEvent == 0) = isLast := by decide
    -- Stated of the device, so that the engine in it is not unfolded to find it.
    have hflags : ({ device with engine := { engine with window }.acknowledge Bits.eccEvent } :
        Device).engine.register Register.status &&& (Bits.transferDone ||| Bits.eccEvent) = _ :=
      hnext.flags_eq
    have hanswer := run_answer .running (repairs.credit g report).data
      (repairs.credit g report).stats (repairs.credit g report).reports hflags
    rw [run_look_event hshowing.event_eq (by decide), run_attempt_bind hrepair, hanswer, hover]
  · rw [huntouched.window_eq]
    show window.front _ = _
    rw [hmended, hfront]
    rfl

/-! ## The loop -/

theorem size_credit (repairs : Repairs) (report : DamageReport) :
    (repairs.credit g report).data.size = repairs.data.size :=
  (Correction.size_foldl_mend _ _).1

/-- How the loop may end: going through every report, or early. -/
def Over (g : Geometry) (outcome : Except Error Unit) (state : DmaState) (engine : Engine) :
    Prop :=
  Leavable g state engine ∧ (outcome = .ok () → state = .running ∧ engine.Showing g [])

theorem over_of_showing_nil {engine : Engine} (h : engine.Showing g []) :
    Over g (.ok ()) .running engine := ⟨h.toProgrammed, fun _ => ⟨rfl, h⟩⟩

theorem over_of_error {e : Error} {state : DmaState} {engine : Engine}
    (h : Leavable g state engine) : Over g (.error e) state engine := ⟨h, nofun⟩

/-- The wait for the end of a read goes through the reports, by induction on those that are left.
With `left` turns left in its counter the wait has taken `turns`. -/
theorem run_waitWithin_look {poll : Poll} {reports : List DamageReport} {repairs : Repairs}
    {reading : Reading Device} {left turns : Nat} (hsum : left + turns = Poll.maxTurns)
    (hroom : turns + reports.length ≤ Poll.maxTurns)
    (h : device.Held g.spareSize .running (Engine.Showing g reports) repairs reading)
    (hlegible : ∀ report ∈ reports, report.Legible g) (hdata : repairs.data.size = g.pageBytes)
    (hspare : g.spareSize ≤ windowLen) (hparity : g.parityBytes ≤ g.spareSize) :
    ∃ state next, (poll.waitWithin .transferIn (Reading.look g page) left).run.run reading =
        .ok ((Repairs.all poll g page turns reports repairs).1, next) ∧
      device.Held g.spareSize state (Over g (Repairs.all poll g page turns reports repairs).1 state)
        (Repairs.all poll g page turns reports repairs).2 next := by
  induction reports generalizing repairs reading left turns with
  | nil =>
    refine ⟨.running, reading, run_waitWithin ?_ left, h.mono fun _ => over_of_showing_nil⟩
    obtain ⟨engine, rfl, -, -, hshowing⟩ := h
    exact run_look_quiet Bits.transferDone hshowing.flags_eq (by decide)
  | cons report rest ih =>
    rw [Repairs.all]
    by_cases hlost : report.errors.length > g.correctable
    · rw [if_pos hlost]
      obtain ⟨next, hlook, hnext⟩ := run_look_lost h hlegible hdata hspare hparity hlost
      refine ⟨.aborted, next, ?_, hnext.mono fun _ hrest => over_of_error hrest⟩
      cases left <;> exact run_attempt_bind_error hlook
    · rw [if_neg hlost]
      obtain ⟨next, hlook, hnext⟩ := run_look_repaired h hlegible hdata hspare hparity hlost
      cases left with
      -- The counter has turns left: it has room for every report.
      | zero =>
        rw [List.length_cons] at hroom
        omega
      | succ left =>
        have hcount : Poll.maxTurns - left = turns + 1 := by omega
        -- The look at the last field sees the end of the read as well, and is not counted.
        cases rest with
        | nil =>
          exact ⟨.running, next, run_waitWithin hlook _, hnext.mono fun _ => over_of_showing_nil⟩
        | cons other rest =>
          cases hisOver : poll.isOver (turns + 1) with
          | true =>
            refine ⟨.running, next, ?_, hnext.mono fun _ h => over_of_error h.toProgrammed⟩
            rw [Poll.waitWithin, run_attempt_bind hlook, hcount, hisOver]
            rfl
          | false =>
            obtain ⟨state, last, hrun, hlast⟩ := ih (show left + (turns + 1) = _ by omega)
              (by simp only [List.length_cons] at hroom ⊢; omega) hnext
              (fun report hreport => hlegible report (List.mem_cons_of_mem _ hreport))
              ((size_credit _ _).trans hdata)
            refine ⟨state, last, ?_, hlast⟩
            rw [Poll.waitWithin, run_attempt_bind hlook, hcount, hisOver]
            exact hrun

end Device

end NandFlash.Sim
