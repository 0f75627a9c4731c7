import NandFlash.Proofs.AnyBus.Operations
import NandFlash.Proofs.AnyBus.Recording
import NandFlash.Proofs.Bits

/-!
# Page programs on a recorded bus

What goes over the bus when a page is programmed, whatever the device answers. The command that
programs is given once at most, and not before the page has been addressed, its transfer has been
started, and the transfer has been seen to be over. Until then there are only steps that can fail
without a change to the flash.
-/

namespace NandFlash

open BusEvent

/-! ## Traces -/

/-- How far a page program has come. -/
inductive WriteStage where
  | addressed
  | started
  | transferred
  | programmed

/-- The commands that the chip has been given at a stage. -/
def WriteStage.Gives : WriteStage → List Command → Prop
  | addressed, given | started, given | transferred, given => given = [.programSetup]
  | programmed, given => ∃ n, given = .programSetup :: .program :: List.replicate n .status

/-- The events by which a page program that begins with `opening` comes to a stage. -/
inductive WriteTrace (opening : List BusEvent) : WriteStage → List BusEvent → Prop where
  | address : WriteTrace opening .addressed opening
  | start {events word} (h : WriteTrace opening .addressed events)
    (hword : word &&& Bits.startWrite ≠ 0) :
    WriteTrace opening .started (events ++ [.write32 Register.control word])
  | finish {events word} (h : WriteTrace opening .started events)
    (hword : word &&& Bits.transferDone ≠ 0) :
    WriteTrace opening .transferred (events ++ [.read32 Register.status word])
  | program {events} (h : WriteTrace opening .transferred events) :
    WriteTrace opening .programmed
      (events ++ [.write32 Register.command Command.program.code.toUInt32])
  | quiet {stage events event} (h : WriteTrace opening stage events) (hevent : event.IsOffPorts) :
    WriteTrace opening stage (events ++ [event])
  | check {events event} (h : WriteTrace opening .programmed events)
    (hevent : event.command? = none ∨ event.command? = some .status) :
    WriteTrace opening .programmed (events ++ [event])

/-- The events of `opening`, then a start bit for a transfer to flash, and then a look at the flags
that shows it to be over. -/
def Transferred (opening events : List BusEvent) : Prop :=
  ∃ filling control looking status rest,
    events = opening ++ filling ++ .write32 Register.control control ::
      (looking ++ .read32 Register.status status :: rest) ∧
    control &&& Bits.startWrite ≠ 0 ∧ status &&& Bits.transferDone ≠ 0

namespace WriteTrace

variable {opening events : List BusEvent} {stage : WriteStage}

theorem command?_program :
    (write32 Register.command Command.program.code.toUInt32).command? = some .program := by
  decide

theorem isOffPorts_control (word : UInt32) : (write32 Register.control word).IsOffPorts :=
  show ¬Bus.IsChipPort Register.control by decide

theorem isOffPorts_status (word : UInt32) : (read32 Register.status word).IsOffPorts :=
  show ¬Bus.IsChipPort Register.status by decide

/-- An event more is a command more, if it is one. -/
theorem commands_concat (events : List BusEvent) (event : BusEvent) :
    commands (events ++ [event]) = commands events ++ event.command?.toList := by
  rw [commands, List.filterMap_append, commands]
  cases h : event.command? with
  | none => rw [List.filterMap_cons_none h]; rfl
  | some command => rw [List.filterMap_cons_some h]; rfl

/-- The commands that have been given, by induction on the events. -/
theorem gives (h : WriteTrace opening stage events)
    (hopening : commands opening = [.programSetup]) :
    stage.Gives (commands events) := by
  -- Only commands count, and no access off the ports is one.
  induction h with
  | address => exact hopening
  | start _ _ ih =>
    rw [commands_concat, (isOffPorts_control _).command?_eq]
    exact (List.append_nil _).trans ih
  | finish _ _ ih =>
    rw [commands_concat, (isOffPorts_status _).command?_eq]
    exact (List.append_nil _).trans ih
  | program _ ih =>
    rw [commands_concat, command?_program]
    exact ⟨0, congrArg (· ++ _) ih⟩
  | quiet _ hevent ih =>
    rw [commands_concat, hevent.command?_eq, Option.toList_none, List.append_nil]
    exact ih
  | check _ hevent ih =>
    obtain ⟨n, ih⟩ := ih
    rw [commands_concat, ih]
    rcases hevent with hevent | hevent
    · rw [hevent]
      exact ⟨n, List.append_nil _⟩
    · rw [hevent]
      exact ⟨n + 1, by rw [List.replicate_succ']; rfl⟩

/-! ### What has come before the program command -/

/-- An event of a longer trace is the last one, or one of the trace before it. -/
theorem concat_eq_append_cons {before after : List BusEvent} {last event : BusEvent}
    (h : events ++ [last] = before ++ event :: after) :
    (before = events ∧ event = last) ∨ ∃ rest, events = before ++ event :: rest := by
  rcases List.eq_nil_or_concat after with rfl | ⟨rest, final, rfl⟩
  · obtain ⟨rfl, hlast⟩ := List.append_inj' h rfl
    exact .inl ⟨rfl, (List.cons.inj hlast).1.symm⟩
  · rw [List.concat_eq_append, ← List.cons_append, ← List.append_assoc] at h
    exact .inr ⟨rest, (List.append_inj' h rfl).1⟩

theorem exists_addressed (h : WriteTrace opening stage events) (hstage : stage = .addressed) :
    ∃ filling, events = opening ++ filling := by
  induction h with
  | address => exact ⟨[], (List.append_nil _).symm⟩
  | quiet _ _ ih =>
    obtain ⟨filling, rfl⟩ := ih hstage
    exact ⟨_, List.append_assoc _ _ _⟩
  | start | finish | program | check => cases hstage

theorem exists_started (h : WriteTrace opening stage events) (hstage : stage = .started) :
    ∃ filling control looking,
      events = opening ++ filling ++ .write32 Register.control control :: looking ∧
      control &&& Bits.startWrite ≠ 0 := by
  induction h with
  | start h hword =>
    obtain ⟨filling, rfl⟩ := h.exists_addressed rfl
    exact ⟨filling, _, [], rfl, hword⟩
  | quiet _ _ ih =>
    obtain ⟨filling, control, looking, rfl, hcontrol⟩ := ih hstage
    exact ⟨filling, control, looking ++ [_], List.append_assoc _ _ _, hcontrol⟩
  | address | finish | program | check => cases hstage

theorem transferred (h : WriteTrace opening stage events) (hstage : stage = .transferred) :
    Transferred opening events := by
  induction h with
  | finish h hword =>
    obtain ⟨filling, control, looking, rfl, hcontrol⟩ := h.exists_started rfl
    exact ⟨filling, control, looking, _, [], List.append_assoc _ _ _, hcontrol, hword⟩
  | @quiet _ _ event _ _ ih =>
    obtain ⟨filling, control, looking, status, rest, rfl, hcontrol, hstatus⟩ := ih hstage
    refine ⟨filling, control, looking, status, rest ++ [event], ?_, hcontrol, hstatus⟩
    rw [List.append_assoc _ _ [event], List.cons_append, List.append_assoc looking,
      List.cons_append]
  | address | start | program | check => cases hstage

/-- A program command comes after a transfer, by induction on the events. -/
theorem transferred_before (h : WriteTrace opening stage events)
    (hopening : commands opening = [.programSetup]) {before after : List BusEvent}
    {event : BusEvent} (hsplit : events = before ++ event :: after)
    (hevent : event.command? = some .program) : Transferred opening before := by
  have hoff : ¬event.IsOffPorts := fun hoff => by rw [hoff.command?_eq] at hevent; cases hevent
  -- The command is the last event, which a step accounts for, or it is in the trace before that.
  induction h generalizing after with
  | address =>
    have hmem : Command.program ∈ commands opening :=
      List.mem_filterMap.2 ⟨event, by rw [hsplit]; simp, hevent⟩
    rw [hopening] at hmem
    exact absurd hmem (by decide)
  | start _ _ ih =>
    obtain ⟨-, rfl⟩ | ⟨rest, hrest⟩ := concat_eq_append_cons hsplit
    · exact absurd (isOffPorts_control _) hoff
    · exact ih hrest
  | finish _ _ ih =>
    obtain ⟨-, rfl⟩ | ⟨rest, hrest⟩ := concat_eq_append_cons hsplit
    · exact absurd (isOffPorts_status _) hoff
    · exact ih hrest
  | program h ih =>
    obtain ⟨rfl, -⟩ | ⟨rest, hrest⟩ := concat_eq_append_cons hsplit
    · exact h.transferred rfl
    · exact ih hrest
  | quiet _ hquiet ih =>
    obtain ⟨-, rfl⟩ | ⟨rest, hrest⟩ := concat_eq_append_cons hsplit
    · exact absurd hquiet hoff
    · exact ih hrest
  | check _ hcheck ih =>
    obtain ⟨-, rfl⟩ | ⟨rest, hrest⟩ := concat_eq_append_cons hsplit
    · rcases hcheck with hcheck | hcheck <;> cases hevent.symm.trans hcheck
    · exact ih hrest

/-- A start bit does not take back what has gone before. -/
theorem addressed_of_started (h : WriteTrace opening stage events) (hstage : stage = .started) :
    WriteTrace opening .addressed events := by
  induction h with
  | start h _ => exact h.quiet (isOffPorts_control _)
  | quiet _ hevent ih => exact (ih hstage).quiet hevent
  | address | finish | program | check => cases hstage

end WriteTrace

/-! ## Steps of a page program -/

/-- The events that address a page to be programmed. -/
def addressing (rowCycles page : Nat) : List BusEvent :=
  .write32 Register.command Command.programSetup.code.toUInt32 ::
    (Framing.addressWords rowCycles .programSetup (some 0) (some page)).map
      (.write32 Register.address)

theorem commands_addressing (rowCycles page : Nat) :
    commands (addressing rowCycles page) = [.programSetup] := by
  have haddress : commands ((Framing.addressWords rowCycles .programSetup (some 0)
      (some page)).map (.write32 Register.address)) = [] := by
    rw [commands, List.filterMap_map, List.filterMap_eq_nil_iff]
    intro word _
    show (if Register.address = Register.command then Command.ofCode? word.toUInt8 else none) = none
    rw [if_neg (by decide)]
  rw [addressing, commands, List.filterMap_cons_some (b := .programSetup) (by decide)]
  exact congrArg _ haddress

variable {β : Type} [Bus β] {clock : β → Nat} {opening : List BusEvent}

namespace Monitor

variable (answers : Bus.Answers clock)

include answers

/-- What the engine does leads back from no stage. -/
theorem serves_writeTrace (stage : WriteStage) :
    Bus.Serves (ticks clock) (Logged (β := β) (WriteTrace opening stage)) :=
  serves_logged answers fun _ _ h hevent => h.quiet hevent

/-- The stages of a page program are phases of its transfer. -/
theorem phases_writeTrace : Channel.Phases (ticks clock)
    (Logged (β := β) (WriteTrace opening .addressed)) (Logged (WriteTrace opening .started))
    (Logged (WriteTrace opening .transferred)) where
  serves_ready := serves_writeTrace answers _
  serves_started := serves_writeTrace answers _
  ready_of_started := fun _ ⟨events, hrecorded, h⟩ =>
    ⟨events, hrecorded, h.addressed_of_started rfl⟩
  start := by
    have hcontrol : Bus.HasRegister (ticks clock) (Logged (β := β) (WriteTrace opening .addressed))
        Register.control := (serves_writeTrace answers _).register (by decide)
    refine hcontrol.read32.state.bind (n := 1) fun word => within_write32 answers
      fun events h => h.start ?_
    rw [Bits.or_and_self]
    decide
  -- The trace moves on exactly when the word that is read shows the transfer to be over.
  look := by
    refine (within_read32 (Q := fun word => WriteTrace opening
      (if word &&& Bits.transferDone != 0 then .transferred else .started)) answers
      fun word events h => ?_).bind (n := 0) fun word => .pure fun monitor h => ?_
    · by_cases hdone : word &&& Bits.transferDone = 0
      · rw [hdone]
        exact h.quiet (WriteTrace.isOffPorts_status word)
      · rw [if_pos (bne_iff_ne.2 hdone)]
        exact h.finish hdone
    · obtain ⟨events, hrecorded, h⟩ := h
      split at h
      · next hdone => rw [if_pos hdone]; exact ⟨events, hrecorded, h⟩
      · next hdone => rw [if_neg hdone]; exact ⟨events, hrecorded, h⟩

/-! ### Commands -/

/-- Words that go to one register are recorded one after the other, by induction on the words. -/
theorem within_forM_write32 (offset : Nat) (words : List UInt32) (events : List BusEvent) :
    Within (ticks clock) words.length (Logged (β := β) (· = events))
      (words.forM fun word => Bus.write32 offset word)
      fun _ => Logged (· = events ++ words.map (.write32 offset)) := by
  induction words generalizing events with
  | nil =>
    rw [List.map_nil, List.append_nil]
    exact .pure fun _ h => h
  | cons word words ih =>
    have hrest := ih (events ++ [.write32 offset word])
    rw [List.append_assoc, List.singleton_append, ← List.map_cons] at hrest
    have hword : Within (ticks clock) 1 (Logged (β := β) (· = events)) (Bus.write32 offset word)
        fun _ => Logged (· = events ++ [.write32 offset word]) :=
      within_write32 answers fun _ h => congrArg (· ++ _) h
    rw [List.length_cons, Nat.add_comm]
    exact hword.bind fun _ => hrest

/-- A page is addressed in front of everything else. -/
theorem within_send_programSetup {poll : Poll} {rowCycles : Nat} (hcycles : rowCycles ≤ 3)
    (page : Nat) {fail : Error → Monitor β → Prop} :
    Within (ticks clock) 6 (Logged (β := β) (· = []))
      (Framing.send poll rowCycles .programSetup (some 0) (some page)).run
      (Ending (fun _ => Logged (WriteTrace (addressing rowCycles page) .addressed)) fail) := by
  have hlen := Framing.length_addressWords_le hcycles .programSetup (some 0) (some page)
  have hcommand : Within (ticks clock) 1 (Logged (β := β) (· = []))
      (Framing.writeCommand .programSetup) fun _ => Logged
        (· = [.write32 Register.command Command.programSetup.code.toUInt32]) :=
    within_write32 answers fun _ h => congrArg (· ++ _) h
  refine Within.le (hcommand.perform.attempt_bind fun _ =>
    (within_forM_write32 answers _ _ _).perform.attempt_bind (n := 0) fun _ =>
      Within.attempt_pure fun monitor h => ?_) (by omega)
  obtain ⟨events, hrecorded, hevents⟩ := h
  refine ⟨events, hrecorded, ?_⟩
  rw [hevents]
  exact .address

/-- A command that takes neither address cycles nor a wait is one event. -/
theorem within_send_lone {command : Command} (hcommand : command = .program ∨ command = .status)
    {P Q : List BusEvent → Prop} (hevent : ∀ events, P events →
      Q (events ++ [.write32 Register.command command.code.toUInt32])) {poll : Poll}
    {rowCycles : Nat} {fail : Error → Monitor β → Prop} :
    Within (ticks clock) 1 (Logged (β := β) P)
      (Framing.send poll rowCycles command none none).run
      (Ending (fun _ => Logged Q) fail) := by
  have hwrite : Within (ticks clock) 1 (Logged (β := β) P) (Framing.writeCommand command)
      fun _ => Logged Q := within_write32 answers hevent
  refine Within.le (hwrite.perform.attempt_bind (n := 0) fun _ => ?_) (Nat.le_refl _)
  rcases hcommand with rfl | rfl <;> exact Within.attempt_pure fun _ h => h

end Monitor

/-! ## Page programs -/

namespace Controller

open Monitor (Logged)

variable (answers : Bus.Answers clock) {profile : Profile} {limit : Nat}
  (hpoll : profile.poll.Reaches limit)

include answers hpoll

/-- The part of a page program that leaves the flash alone: it gets the page transferred, or fails
by a wait of the transfer, with the page addressed. -/
theorem within_fillPage (hsettled : profile.Settled) {pages page : Nat} {data spare : Bytes}
    (hpages : profile.chip.pages = .ok pages) (hpage : page < pages)
    (hdata : data.size = profile.geometry.pageBytes)
    (hspare : spare.size = profile.geometry.spareSize) :
    let opening := addressing profile.chip.rowCycles page
    Within (ticks (Monitor.ticks clock)) (3 * limit + 39 + 2 * windowLen)
      (ReadyWith profile (Logged (β := β) (· = []))) (fillPage page data spare).run
      (Ending
        (fun parity controller =>
          ReadyWith profile (Logged (WriteTrace opening .transferred)) controller ∧
            parity.size = profile.geometry.spareSize - profile.layout.parityStart)
        fun e => ReadyWith profile fun bus =>
          Logged (WriteTrace opening .addressed) bus ∧ e.IsTimeoutOf Channel.writeWaits) := by
  intro opening
  have hwindow := hsettled.fits.spareSize_le
  have hserves : ∀ stage, Bus.Serves (Monitor.ticks clock)
      (Logged (β := β) (WriteTrace opening stage)) := Monitor.serves_writeTrace answers
  have hsettles : ∀ stage, Channel.Settles (Monitor.ticks clock)
      (Logged (β := β) (WriteTrace opening stage)) (Logged (WriteTrace opening stage)) :=
    fun stage => (Channel.settles_acknowledged (hserves stage)).mono (Nat.le_refl _)
      (fun _ h => h) fun _ _ h => ⟨h.state_eq, h.bus.keeps⟩
  have hwrite : Within (Channel.ticks (Monitor.ticks clock)) (3 * limit + 33)
      (Channel.At (Logged (WriteTrace opening .addressed)) .idle)
      (Channel.write (β := Monitor β) profile.poll (setup profile) data).run
      (Ending (fun _ => Channel.At (Logged (WriteTrace opening .transferred)) .idle)
        fun e => Channel.At (fun bus => Logged (WriteTrace opening .addressed) bus ∧
          e.IsTimeoutOf Channel.writeWaits) .idle) :=
    ((Monitor.phases_writeTrace answers).within_write (hsettles .transferred)
      (hsettles .addressed) hpoll _ data).attempt_mono
        (fun _ _ h => h) fun _ _ h => ⟨h.1.state_eq, h.1.bus, h.2⟩
  have hstart := hsettled.fits.parityStart_le
  have hfill : ∀ (user : Bytes) (area : StagingArea),
      (area.fillErased.overlay user).bytes.size = area.bytes.size := by
    intro user area
    show (Bytes.overlay _ 0 _).size = _
    rw [Bytes.size_overlay]
    exact Bytes.size_erased _
  -- Up to the first command nothing is recorded; the window is filled with the page addressed.
  refine Within.le ((ReadyWith.within_requirePage hpages hpage).attempt_bind fun _ =>
    ReadyWith.within_getProfile_bind <|
    (ReadyWith.within_requireSize .page hdata).attempt_bind fun _ =>
    (ReadyWith.within_requireSize .spare hspare).attempt_bind fun _ =>
    (ReadyWith.within_command (by decide) (Monitor.within_send_programSetup answers
      profile.chip.rowCycles_le page)).attempt_bind fun _ =>
    (Within.attempt_lift fun _ h => ⟨_, Bytes.slice_eq_ok (Nat.zero_le _)
      (by rwa [hspare]), h⟩).attempt_bind fun user =>
    (ReadyWith.keeps_stage (hserves .addressed) (hfill user)).state.perform.attempt_bind fun _ =>
    (ReadyWith.within_tryOnChannel hwrite).attempt_bind fun _ =>
    (ReadyWith.keeps_unstage (hserves .transferred)).perform.attempt_bind (n := 0) fun staged =>
      Within.attempt_lift fun controller h => ⟨_, Bytes.slice_eq_ok (by rwa [h.2])
        (Nat.le_refl _), h.1, by rw [Array.size_extract, Nat.min_self, h.2]⟩) ?_
  omega

omit [Bus β] answers hpoll in
/-- The errors of the part of a page program that comes after the transfer. -/
def IsCommitFailure (page : Nat) (e : Error) : Prop :=
  e = .timeout .deviceReady ∨ e = .programFailed page

/-- The part of a page program that may change the flash. -/
theorem within_commitPage (page : Nat) :
    Within (ticks (Monitor.ticks clock)) (limit + 4)
      (ReadyWith profile (Logged (β := β) (WriteTrace opening .transferred))) (commitPage page).run
      (Ending (fun _ => ReadyWith profile (Logged (WriteTrace opening .programmed)))
        fun e => ReadyWith profile fun bus =>
          Logged (WriteTrace opening .programmed) bus ∧ IsCommitFailure page e) := by
  have hstatus : Bus.HasRegister (Monitor.ticks clock)
      (Logged (β := β) (WriteTrace opening .programmed)) Register.status :=
    (Monitor.serves_writeTrace answers .programmed).register (by decide)
  have hready : Within (Monitor.ticks clock) (1 * (limit + 1))
      (Logged (β := β) (WriteTrace opening .programmed)) (Framing.waitReady profile.poll).run
      (Ending (fun _ => Logged (WriteTrace opening .programmed)) fun e bus =>
        Logged (WriteTrace opening .programmed) bus ∧ IsCommitFailure page e) :=
    (Keeps.wait hpoll (hstatus.anySet _)).attempt_mono (fun _ _ h => h) fun _ _ h => ⟨h.1, .inl h.2⟩
  have hbyte : Within (Monitor.ticks clock) 1 (Logged (β := β) (WriteTrace opening .programmed))
      Framing.readByte fun _ => Logged (WriteTrace opening .programmed) :=
    Within.bind (n := 0) (Monitor.within_read32 (Q := fun _ => WriteTrace opening .programmed)
      answers fun _ _ h => h.check (.inl rfl)) fun _ => .pure fun _ h => h
  -- Whatever fails from here on fails behind the command that programs the page.
  refine Within.le ((ReadyWith.within_command (by decide) (Monitor.within_send_lone answers
      (.inl rfl) fun _ h => WriteTrace.program h)).attempt_bind fun _ =>
    ReadyWith.within_getProfile_bind <|
    (ReadyWith.within_tryOnBus hready).attempt_bind fun _ =>
    Within.attempt_bind (n := 0) (Within.attempt_bind (ReadyWith.within_command (by decide)
      (Monitor.within_send_lone answers (.inr rfl) fun _ h =>
        WriteTrace.check h (.inr (by decide)))) fun _ =>
      (ReadyWith.within_onBus hbyte).perform) fun byte => ?_) (by omega)
  split
  · exact Within.throw fun _ h => ⟨h.toReady, h.bus, .inr rfl⟩
  · exact Within.attempt_pure fun _ h => h

end Controller

end NandFlash
