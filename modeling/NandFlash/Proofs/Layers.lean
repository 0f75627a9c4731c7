import NandFlash.Controller.Operations
import NandFlash.Proofs.Program

/-!
# Runs through the layers

A channel, a reading and a controller each carry the layer below along with data of their own. A
step of the lower layer runs as it does on its own and leaves that data alone.
-/

namespace NandFlash

variable {α β ε : Type}

/-- Change the state in which a run has ended. -/
def endIn {σ τ : Type} (wrap : σ → τ) : Except Crash (α × σ) → Except Crash (α × τ) :=
  Except.map fun (a, s) => (a, wrap s)

@[simp] theorem endIn_ok {σ τ : Type} (wrap : σ → τ) (a : α) (s : σ) :
    endIn wrap (.ok (a, s)) = .ok (a, wrap s) := rfl

@[simp] theorem endIn_error {σ τ : Type} (wrap : σ → τ) (defect : Crash) :
    endIn wrap (.error defect : Except Crash (α × σ)) = .error defect := rfl

/-- A run that is reworked at its end follows what it followed before. -/
theorem Follows.map {σ τ γ δ : Type} {x : Except Crash γ} {post : γ → δ → τ → Prop}
    {change : α × σ → δ × τ} {run : Except Crash (α × σ)}
    (h : Follows x (fun c a s => post c (change (a, s)).1 (change (a, s)).2) run) :
    Follows x post (run.map change) := by
  cases x <;> cases run <;> exact h

/-- So does one whose state is wrapped at the end. -/
theorem Follows.endIn {σ τ γ : Type} {x : Except Crash γ} {post : γ → α → τ → Prop}
    {wrap : σ → τ} {run : Except Crash (α × σ)}
    (h : Follows x (fun c a s => post c a (wrap s)) run) :
    Follows x post (NandFlash.endIn wrap run) :=
  h.map

namespace Channel

/-- A step of the bus runs as on the bus alone, and leaves the state of the engine as it is. -/
theorem run_onBus (m : Action β α) (state : DmaState) (bus : β) :
    (onBus m).run ⟨state, bus⟩ = endIn (⟨state, ·⟩) (m.run bus) := by
  show (m bus >>= fun r => _) = endIn _ (m bus)
  cases m bus <;> rfl

/-- So does an attempt. -/
theorem run_tryOnBus (m : Attempt ε β α) (state : DmaState) (bus : β) :
    (tryOnBus m).run.run ⟨state, bus⟩ = endIn (⟨state, ·⟩) (m.run.run bus) :=
  run_onBus m.run state bus

/-- A step of the bus that succeeds. -/
theorem run_onBus_ok {m : Action β α} {bus next : β} {a : α} (h : m.run bus = .ok (a, next))
    (state : DmaState) : (onBus m).run ⟨state, bus⟩ = .ok (a, ⟨state, next⟩) := by
  rw [run_onBus, h, endIn_ok]

/-- An attempt on the bus that comes back, with a value or with an error. -/
theorem run_tryOnBus_ok {m : Attempt ε β α} {bus next : β} {r : Except ε α}
    (h : m.run.run bus = .ok (r, next)) (state : DmaState) :
    (tryOnBus m).run.run ⟨state, bus⟩ = .ok (r, ⟨state, next⟩) :=
  run_onBus_ok h state

/-- Asking for a state changes nothing, and fails with the state that was found. -/
theorem run_expect (expected : DmaState) (channel : Channel β) :
    (expect expected).run.run channel =
      .ok (if channel.state = expected then .ok () else .error (.dmaState expected channel.state),
        channel) := by
  obtain ⟨state, bus⟩ := channel
  cases state <;> cases expected <;> rfl

/-- The check passes in the state that is asked for. -/
theorem run_expect_self {expected : DmaState} {channel : Channel β}
    (h : channel.state = expected) :
    (expect expected).run.run channel = .ok (.ok (), channel) := by
  rw [run_expect, if_pos h]

/-- In any other state it fails. -/
theorem run_expect_of_ne {expected : DmaState} {channel : Channel β}
    (h : channel.state ≠ expected) :
    (expect expected).run.run channel =
      .ok (.error (.dmaState expected channel.state), channel) := by
  rw [run_expect, if_neg h]

theorem run_enter (state found : DmaState) (bus : β) :
    (enter state).run ⟨found, bus⟩ = .ok ((), ⟨state, bus⟩) := rfl

/-- Settling acknowledges a transfer that is over, and recovers from one that is not. -/
theorem run_settle [Bus β] (channel : Channel β) :
    settle.run channel = StateT.run (match channel.state with
      | .idle => pure ()
      | .completed | .aborted => acknowledge
      | .resetRequested | .armed | .running => recover) channel := rfl

/-- Finishing acknowledges a transfer that is over, and refuses any other state. -/
theorem run_finish [Bus β] (channel : Channel β) :
    finish.run.run channel = match channel.state with
      | .completed | .aborted =>
        (perform acknowledge : Attempt Error (Channel β) Unit).run.run channel
      | found => .ok (.error (.dmaState .completed found), channel) := by
  obtain ⟨state, bus⟩ := channel
  cases state <;> rfl

end Channel

namespace Reading

/-- A step of the channel leaves buffer, statistics and reports as they are. -/
theorem run_onChannel (m : Action (Channel β) α) (reading : Reading β) :
    (onChannel m).run reading =
      endIn (fun channel => { reading with channel }) (m.run reading.channel) := by
  obtain ⟨channel, data, stats, reports⟩ := reading
  show (m channel >>= fun r => _) = endIn _ (m channel)
  cases m channel <;> rfl

/-- So does an attempt. -/
theorem run_tryOnChannel (m : Attempt ε (Channel β) α) (reading : Reading β) :
    (tryOnChannel m).run.run reading =
      endIn (fun channel => { reading with channel }) (m.run.run reading.channel) :=
  run_onChannel m.run reading

/-- A step of the channel that succeeds. -/
theorem run_onChannel_ok {m : Action (Channel β) α} {channel next : Channel β} {a : α}
    (h : m.run channel = .ok (a, next)) (data : Bytes) (stats : EccStats)
    (reports : List FieldReport) :
    (onChannel m).run ⟨channel, data, stats, reports⟩ = .ok (a, ⟨next, data, stats, reports⟩) := by
  rw [run_onChannel, h, endIn_ok]

/-- An attempt on the channel that comes back, with a value or with an error. -/
theorem run_tryOnChannel_ok {m : Attempt ε (Channel β) α} {channel next : Channel β}
    {r : Except ε α} (h : m.run.run channel = .ok (r, next)) (data : Bytes) (stats : EccStats)
    (reports : List FieldReport) :
    (tryOnChannel m).run.run ⟨channel, data, stats, reports⟩ =
      .ok (r, ⟨next, data, stats, reports⟩) :=
  run_onChannel_ok h data stats reports

/-- A reading whose channel is in the state that is asked for passes the check. -/
theorem run_expect_self (state : DmaState) (bus : β) (data : Bytes) (stats : EccStats)
    (reports : List FieldReport) :
    (tryOnChannel (Channel.expect state)).run.run ⟨⟨state, bus⟩, data, stats, reports⟩ =
      .ok (.ok (), ⟨⟨state, bus⟩, data, stats, reports⟩) := by
  have hexpect : (Channel.expect state).run.run ⟨state, bus⟩ = .ok (.ok (), ⟨state, bus⟩) :=
    Channel.run_expect_self rfl
  exact run_tryOnChannel_ok hexpect data stats reports

/-- A step of the bus leaves everything but the bus as it is. -/
theorem run_onBus_ok {m : Action β α} {bus next : β} {a : α} (h : m.run bus = .ok (a, next))
    (state : DmaState) (data : Bytes) (stats : EccStats) (reports : List FieldReport) :
    (onBus m).run ⟨⟨state, bus⟩, data, stats, reports⟩ =
      .ok (a, ⟨⟨state, next⟩, data, stats, reports⟩) :=
  run_onChannel_ok (Channel.run_onBus_ok h state) data stats reports

/-- One repair is booked with as many corrections as it has. -/
theorem run_credit (repair : FieldReport) (reading : Reading β) :
    (modify (credit [repair]) : Attempt ε (Reading β) PUnit).run.run reading =
      .ok (.ok ⟨⟩, { reading with
        stats := { reading.stats with
          corrected := reading.stats.corrected + repair.corrections.length }
        reports := reading.reports ++ [repair] }) := by
  show Except.ok (Except.ok _, credit [repair] reading) = _
  rw [credit, List.flatMap_singleton]

variable [Bus β]

/-- Receiving fills the buffer from the device. -/
theorem run_receive (reading : Reading β) :
    receive.run reading = match (Bus.dmaFromDevice reading.data).run reading.channel.bus with
      | .ok (data, bus) => .ok ((), { reading with channel.bus := bus, data })
      | .error defect => .error defect := by
  obtain ⟨⟨state, bus⟩, data, stats, reports⟩ := reading
  show (Bus.dmaFromDevice data bus >>= fun r => _) = match Bus.dmaFromDevice data bus with
    | .ok (data, bus) => _
    | .error defect => _
  cases Bus.dmaFromDevice data bus <;> rfl

/-- Correcting repairs the buffer, and leaves it alone if a field is lost. -/
theorem run_correctFields (g : Geometry) (reading : Reading β) :
    (correctFields g).run reading =
      match (Ecc.correct g reading.data).run.run reading.channel.bus with
      | .ok (.ok (fixed, data), bus) =>
        .ok (.ok fixed, { reading with channel.bus := bus, data })
      | .ok (.error lost, bus) => .ok (.error lost, { reading with channel.bus := bus })
      | .error defect => .error defect := by
  obtain ⟨⟨state, bus⟩, data, stats, reports⟩ := reading
  show ((Ecc.correct g data).run bus >>= fun r => _) = match (Ecc.correct g data).run bus with
    | .ok (.ok (fixed, data), bus) => _
    | .ok (.error lost, bus) => _
    | .error defect => _
  rcases (Ecc.correct g data).run bus with _ | ⟨_ | _, _⟩ <;> rfl

end Reading

namespace Controller

/-- A step of the channel leaves profile, staging area and statistics as they are. -/
theorem run_onChannel (m : Action (Channel β) α) (controller : Controller β) :
    (onChannel m).run controller =
      endIn (fun channel => { controller with channel }) (m.run controller.channel) := by
  obtain ⟨profile, channel, staging, stats⟩ := controller
  show (m channel >>= fun r => _) = endIn _ (m channel)
  cases m channel <;> rfl

/-- So does an attempt. -/
theorem run_tryOnChannel (m : Attempt ε (Channel β) α) (controller : Controller β) :
    (tryOnChannel m).run.run controller =
      endIn (fun channel => { controller with channel }) (m.run.run controller.channel) :=
  run_onChannel m.run controller

/-- A step of the bus leaves everything of a controller but its bus as it is. -/
theorem run_onBus (m : Action β α) (controller : Controller β) :
    (onBus m).run controller =
      endIn (fun bus => { controller with channel.bus := bus }) (m.run controller.channel.bus) := by
  rw [onBus, run_onChannel]
  obtain ⟨profile, ⟨state, bus⟩, staging, stats⟩ := controller
  rw [Channel.run_onBus]
  cases m.run bus <;> rfl

/-- So does an attempt. -/
theorem run_tryOnBus (m : Attempt ε β α) (controller : Controller β) :
    (tryOnBus m).run.run controller =
      endIn (fun bus => { controller with channel.bus := bus })
        (m.run.run controller.channel.bus) :=
  run_onBus m.run controller

theorem run_getProfile (controller : Controller β) :
    (getProfile : Attempt ε (Controller β) Profile).run.run controller =
      .ok (.ok controller.profile, controller) := rfl

/-- A buffer is refused if its size is not the expected one. -/
theorem run_requireSize (buffer : BufferKind) (found expected : Nat)
    (controller : Controller β) :
    (requireSize buffer found expected).run.run controller =
      .ok (if found = expected then .ok () else .error (.bufferSize buffer expected found),
        controller) := by
  unfold requireSize
  by_cases h : found = expected
  · rw [if_pos h, if_pos h]
    rfl
  · rw [if_neg h, if_neg h]
    rfl

/-- A page is refused if it is behind the last one. -/
theorem run_requirePage {pages : Nat} (page : Nat) (controller : Controller β)
    (h : controller.profile.chip.pages = .ok pages) :
    (requirePage page).run.run controller =
      .ok (if page < pages then .ok () else .error (.outOfRange .page page), controller) := by
  unfold requirePage
  rw [run_attempt_bind (run_getProfile controller), run_attempt_bind (run_lift h)]
  by_cases hpage : page < pages
  · rw [if_pos hpage, if_pos hpage]
    rfl
  · rw [if_neg hpage, if_neg hpage]
    rfl

/-- A block is refused if it is behind the last one. -/
theorem run_requireBlock {blocks : Nat} (block : Nat) (controller : Controller β)
    (h : controller.profile.chip.blocks = .ok blocks) :
    (requireBlock block).run.run controller =
      .ok (if block < blocks then .ok () else .error (.outOfRange .block block), controller) := by
  unfold requireBlock
  rw [run_attempt_bind (run_getProfile controller), run_attempt_bind (run_lift h)]
  by_cases hblock : block < blocks
  · rw [if_pos hblock, if_pos hblock]
    rfl
  · rw [if_neg hblock, if_neg hblock]
    rfl

/-! A check that passes does nothing else, and one that fails ends what it stands in front of. -/

section

variable {controller : Controller β} {pages blocks page block found expected : Nat}

theorem run_requireSize_pass (buffer : BufferKind) (h : found = expected) :
    (requireSize buffer found expected).run.run controller = .ok (.ok (), controller) := by
  rw [run_requireSize, if_pos h]

theorem run_requireSize_fail (buffer : BufferKind) (h : found ≠ expected) :
    (requireSize buffer found expected).run.run controller =
      .ok (.error (.bufferSize buffer expected found), controller) := by
  rw [run_requireSize, if_neg h]

theorem run_requirePage_pass (hpages : controller.profile.chip.pages = .ok pages)
    (h : page < pages) : (requirePage page).run.run controller = .ok (.ok (), controller) := by
  rw [run_requirePage page controller hpages, if_pos h]

theorem run_requirePage_fail (hpages : controller.profile.chip.pages = .ok pages)
    (h : ¬page < pages) : (requirePage page).run.run controller =
      .ok (.error (.outOfRange .page page), controller) := by
  rw [run_requirePage page controller hpages, if_neg h]

theorem run_requireBlock_pass (hblocks : controller.profile.chip.blocks = .ok blocks)
    (h : block < blocks) : (requireBlock block).run.run controller = .ok (.ok (), controller) := by
  rw [run_requireBlock block controller hblocks, if_pos h]

theorem run_requireBlock_fail (hblocks : controller.profile.chip.blocks = .ok blocks)
    (h : ¬block < blocks) : (requireBlock block).run.run controller =
      .ok (.error (.outOfRange .block block), controller) := by
  rw [run_requireBlock block controller hblocks, if_neg h]

end

variable [Bus β]

/-- Staging fills the staging area and stores it to the window. -/
theorem run_stage (fill : StagingArea → StagingArea) (controller : Controller β) :
    (stage fill).run controller =
      endIn (fun bus => { controller with
        channel.bus := bus, staging := fill controller.staging })
        ((fill controller.staging).store.run controller.channel.bus |>.map
          fun (_, bus) => ((), bus)) := by
  obtain ⟨profile, ⟨state, bus⟩, staging, stats⟩ := controller
  show ((fill staging).store bus >>= fun r => _) = endIn _ (Except.map _ ((fill staging).store bus))
  cases (fill staging).store bus <;> rfl

/-- Loading the window goes into the staging area, and answers its bytes. -/
theorem run_unstage (controller : Controller β) :
    unstage.run controller = match controller.staging.load.run controller.channel.bus with
      | .ok (staging, bus) =>
        .ok (staging.bytes, { controller with channel.bus := bus, staging })
      | .error defect => .error defect := by
  obtain ⟨profile, ⟨state, bus⟩, staging, stats⟩ := controller
  show (staging.load bus >>= fun r => _) = match staging.load bus with
    | .ok (staging, bus) => _
    | .error defect => _
  cases staging.load bus <;> rfl

/-- A transfer is a reading that starts with no reports, and whose statistics are kept. -/
theorem run_transferIn (page : Nat) (data : Bytes) (controller : Controller β) :
    (transferIn page data).run controller =
      ((Reading.read controller.profile.poll (setup controller.profile)
          controller.profile.geometry page).run.run
          ⟨controller.channel, data, controller.stats, []⟩).map fun (outcome, reading) =>
        ((outcome, reading.data),
          { controller with channel := reading.channel, stats := reading.stats }) := by
  obtain ⟨profile, channel, staging, stats⟩ := controller
  show ((Reading.read profile.poll (setup profile) profile.geometry page).run
    ⟨channel, data, stats, []⟩ >>= fun r => _) = Except.map _
    ((Reading.read profile.poll (setup profile) profile.geometry page).run
      ⟨channel, data, stats, []⟩)
  cases (Reading.read profile.poll (setup profile) profile.geometry page).run
    ⟨channel, data, stats, []⟩ <;> rfl

/-- Probing starts a controller with the profile that bringing up has come to. -/
theorem probe_of_run_bringUp {setting : PowerOn} {config : Config} {bus probed : β}
    {outcome : Except Error Profile}
    (h : (bringUp setting config).run.run bus = .ok (outcome, probed)) :
    probe setting config bus = .ok (outcome.map fun profile => start profile probed) := by
  show ((bringUp setting config).run.run bus >>= fun r => _) = _
  rw [h]
  cases outcome <;> rfl

/-- A controller that has been probed is one that bringing up has found a profile for. -/
theorem exists_of_probe {setting : PowerOn} {config : Config} {bus : β} {controller : Controller β}
    (h : probe setting config bus = .ok (.ok controller)) :
    ∃ profile probed, (bringUp setting config).run.run bus = .ok (.ok profile, probed) ∧
      controller = start profile probed := by
  obtain ⟨⟨outcome, probed⟩, hrun, hstart⟩ := exists_of_bind_eq_ok h
  cases outcome with
  | error e => cases hstart
  | ok profile =>
    cases hstart
    exact ⟨profile, probed, hrun, rfl⟩

end Controller

end NandFlash
