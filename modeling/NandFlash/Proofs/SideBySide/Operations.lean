import NandFlash.Controller.Request
import NandFlash.Proofs.Profile
import NandFlash.Proofs.SideBySide.Transfer

/-!
# Operations side by side

Apart from transfers, a controller talks to the chip: it sends commands, each with the column and
row that the command is for, and moves bytes through the data register. `Bus.Tolerates` collects
what a relation has to outlive if it is to outlive every operation of a controller, and `Bus.Wakes`
the same for probing, where the relation changes on the way.
-/

namespace NandFlash

variable {α β γ ε : Type} {may : Crash → Prop} {inv : β → γ → Prop}

/-- The commands of a controller, with the column and row each of them is sent with. -/
inductive Addressed : Command → Option Nat → Option Nat → Prop where
  | page {command : Command} {column : Nat} (row : Nat)
    (hcommand : command = .read ∨ command = .programSetup) (hcolumn : column < 65536) :
    Addressed command (some column) (some row)
  | block (row : Nat) : Addressed .eraseSetup none (some row)
  | bare {command : Command} (hcommand : command ∈ [.program, .erase, .status, .reset]) :
    Addressed command none none

/-- A column is only ever set along with a page. -/
theorem Addressed.ne_columnRead {command : Command} {column row : Option Nat}
    (h : Addressed command column row) : command ≠ .columnRead := by
  rintro rfl
  cases h <;> simp at *

/-- What follows the address bytes: further commands, and a wait for the ready line. Only the
command that pauses is not in use. -/
theorem Framing.inStep_conclude [Bus β] [Bus γ] {poll : Poll} (hpoll : Patient may poll)
    (hcode : ∀ command ∈ [Command.readConfirm, .status, .reset],
      InStep may inv (writeCommand command) (writeCommand command) Any)
    (hready : InStep may inv (Bus.anySet Register.status Bits.ready)
      (Bus.anySet Register.status Bits.ready) Any)
    {command : Command} (hcommand : command ≠ .columnRead) :
    TryInStep may inv (conclude poll command) (conclude poll command) Any := by
  have hwait : TryInStep may inv (waitReady poll) (waitReady poll) Any :=
    .wait hpoll (.perform hready)
  cases command with
  | programSetup | program | programCached | eraseSetup | erase | columnWrite | status =>
    exact TryInStep.pure trivial
  | readConfirm | readSpare | columnReadConfirm | readId => exact hwait
  | read => exact (TryInStep.perform (hcode .readConfirm (by decide))).next fun _ => hwait
  | reset =>
    refine (TryInStep.perform (hcode .status (by decide))).next fun _ => ?_
    exact (TryInStep.perform (hcode .reset (by decide))).next fun _ => hwait
  | columnRead => exact absurd rfl hcommand

/-- A command only goes to the ports of the chip and waits for the ready line. -/
theorem Framing.inStep_send [Bus β] [Bus γ] {poll : Poll} (hpoll : Patient may poll)
    (hwrite : ∀ offset ∈ [Register.command, Register.address], ∀ value,
      InStep may inv (Bus.write32 offset value) (Bus.write32 offset value) Any)
    (hready : InStep may inv (Bus.anySet Register.status Bits.ready)
      (Bus.anySet Register.status Bits.ready) Any)
    (rowCycles : Nat) {command : Command} (hcommand : command ≠ .columnRead)
    (column row : Option Nat) :
    TryInStep may inv (send poll rowCycles command column row)
      (send poll rowCycles command column row) Any := by
  have hcode : ∀ command, InStep may inv (writeCommand (β := β) command)
      (writeCommand (β := γ) command) Any := fun command => hwrite _ (by decide) _
  unfold send
  refine (TryInStep.perform (hcode command)).next fun _ => ?_
  refine (TryInStep.perform (InStep.forM fun word => hwrite _ (by decide) word)).next fun _ => ?_
  exact inStep_conclude hpoll (fun command _ => hcode command) hready hcommand

/-- The identification comes through the data register, after its command. -/
theorem Framing.inStep_readId [Bus β] [Bus γ] {poll : Poll}
    (hsend : TryInStep may inv (send poll 0 .readId none none) (send poll 0 .readId none none) Any)
    (hread : InStep may inv (Bus.read32 Register.data) (Bus.read32 Register.data) Any) :
    TryInStep may inv (readId poll) (readId poll) Any := by
  have hbyte : TryInStep may inv (perform readByte : Attempt Error β UInt8) (perform readByte)
      Any :=
    .perform (hread.next fun _ => .pure trivial)
  unfold readId
  refine hsend.next fun _ => hbyte.next fun _ => hbyte.next fun _ => hbyte.next fun _ => ?_
  exact hbyte.next fun _ => hbyte.next fun _ => hbyte.next fun _ => TryInStep.pure trivial

/-- The first row of a block is a 32-bit number. -/
def ChipInfo.HasRow (chip : ChipInfo) (block : Nat) : Prop :=
  ∃ pagesPerBlock, chip.pagesPerBlock = .ok pagesPerBlock ∧ block * pagesPerBlock < UInt32.size

namespace Bus

variable [Bus β] [Bus γ]

/-- A relation between two buses that outlives what is done with pages of the given rows. -/
structure Admits (may : Crash → Prop) (profile : Profile) (rows : Nat → Prop)
    (inv : β → γ → Prop) : Prop extends Permits may (Controller.setup profile) inv where
  address : ∀ {row}, rows row → ∀ {command column}, command = .read ∨ command = .programSetup →
    column < 65536 → TryInStep may inv
      (Framing.send profile.poll profile.chip.rowCycles command (some column) (some row))
      (Framing.send profile.poll profile.chip.rowCycles command (some column) (some row)) Any
  bare : ∀ command ∈ [Command.program, .status], TryInStep may inv
    (Framing.send profile.poll profile.chip.rowCycles command none none)
    (Framing.send profile.poll profile.chip.rowCycles command none none) Any
  readPort : InStep may inv (Bus.read32 Register.data) (Bus.read32 Register.data) Any

/-- A relation between two buses that outlives everything the operations of a controller do. -/
structure Tolerates (may : Crash → Prop) (profile : Profile) (inv : β → γ → Prop) : Prop extends
    Permits may (Controller.setup profile) inv where
  send : ∀ {command column row}, Addressed command column row → TryInStep may inv
    (Framing.send profile.poll profile.chip.rowCycles command column row)
    (Framing.send profile.poll profile.chip.rowCycles command column row) Any
  readId : TryInStep may inv (Framing.readId profile.poll) (Framing.readId profile.poll) Any
  readPort : InStep may inv (Bus.read32 Register.data) (Bus.read32 Register.data) Any
  writePort : ∀ value, InStep may inv
    (Bus.write32 Register.data value) (Bus.write32 Register.data value) Any

/-- What outlives all commands outlives those for the pages of some rows. -/
theorem Tolerates.admits {profile : Profile} (h : Tolerates may profile inv)
    (rows : Nat → Prop) : Admits may profile rows inv where
  toPermits := h.toPermits
  address _ _ _ hcommand hcolumn := h.send (.page _ hcommand hcolumn)
  bare command hcommand := by
    rw [List.mem_cons, List.mem_singleton] at hcommand
    rcases hcommand with rfl | rfl <;> exact h.send (.bare (by decide))
  readPort := h.readPort

/-- What probing does to two buses: it finds them in `fresh`, selects the chip, which makes them
`awake`, learns an identification, and leaves them `tuned` to the geometry it has settled on. -/
structure Wakes (may : Crash → Prop) (poll : Poll) (fresh awake : β → γ → Prop)
    (known : IdBytes → Prop) (tuned : Geometry → β → γ → Prop) : Prop where
  enable : ∀ offset ∈ [Register.globalControl, Register.timing], ∀ value,
    InStep may fresh (Bus.write32 offset value) (Bus.write32 offset value) Any
  selectChip : Parallel may fresh
    (Bus.replaceBits Register.control Bits.chipSelectMask Bits.chipSelect0)
    (Bus.replaceBits Register.control Bits.chipSelectMask Bits.chipSelect0) fun _ => awake
  unlock : InStep may awake (Bus.write32 Register.writeProtect Bits.writeUnlock)
    (Bus.write32 Register.writeProtect Bits.writeUnlock) Any
  reset : InStep may awake
    (Bus.setBits Register.control Bits.reset) (Bus.setBits Register.control Bits.reset) Any
  isReset : InStep may awake
    (Bus.allClear Register.control Bits.reset) (Bus.allClear Register.control Bits.reset) Any
  sendReset : TryInStep may awake (Framing.send poll 0 .reset none none)
    (Framing.send poll 0 .reset none none) Any
  readId : TryInStep may awake (Framing.readId poll) (Framing.readId poll) known
  programGeometry : ∀ g, Parallel may awake
    (Controller.programGeometry g) (Controller.programGeometry g) fun _ => tuned g

end Bus

/-! ## Probing -/

namespace Controller

/-- A profile that was settled on for one of the known identifications. -/
structure Identified (known : IdBytes → Prop) (poll : Poll) (profile : Profile) : Prop where
  settled : profile.Settled
  exists_id : ∃ id, known id ∧ ChipInfo.decode id = .ok profile.chip
  poll_eq : profile.poll = poll

/-- An identification is read without a bus, so that both sides read it alike. -/
theorem parallel_decode (known : IdBytes → Prop) (id : IdBytes) {inv : β → γ → Prop} :
    Parallel may (fun bus other => inv bus other ∧ known id)
      (ExceptT.mk (pure (ChipInfo.decode id)) : Attempt Error β ChipInfo).run
      (ExceptT.mk (pure (ChipInfo.decode id)) : Attempt Error γ ChipInfo).run
      (Ending (fun chip bus other => inv bus other ∧ known id ∧ ChipInfo.decode id = .ok chip)
        fun _ => inv) := by
  rintro bus other ⟨hbus, hid⟩
  refine .inl ⟨ChipInfo.decode id, bus, other, rfl, rfl, ?_⟩
  cases ChipInfo.decode id with
  | ok chip => exact ⟨hbus, hid, rfl⟩
  | error e => exact hbus

/-- Probing finds the same geometry on two buses that it wakes, and leaves them tuned to it. -/
theorem parallel_bringUp [Bus β] [Bus γ] {fresh awake : β → γ → Prop} {known : IdBytes → Prop}
    {tuned : Geometry → β → γ → Prop} {config : Config}
    (h : Bus.Wakes may config.poll fresh awake known tuned) (hpoll : Patient may config.poll)
    (setting : PowerOn) :
    Parallel may fresh (bringUp (β := β) setting config).run (bringUp (β := γ) setting config).run
      (Ending (fun profile bus other => tuned profile.geometry bus other ∧
        Identified known config.poll profile) fun _ => awake) := by
  unfold bringUp
  refine (h.enable _ (by decide) _).parallel.perform.attempt_bind fun _ => ?_
  refine (h.enable _ (by decide) _).parallel.perform.attempt_bind fun _ => ?_
  refine h.selectChip.perform.attempt_bind fun _ => ?_
  refine (TryInStep.perform h.unlock).parallel_any.attempt_bind fun _ => ?_
  refine (TryInStep.perform h.reset).parallel_any.attempt_bind fun _ => ?_
  refine (TryInStep.wait hpoll (.perform h.isReset)).parallel_any.attempt_bind fun _ => ?_
  refine h.sendReset.parallel_any.attempt_bind fun _ => h.readId.parallel.attempt_bind fun id => ?_
  refine (parallel_decode known id).attempt_bind fun chip => ?_
  -- From here on the two sides choose by the same identification, and end alike.
  rintro bus other ⟨hbus, hid, hchip⟩
  cases hchoose : Selection.choose chip.pageSize chip.spareSize setting with
  | error e => exact .inl ⟨_, bus, other, rfl, rfl, hbus⟩
  | ok selection =>
    refine ((h.programGeometry selection.geometry).perform.attempt_bind fun _ =>
      Parallel.pure fun bus other htuned => ?_) bus other hbus
    exact ⟨htuned, ⟨ChipInfo.scaled_of_decode hchip, Selection.fits_of_choose hchoose⟩,
      ⟨id, hid, hchip⟩, rfl⟩

/-! ## A controller between two operations -/

/-- Two controllers with the same profile that have come to the same. -/
structure Paired (profile : Profile) (inv : β → γ → Prop) (controller : Controller β)
    (other : Controller γ) : Prop where
  profile_eq : controller.profile = profile
  otherProfile_eq : other.profile = profile
  channel : Channel.Paired inv controller.channel other.channel
  size_eq : controller.staging.bytes.size = profile.geometry.spareSize
  staging_eq : other.staging = controller.staging
  stats_eq : other.stats = controller.stats

/-- Two controllers start out from the same profile, and from related buses. -/
theorem paired_start (profile : Profile) {bus : β} {other : γ} (h : inv bus other) :
    Paired profile inv (start profile bus) (start profile other) :=
  ⟨rfl, rfl, ⟨rfl, h⟩, Bytes.size_erased _, rfl, rfl⟩

variable {profile : Profile}

/-- What the channels do in step, the controllers do. -/
theorem inStep_onChannel {m : Action (Channel β) α} {m' : Action (Channel γ) α} {post : α → Prop}
    (h : InStep may (Channel.Paired inv) m m' post) :
    InStep may (Paired profile inv) (onChannel m) (onChannel m') post := by
  intro controller other hpaired
  rw [run_onChannel, run_onChannel]
  rcases h _ _ hpaired.channel with ⟨a, next, next', hrun, hrun', hnext, hpost⟩ | hcrash
  · rw [hrun, hrun']
    exact .inl ⟨a, _, _, rfl, rfl, ⟨hpaired.profile_eq, hpaired.otherProfile_eq, hnext,
      hpaired.size_eq, hpaired.staging_eq, hpaired.stats_eq⟩, hpost⟩
  · obtain ⟨defect, hmay, hrun, hrun'⟩ := hcrash
    rw [hrun, hrun']
    exact .inr ⟨defect, hmay, rfl, rfl⟩

/-- The same for an attempt. -/
theorem inStep_tryOnChannel {m : Attempt ε (Channel β) α} {m' : Attempt ε (Channel γ) α}
    {post : α → Prop} (h : TryInStep may (Channel.Paired inv) m m' post) :
    TryInStep may (Paired profile inv) (tryOnChannel m) (tryOnChannel m') post :=
  inStep_onChannel h

theorem inStep_onBus {m : Action β α} {m' : Action γ α} {post : α → Prop}
    (h : InStep may inv m m' post) : InStep may (Paired profile inv) (onBus m) (onBus m') post :=
  inStep_onChannel (Channel.inStep_onBus h)

theorem inStep_tryOnBus {m : Attempt ε β α} {m' : Attempt ε γ α} {post : α → Prop}
    (h : TryInStep may inv m m' post) :
    TryInStep may (Paired profile inv) (tryOnBus m) (tryOnBus m') post :=
  inStep_onBus h

/-! ### Checks of arguments -/

/-- Both hand out the profile they share. -/
theorem inStep_getProfile :
    TryInStep may (Paired profile inv) (getProfile : Attempt ε (Controller β) Profile)
      (getProfile : Attempt ε (Controller γ) Profile) fun found => found = profile := by
  intro controller other hpaired
  have hsame : other.profile = controller.profile :=
    hpaired.otherProfile_eq.trans hpaired.profile_eq.symm
  refine .inl ⟨.ok controller.profile, controller, other, rfl, ?_, hpaired, hpaired.profile_eq⟩
  rw [run_getProfile, hsame]

/-- A condition that both controllers find alike, or both refuse to go on. -/
theorem inStep_unless (p : Prop) [Decidable p] (e : Error) :
    TryInStep may (Paired profile inv) (unless p do throw e : Attempt Error (Controller β) Unit)
      (unless p do throw e : Attempt Error (Controller γ) Unit) fun _ => p := by
  by_cases h : p
  · rw [if_pos h, if_pos h]
    exact TryInStep.pure h
  · rw [if_neg h, if_neg h]
    exact TryInStep.throw

/-- A buffer of the wrong size is refused by both. -/
theorem inStep_requireSize (buffer : BufferKind) (found expected : Nat) :
    TryInStep may (Paired profile inv) (requireSize (β := β) buffer found expected)
      (requireSize (β := γ) buffer found expected) fun _ => found = expected :=
  inStep_unless _ _

/-- A page out of range is refused by both. -/
theorem inStep_requirePage (hsettled : profile.Settled) (page : Nat) :
    TryInStep may (Paired profile inv) (requirePage (β := β) page) (requirePage (β := γ) page)
      Any := by
  obtain ⟨pages, hpages⟩ := hsettled.exists_pages
  unfold requirePage
  refine inStep_getProfile.bind fun found hfound => ?_
  subst hfound
  refine (TryInStep.lift hpages).bind fun pages _ => ?_
  exact (inStep_unless _ _).mono fun _ _ => trivial

/-- A block that is not refused has a row of 32 bits. -/
theorem inStep_requireBlock (hsettled : profile.Settled) (block : Nat) :
    TryInStep may (Paired profile inv) (requireBlock (β := β) block) (requireBlock (β := γ) block)
      fun _ => profile.chip.HasRow block := by
  obtain ⟨page, size, capacity, hscaled⟩ := hsettled.scaled
  unfold requireBlock
  refine inStep_getProfile.bind fun found hfound => ?_
  subst hfound
  refine (TryInStep.lift hscaled.blocks_eq).bind fun blocks hblocks => ?_
  subst hblocks
  exact (inStep_unless _ _).mono fun _ hblock =>
    ⟨_, hscaled.pagesPerBlock_eq, hscaled.firstRow_lt hblock⟩

/-- A block has the same first row for both, or is refused by both. -/
theorem inStep_firstRow {block : Nat} (hrow : profile.chip.HasRow block) :
    TryInStep may (Paired profile inv) (firstRow (β := β) block) (firstRow (β := γ) block) Any := by
  obtain ⟨pagesPerBlock, hpages, hlt⟩ := hrow
  unfold firstRow
  refine inStep_getProfile.bind fun found hfound => ?_
  subst hfound
  refine (TryInStep.lift hpages).bind fun pages heq => ?_
  subst heq
  exact (TryInStep.lift (if_pos hlt)).mono fun _ _ => trivial

variable [Bus β] [Bus γ]

/-! ### Commands and the data register -/

/-- A command goes out on both sides, if the relation outlives it on the buses. -/
theorem inStep_command {command : Command} {column row : Option Nat}
    (hcommand : command ≠ .readSpare)
    (hsend : TryInStep may inv
      (Framing.send profile.poll profile.chip.rowCycles command column row)
      (Framing.send profile.poll profile.chip.rowCycles command column row) Any) :
    TryInStep may (Paired profile inv) (Controller.command (β := β) command column row)
      (Controller.command (β := γ) command column row) Any := by
  unfold Controller.command
  refine inStep_getProfile.bind fun found hfound => ?_
  subst hfound
  cases command with
  | readSpare => exact absurd rfl hcommand
  | _ => exact inStep_tryOnBus hsend

section

variable {rows : Nat → Prop} (h : Bus.Admits may profile rows inv)

include h

theorem inStep_readByte :
    InStep may inv (Framing.readByte (β := β)) (Framing.readByte (β := γ)) Any :=
  h.readPort.next fun _ => .pure trivial

/-- Bytes come in one by one, as many as are asked for. -/
theorem inStep_readData (count : Nat) :
    InStep may inv (Framing.readData (β := β) count) (Framing.readData (β := γ) count)
      fun bytes => bytes.size = count := by
  have hbyte : InStep may inv (do return (← Bus.read32 Register.data).toUInt8 : Action β UInt8)
      (do return (← Bus.read32 Register.data).toUInt8 : Action γ UInt8) Any :=
    h.readPort.next fun _ => .pure trivial
  unfold Framing.readData
  exact (InStep.mapM fun _ => hbyte).bind fun bytes hbytes => .pure
    (by rw [List.size_toArray, hbytes.length_eq, List.length_range])

/-- A wait for the ready line is as long as its limit allows, on both sides. -/
theorem inStep_waitReady (hpoll : Patient may profile.poll) :
    TryInStep may inv (Framing.waitReady (β := β) profile.poll)
      (Framing.waitReady (β := γ) profile.poll) Any :=
  .wait hpoll (.perform (h.anySet (by decide) _))

/-- The small-page spare command goes out as a read behind the page data. -/
theorem inStep_command_readSpare {row : Nat} (hrow : rows row) :
    TryInStep may (Paired profile inv) (Controller.command (β := β) .readSpare (some 0) (some row))
      (Controller.command (β := γ) .readSpare (some 0) (some row)) Any := by
  have hcolumn : 0 + profile.geometry.pageBytes < 65536 := by
    have hpage := profile.geometry.pageBytes_le
    omega
  have hword : 0 + profile.geometry.pageBytes < UInt64.size :=
    Nat.lt_trans hcolumn (by decide)
  unfold Controller.command
  refine inStep_getProfile.bind fun found hfound => ?_
  subst hfound
  refine (TryInStep.lift (if_pos hword)).bind fun column heq => ?_
  subst heq
  exact inStep_tryOnBus (h.address hrow (.inl rfl) hcolumn)

/-- Programs and erasures fail for both, or for neither. -/
theorem inStep_awaitSuccess (hpoll : Patient may profile.poll) (failure : Error) :
    TryInStep may (Paired profile inv) (awaitSuccess (β := β) failure)
      (awaitSuccess (β := γ) failure) Any := by
  have hstatus : TryInStep may (Paired profile inv) (status (β := β)) (status (β := γ)) Any :=
    (inStep_command (by decide) (h.bare .status (by decide))).next fun _ =>
      .perform (inStep_onBus (inStep_readByte h))
  unfold awaitSuccess
  refine inStep_getProfile.bind fun found hfound => ?_
  subst hfound
  refine (inStep_tryOnBus (inStep_waitReady h hpoll)).next fun _ => hstatus.next fun byte => ?_
  by_cases hfail : (byte &&& statusFail != 0) = true
  · simp only [hfail, if_true]
    exact TryInStep.throw
  · simp only [hfail]
    exact TryInStep.pure trivial

/-! ### The staging area -/

/-- The staging area is filled alike, with its size left alone. -/
theorem inStep_stage {fill : StagingArea → StagingArea}
    (hfill : ∀ area, (fill area).bytes.size = area.bytes.size) :
    InStep may (Paired profile inv) (stage (β := β) fill) (stage (β := γ) fill) Any := by
  intro controller other hpaired
  have hstore : InStep may inv ((fill controller.staging).store (β := β))
      ((fill controller.staging).store (β := γ)) Any :=
    InStep.forM fun item => h.write8 item.2 item.1
  rw [run_stage, run_stage, hpaired.staging_eq]
  rcases hstore _ _ hpaired.channel.bus with ⟨_, next, next', hrun, hrun', hnext, -⟩ | hcrash
  · rw [hrun, hrun']
    exact .inl ⟨(), _, _, rfl, rfl, ⟨hpaired.profile_eq, hpaired.otherProfile_eq,
      ⟨hpaired.channel.state_eq, hnext⟩, (hfill _).trans hpaired.size_eq, rfl, hpaired.stats_eq⟩,
      trivial⟩
  · obtain ⟨defect, hmay, hrun, hrun'⟩ := hcrash
    rw [hrun, hrun']
    exact .inr ⟨defect, hmay, rfl, rfl⟩

/-- Both read the staging area back. -/
theorem inStep_unstage :
    InStep may (Paired profile inv) (unstage (β := β)) (unstage (β := γ))
      fun bytes => bytes.size = profile.geometry.spareSize := by
  intro controller other hpaired
  have hload : InStep may inv (controller.staging.load (β := β))
      (controller.staging.load (β := γ))
      fun area => area.bytes.size = profile.geometry.spareSize := by
    unfold StagingArea.load
    refine (InStep.mapM fun i => h.read8 i).bind fun bytes hbytes => .pure ?_
    rw [List.size_toArray, hbytes.length_eq, List.length_range, hpaired.size_eq]
  rw [run_unstage, run_unstage, hpaired.staging_eq]
  rcases hload _ _ hpaired.channel.bus with ⟨area, next, next', hrun, hrun', hnext, hsize⟩ | hcrash
  · rw [hrun, hrun']
    exact .inl ⟨area.bytes, _, _, rfl, rfl, ⟨hpaired.profile_eq, hpaired.otherProfile_eq,
      ⟨hpaired.channel.state_eq, hnext⟩, hsize, rfl, hpaired.stats_eq⟩, hsize⟩
  · obtain ⟨defect, hmay, hrun, hrun'⟩ := hcrash
    rw [hrun, hrun']
    exact .inr ⟨defect, hmay, rfl, rfl⟩

/-! ### Pages -/

/-- The data of a page comes in through a transfer. -/
theorem inStep_transferIn (hpoll : Patient may profile.poll) (page : Nat) (data : Bytes) :
    InStep may (Paired profile inv) (transferIn (β := β) page data)
      (transferIn (β := γ) page data) Any := by
  intro controller other hpaired
  rw [run_transferIn, run_transferIn, hpaired.profile_eq, hpaired.otherProfile_eq,
    hpaired.stats_eq]
  rcases Reading.inStep_read h.toPermits hpoll profile.geometry page
    ⟨controller.channel, data, controller.stats, []⟩ ⟨other.channel, data, controller.stats, []⟩
    ⟨hpaired.channel, rfl, rfl, rfl⟩ with
    ⟨outcome, reading, reading', hrun, hrun', hreading, -⟩ | ⟨defect, hmay, hrun, hrun'⟩
  · rw [hrun, hrun']
    simp only [Except.map, hreading.data_eq]
    exact .inl ⟨_, _, _, rfl, rfl, ⟨rfl, rfl, hreading.channel, hpaired.size_eq,
      hpaired.staging_eq, hreading.stats_eq⟩, trivial⟩
  · rw [hrun, hrun']
    exact .inr ⟨defect, hmay, rfl, rfl⟩

variable (hsettled : profile.Settled) (hpoll : Patient may profile.poll)

include hsettled

/-- The spare bytes of a page come through the data register. -/
theorem inStep_readSpare {page : Nat} (hpage : rows page) (spareLen : Nat) :
    TryInStep may (Paired profile inv) (readSpare (β := β) page spareLen)
      (readSpare (β := γ) page spareLen) fun spare => spare.size = profile.geometry.spareSize := by
  unfold readSpare
  refine (inStep_requirePage hsettled page).next fun _ => ?_
  refine inStep_getProfile.bind fun found hfound => ?_
  subst hfound
  refine (inStep_requireSize _ _ _).bind fun _ hlen => (inStep_command_readSpare h hpage).next
    fun _ => ?_
  refine (TryInStep.perform (inStep_onBus (inStep_readData h spareLen))).bind fun spare hspare => ?_
  exact (TryInStep.perform (inStep_stage h fun _ => Bytes.size_overlay _ _ _)).next fun _ =>
    TryInStep.pure (hspare.trans hlen)

include hpoll

/-- The parity that comes back fills the spare area behind the bytes of the user. -/
theorem inStep_fillPage {page : Nat} (hpage : rows page) (data spare : Bytes) :
    TryInStep may (Paired profile inv) (fillPage (β := β) page data spare)
      (fillPage (β := γ) page data spare)
      fun parity => profile.layout.parityStart + parity.size = spare.size := by
  have hstart := hsettled.fits.parityStart_le
  unfold fillPage
  refine (inStep_requirePage hsettled page).next fun _ => ?_
  refine inStep_getProfile.bind fun found hfound => ?_
  subst hfound
  refine (inStep_requireSize _ _ _).bind fun _ _ => (inStep_requireSize _ _ _).bind
    fun _ hspare => ?_
  refine (inStep_command (by decide) (h.address hpage (.inr rfl) (by decide))).next fun _ => ?_
  refine (TryInStep.lift (Bytes.slice_eq_ok (Nat.zero_le _) (by rwa [hspare]))).bind
    fun user _ => ?_
  refine (TryInStep.perform (inStep_stage h fun _ => ?_)).next fun _ => ?_
  · exact (Bytes.size_overlay _ _ _).trans (Bytes.size_erased _)
  refine (inStep_tryOnChannel (Channel.inStep_write h.toPermits hpoll data)).next fun _ => ?_
  refine (TryInStep.perform (inStep_unstage h)).bind fun staged hstaged => ?_
  refine (TryInStep.lift (Bytes.slice_eq_ok (by rwa [hstaged]) (Nat.le_refl _))).mono
    fun parity hparity => ?_
  rw [hparity, Array.size_extract, hstaged, hspare]
  omega

omit hsettled in
/-- A page is committed by a program command, and its status is looked at. -/
theorem inStep_commitPage (page : Nat) :
    TryInStep may (Paired profile inv) (commitPage (β := β) page) (commitPage (β := γ) page) Any :=
  (inStep_command (by decide) (h.bare .program (by decide))).next fun _ =>
    inStep_awaitSuccess h hpoll _

/-- A page of the given rows is programmed alike. -/
theorem inStep_writePage {page : Nat} (hpage : rows page) (data spare : Bytes) :
    InStep may (Paired profile inv) (writePage (β := β) page data spare)
      (writePage (β := γ) page data spare) Any := by
  refine InStep.get_bind fun controller other hpaired => ?_
  rw [hpaired.profile_eq, hpaired.otherProfile_eq]
  refine InStep.bind (inStep_fillPage h hsettled hpoll hpage data spare) fun result hresult => ?_
  cases result with
  | error e => exact .pure trivial
  | ok parity =>
    exact (InStep.lift (Bytes.replaceFrom_eq_ok hresult)).bind fun _ _ =>
      InStep.bind (inStep_commitPage h hpoll page) fun _ _ => .pure trivial

/-- A page of the given rows is read alike. -/
theorem inStep_readPage {page : Nat} (hpage : rows page) (data spare : Bytes) :
    InStep may (Paired profile inv) (readPage (β := β) page data spare)
      (readPage (β := γ) page data spare) Any := by
  refine InStep.get_bind fun controller other hpaired => ?_
  rw [hpaired.profile_eq, hpaired.otherProfile_eq]
  refine InStep.bind ((inStep_requireSize _ _ _).bind fun _ _ =>
    inStep_readSpare h hsettled hpage spare.size) fun result hresult => ?_
  cases result with
  | error e => exact .pure trivial
  | ok staged =>
    refine InStep.bind (inStep_command (by decide) (h.address hpage (.inl rfl) (by decide)))
      fun sent _ => ?_
    cases sent with
    | error e => exact .pure trivial
    | ok _ =>
      exact (inStep_transferIn h hpoll page data).next fun _ => (inStep_unstage h).bind
        fun bytes hbytes => (InStep.lift (Bytes.replaceFrom_zero (hbytes.trans hresult.symm))).bind
          fun _ _ => .pure trivial

end

/-! ### Blocks -/

variable (h : Bus.Tolerates may profile inv)

include h

theorem inStep_writeData (bytes : Bytes) :
    InStep may inv (Framing.writeData (β := β) bytes) (Framing.writeData (β := γ) bytes) Any :=
  InStep.forM fun byte => h.writePort byte.toUInt32

theorem inStep_readId :
    TryInStep may (Paired profile inv) (readId (β := β)) (readId (β := γ)) Any := by
  unfold readId
  refine inStep_getProfile.bind fun found hfound => ?_
  subst hfound
  exact inStep_tryOnBus h.readId

variable (hsettled : profile.Settled) (hpoll : Patient may profile.poll)

include hsettled hpoll

/-- A block is erased alike. -/
theorem inStep_eraseBlock (block : Nat) :
    TryInStep may (Paired profile inv) (eraseBlock (β := β) block) (eraseBlock (β := γ) block)
      Any := by
  unfold eraseBlock
  refine (inStep_requireBlock hsettled block).bind fun _ hrow => ?_
  refine (inStep_firstRow hrow).next fun row => (inStep_command (by decide)
    (h.send (.block row))).next fun _ => ?_
  exact (inStep_command (by decide) (h.send (.bare (by decide)))).next fun _ =>
    inStep_awaitSuccess (h.admits Any) hpoll _

omit hpoll in
/-- The marker of a block is read alike. -/
theorem inStep_isBad (block : Nat) :
    TryInStep may (Paired profile inv) (isBad (β := β) block) (isBad (β := γ) block) Any := by
  unfold isBad
  refine (inStep_requireBlock hsettled block).bind fun _ hrow => ?_
  refine (inStep_firstRow hrow).next fun row =>
    (inStep_command_readSpare (h.admits Any) trivial).next fun _ => ?_
  exact (TryInStep.perform (inStep_onBus (inStep_readByte (h.admits Any)))).next fun _ =>
    TryInStep.pure trivial

/-- A block is marked alike. -/
theorem inStep_markBad (block : Nat) :
    TryInStep may (Paired profile inv) (markBad (β := β) block) (markBad (β := γ) block) Any := by
  have hcolumn : profile.geometry.pageBytes < 65536 := by
    have hpage := profile.geometry.pageBytes_le
    omega
  unfold markBad
  refine (inStep_requireBlock hsettled block).bind fun _ hrow => ?_
  refine (inStep_firstRow hrow).next fun row => ?_
  refine inStep_getProfile.bind fun found hfound => ?_
  subst hfound
  refine (inStep_command (by decide) (h.send (.page row (.inr rfl) hcolumn))).next fun _ => ?_
  refine (TryInStep.perform (inStep_onBus (inStep_writeData h _))).next fun _ => ?_
  exact (inStep_command (by decide) (h.send (.bare (by decide)))).next fun _ =>
    inStep_awaitSuccess (h.admits Any) hpoll _

/-! ## Requests -/

/-- Any request comes to the same reply on both. -/
theorem inStep_dispatch (request : Request) :
    InStep may (Paired profile inv) (dispatch (β := β) request) (dispatch (β := γ) request)
      Any := by
  cases request with
  | readPage page data spare =>
    exact (inStep_readPage (h.admits Any) hsettled hpoll trivial data spare).next fun _ =>
      .pure trivial
  | writePage page data spare =>
    exact (inStep_writePage (h.admits Any) hsettled hpoll trivial data spare).next fun _ =>
      .pure trivial
  | readSpare page spare =>
    refine InStep.bind (inStep_readSpare (h.admits Any) hsettled trivial spare.size)
      fun result _ => ?_
    cases result <;> exact .pure trivial
  | eraseBlock block =>
    exact InStep.bind (inStep_eraseBlock h hsettled hpoll block) fun _ _ => .pure trivial
  | isBad block => exact InStep.bind (inStep_isBad h hsettled block) fun _ _ => .pure trivial
  | markBad block =>
    exact InStep.bind (inStep_markBad h hsettled hpoll block) fun _ _ => .pure trivial
  | readId => exact InStep.bind (inStep_readId h) fun _ _ => .pure trivial
  | reset =>
    exact InStep.bind (inStep_command (by decide) (h.send (.bare (by decide)))) fun _ _ =>
      .pure trivial

/-- One request: both controllers give the same reply, and stay together. -/
theorem inStep_serve (request : Request) :
    InStep may (Paired profile inv) (serve (β := β) request) (serve (β := γ) request) Any := by
  refine (inStep_dispatch h hsettled hpoll request).next fun result => ?_
  refine InStep.get_bind fun controller other hpaired => ?_
  rw [hpaired.stats_eq]
  exact .pure trivial

end Controller

end NandFlash
