import NandFlash.Controller.Request
import NandFlash.Proofs.AnyBus.Transfer
import NandFlash.Proofs.Profile

/-!
# Operations on any bus

A device that answers whatever it likes can make an operation fail, but no more than that. Probing
and every operation after it end, within a number of accesses that the limit of the polls fixes;
nothing is read or written out of bounds; buffers keep their lengths; and the transfer engine is
left idle.
-/

namespace NandFlash

variable {α β ε : Type} {k n : Nat} {clock : β → Nat}

/-! ## Commands -/

namespace Framing

theorem length_columnWords (column : Nat) (isLast : Bool) :
    (columnWords column isLast).length = 2 := rfl

/-- A row takes as many address cycles as the chip has for it. -/
theorem length_rowWords (cycles row : Nat) : (rowWords cycles row).length = cycles := by
  rw [rowWords, List.length_map, List.length_range]

/-- Column and row together are at most five address words. -/
theorem length_addressWords_le {rowCycles : Nat} (h : rowCycles ≤ 3) (command : Command)
    (column row : Option Nat) : (addressWords rowCycles command column row).length ≤ 5 := by
  unfold addressWords
  split
  · exact Nat.le_of_ble_eq_true rfl
  · rw [List.length_append]
    cases column with
    | none =>
      cases row with
      | none => exact Nat.zero_le _
      | some row => simp only [Option.elim, List.length_nil, length_rowWords]; omega
    | some column =>
      cases row with
      | none => simp only [Option.elim, List.length_nil, length_columnWords]; omega
      | some row =>
        simp only [Option.elim, length_columnWords, length_rowWords]
        omega

variable [Bus β] (h : Bus.Answers clock) {poll : Poll} {limit : Nat}

include h

/-- Waiting for the ready line takes one access more than the limit. -/
theorem ends_waitReady (hpoll : poll.Reaches limit) :
    Ends clock (limit + 1) Any (waitReady (β := β) poll) Any :=
  (Ends.wait hpoll (.perform ((h.register _).anySet _))).le (by omega)

/-- What ends a command is a wait, a status byte or nothing at all. -/
theorem ends_conclude (hpoll : poll.Reaches limit) (command : Command) :
    Ends clock (limit + 3) Any (conclude (β := β) poll command) Any := by
  have hready := ends_waitReady h hpoll
  cases command with
  | programSetup | program | programCached | eraseSetup | erase | columnWrite | status =>
    exact .pure trivial
  | readConfirm | readSpare | columnReadConfirm | readId => exact hready.le (by omega)
  | read =>
    exact ((Ends.perform (h.write32 _ _)).bind fun _ _ => hready).le (by omega)
  | columnRead =>
    exact ((Ends.perform (h.write32 _ _)).bind fun _ _ => .perform (h.delay _)).le (by omega)
  | reset =>
    exact ((Ends.perform (h.write32 _ _)).bind fun _ _ =>
      (Ends.perform (h.write32 _ _)).bind fun _ _ => hready).le (by omega)

/-- A command is sent within its opcodes, five address words and one wait. -/
theorem ends_send (hpoll : poll.Reaches limit) {rowCycles : Nat} (hcycles : rowCycles ≤ 3)
    (command : Command) (column row : Option Nat) :
    Ends clock (limit + 9) Any (send (β := β) poll rowCycles command column row) Any := by
  have hlen := length_addressWords_le hcycles command column row
  refine ((Ends.perform (h.write32 _ _)).bind fun _ _ =>
    (Ends.perform (Keeps.forM fun word => h.write32 _ word)).bind fun _ _ =>
    ends_conclude h hpoll command).le ?_
  omega

theorem keeps_readByte : Keeps clock 1 Any (readByte (β := β)) Any :=
  (h.read32 _).bind (n := 0) fun _ _ => .pure trivial

/-- Bytes are read with one access each. -/
theorem keeps_readData (count : Nat) :
    Keeps clock count Any (readData (β := β) count) fun bytes => bytes.size = count := by
  refine (Keeps.bind (n := 0) (Keeps.mapM (P := Any) fun _ =>
    (h.read32 _).bind (n := 0) fun _ _ => .pure trivial) fun bytes hbytes => .pure ?_).le ?_
  · rw [List.size_toArray, hbytes.length_eq, List.length_range]
  · rw [List.length_range]
    omega

/-- Bytes are written with one access each. -/
theorem keeps_writeData (bytes : Bytes) :
    Keeps clock bytes.size Any (writeData (β := β) bytes) Any := by
  refine (Keeps.forM fun byte => h.write32 _ _).le ?_
  rw [Array.length_toList]
  omega

/-- Identification takes a command and six accesses behind it. -/
theorem ends_readId (hpoll : poll.Reaches limit) :
    Ends clock (limit + 15) Any (readId (β := β) poll) Any := by
  have hbyte := Ends.perform (ε := Error) (keeps_readByte h)
  refine ((ends_send h hpoll (Nat.zero_le _) _ _ _).bind fun _ _ => hbyte.bind fun _ _ =>
    hbyte.bind fun _ _ => hbyte.bind fun _ _ => hbyte.bind fun _ _ => hbyte.bind fun _ _ =>
    hbyte.bind (n := 0) fun _ _ => .pure trivial).le ?_
  omega

end Framing

/-! ## Probing -/

/-- No chip has more than three row cycles. -/
theorem ChipInfo.rowCycles_le (chip : ChipInfo) : chip.rowCycles ≤ 3 := by
  unfold rowCycles
  split <;> omega

namespace Controller

section

variable [Bus β] (h : Bus.Answers clock) {limit : Nat}

include h

/-- Programming the geometry takes eleven accesses. -/
theorem keeps_programGeometry (g : Geometry) :
    Keeps clock 11 Any (programGeometry (β := β) g) Any := by
  have hcontrol := h.register Register.control
  refine ((hcontrol.replaceBits _ _).bind fun _ _ => (h.write32 _ _).bind fun _ _ =>
    (hcontrol.setBits _).bind fun _ _ => (hcontrol.setBits _).bind fun _ _ =>
    hcontrol.configureEcc _).le ?_
  omega

/-- Probing arrives at a settled profile, or fails. -/
theorem ends_bringUp (setting : PowerOn) (config : Config)
    (hpoll : config.poll.Reaches limit) :
    Ends clock (3 * limit + 43) Any (bringUp (β := β) setting config) fun profile =>
      profile.Settled ∧ profile.poll = config.poll := by
  have hcontrol := h.register Register.control
  unfold bringUp
  refine ((Ends.perform (h.write32 _ _)).bind fun _ _ => (Ends.perform (h.write32 _ _)).bind
    fun _ _ => (Ends.perform (hcontrol.replaceBits _ _)).bind fun _ _ =>
    (Ends.perform (h.write32 _ _)).bind fun _ _ =>
    (Ends.perform (hcontrol.setBits _)).bind fun _ _ =>
    (Ends.wait hpoll (.perform (hcontrol.allClear _))).bind fun _ _ =>
    (Framing.ends_send h hpoll (Nat.zero_le _) _ _ _).bind fun _ _ =>
    (Framing.ends_readId h hpoll).bind (n := 11) fun id _ => ?_).le ?_
  -- Decoding takes no access; what is left is the programming of the geometry.
  · have hdecoded : Ends clock 0 Any (ExceptT.mk (pure (ChipInfo.decode id)) : Attempt Error β _)
        fun chip => ChipInfo.decode id = .ok chip := by
      refine Keeps.pure ?_
      cases hdecode : ChipInfo.decode id with
      | ok chip => rfl
      | error e => trivial
    refine (hdecoded.bind (n := 11) fun chip hchip => ?_).le (by omega)
    cases hchoose : Selection.choose chip.pageSize chip.spareSize setting with
    | error e => exact .throw
    | ok selection =>
      exact (Ends.perform (keeps_programGeometry h _)).bind (n := 0) fun _ _ => .pure
        ⟨⟨ChipInfo.scaled_of_decode hchip, Selection.fits_of_choose hchoose⟩, rfl⟩
  · omega

end

/-! ## A controller between two operations -/

/-- The clock of the bus, read on a controller. -/
def ticks (clock : β → Nat) (controller : Controller β) : Nat := clock controller.channel.bus

/-- What holds between two operations: the profile is the probed one, the engine is idle, and
the staging area is as long as the spare area. -/
structure Ready (profile : Profile) (controller : Controller β) : Prop where
  profile_eq : controller.profile = profile
  isIdle : controller.channel.IsIdle
  size_eq : controller.staging.bytes.size = profile.geometry.spareSize

/-- A controller that has just been started is ready. -/
theorem ready_start (profile : Profile) (bus : β) : Ready profile (start profile bus) :=
  ⟨rfl, rfl, Bytes.size_erased _⟩

variable {profile : Profile}

/-- The same, with a bus that satisfies `inv`. -/
structure ReadyWith (profile : Profile) (inv : β → Prop) (controller : Controller β) : Prop
    extends Ready profile controller where
  bus : inv controller.channel.bus

namespace ReadyWith

variable {inv pre : β → Prop} {post : α → β → Prop} {fail : ε → β → Prop}

/-- A step of the channel that is idle before and after it leaves a controller ready. -/
theorem within_onChannel {m : Action (Channel β) α} (h : Within (Channel.ticks clock) k
    (Channel.At pre .idle) m fun a => Channel.At (post a) .idle) :
    Within (ticks clock) k (ReadyWith profile pre) (onChannel m)
      fun a => ReadyWith profile (post a) := by
  intro controller hready
  obtain ⟨a, channel, hrun, hclock, hidle, hpost⟩ :=
    h controller.channel ⟨hready.isIdle, hready.bus⟩
  refine ⟨a, { controller with channel }, ?_, hclock,
    ⟨hready.profile_eq, hidle, hready.size_eq⟩, hpost⟩
  rw [run_onChannel, hrun, endIn_ok]

/-- So does an attempt. -/
theorem within_tryOnChannel {m : Attempt ε (Channel β) α} (h : Within (Channel.ticks clock) k
    (Channel.At pre .idle) m.run (Ending (fun a => Channel.At (post a) .idle)
      fun e => Channel.At (fail e) .idle)) :
    Within (ticks clock) k (ReadyWith profile pre) (tryOnChannel m).run
      (Ending (fun a => ReadyWith profile (post a)) fun e => ReadyWith profile (fail e)) := by
  have hchannel : Within (Channel.ticks clock) k (Channel.At pre .idle) m.run
      fun r => Channel.At (Ending post fail r) .idle :=
    h.mono (Nat.le_refl _) (fun _ h => h) fun r _ hend => by cases r <;> exact hend
  refine (within_onChannel hchannel).mono (Nat.le_refl _) (fun _ h => h) fun r _ hend => ?_
  cases r <;> exact hend

/-- A step of the bus leaves a controller ready, whatever it does to the bus. -/
theorem within_onBus {m : Action β α} (h : Within clock k pre m post) :
    Within (ticks clock) k (ReadyWith profile pre) (onBus m) fun a => ReadyWith profile (post a) :=
  within_onChannel (Channel.within_onBus h)

/-- So does an attempt. -/
theorem within_tryOnBus {m : Attempt ε β α} (h : Within clock k pre m.run (Ending post fail)) :
    Within (ticks clock) k (ReadyWith profile pre) (tryOnBus m).run
      (Ending (fun a => ReadyWith profile (post a)) fun e => ReadyWith profile (fail e)) := by
  refine (within_onBus h).mono (Nat.le_refl _) (fun _ h => h) fun r _ hend => ?_
  cases r <;> exact hend

/-- The profile that an operation starts from is the probed one. -/
theorem within_getProfile_bind {f : Profile → Attempt ε (Controller β) α}
    {post : Except ε α → Controller β → Prop}
    (h : Within (ticks clock) k (ReadyWith profile inv) (f profile).run post) :
    Within (ticks clock) k (ReadyWith profile inv) (getProfile >>= f).run post := by
  intro controller hready
  rw [run_attempt_bind (run_getProfile controller), hready.profile_eq]
  exact h controller hready

/-- The check of a page that exists costs nothing, and passes. -/
theorem within_requirePage {pages page : Nat} (hpages : profile.chip.pages = .ok pages)
    (hpage : page < pages) {fail : Error → Controller β → Prop} :
    Within (ticks clock) 0 (ReadyWith profile inv) (requirePage page).run
      (Ending (fun _ => ReadyWith profile inv) fail) := by
  intro controller hready
  rw [← hready.profile_eq] at hpages
  exact ⟨.ok (), controller, run_requirePage_pass hpages hpage, Nat.le_refl _, hready⟩

/-- So does the check of a buffer of the right size. -/
theorem within_requireSize (buffer : BufferKind) {found expected : Nat}
    (hsize : found = expected) {fail : Error → Controller β → Prop} :
    Within (ticks clock) 0 (ReadyWith profile inv) (requireSize buffer found expected).run
      (Ending (fun _ => ReadyWith profile inv) fail) :=
  fun controller hready =>
    ⟨.ok (), controller, run_requireSize_pass buffer hsize, Nat.le_refl _, hready⟩

/-- A command costs what sending it costs. -/
theorem within_command [Bus β] {cmd : Command} (hcmd : cmd ≠ .readSpare) {column row : Option Nat}
    {post : Unit → β → Prop} {fail : Error → β → Prop}
    (h : Within clock k pre (Framing.send profile.poll profile.chip.rowCycles cmd column row).run
      (Ending post fail)) :
    Within (ticks clock) k (ReadyWith profile pre) (command cmd column row).run
      (Ending (fun a => ReadyWith profile (post a)) fun e => ReadyWith profile (fail e)) := by
  refine within_getProfile_bind ?_
  cases cmd <;> first | exact absurd rfl hcmd | exact within_tryOnBus h

/-- Where nothing is asked of the bus, it need not be mentioned. -/
theorem keeps_ready {m : Action (Controller β) α} {post : α → Prop}
    (h : Keeps (ticks clock) k (ReadyWith profile Any) m post) :
    Keeps (ticks clock) k (Ready profile) m post :=
  Within.mono h (Nat.le_refl _) (fun _ hready => ⟨hready, trivial⟩)
    fun _ _ hend => ⟨hend.1.toReady, hend.2⟩

end ReadyWith

/-- An attempt on an idle channel that comes back idle leaves a controller ready. -/
theorem ends_tryOnChannel {m : Attempt ε (Channel β) α} {post : α → Prop}
    (h : Ends (Channel.ticks clock) k Channel.IsIdle m post) :
    Ends (ticks clock) k (Ready profile) (tryOnChannel m) post := by
  intro controller hready
  obtain ⟨r, channel, hrun, hclock, hidle, hpost⟩ := h controller.channel hready.isIdle
  refine ⟨r, { controller with channel }, ?_, hclock, ⟨hready.profile_eq, hidle, hready.size_eq⟩,
    hpost⟩
  rw [run_tryOnChannel, hrun, endIn_ok]

/-- So does a step of the bus. -/
theorem keeps_onBus {m : Action β α} {post : α → Prop} (h : Keeps clock k Any m post) :
    Keeps (ticks clock) k (Ready profile) (onBus m) post :=
  ReadyWith.keeps_ready ((ReadyWith.within_onBus h).mono (Nat.le_refl _) (fun _ h => h)
    fun _ _ h => ⟨⟨h.toReady, trivial⟩, h.bus.2⟩)

/-- And so does an attempt on the bus. -/
theorem ends_tryOnBus {m : Attempt ε β α} {post : α → Prop} (h : Ends clock k Any m post) :
    Ends (ticks clock) k (Ready profile) (tryOnBus m) post :=
  keeps_onBus h

/-! ### Checks of arguments -/

/-- The profile is the one that was probed. -/
theorem ends_getProfile :
    Ends (ticks clock) 0 (Ready profile) (getProfile : Attempt ε (Controller β) Profile)
      fun found => found = profile :=
  fun controller hready => ⟨.ok controller.profile, controller, rfl, Nat.le_refl _, hready,
    hready.profile_eq⟩

/-- A buffer that is let through has the right size. -/
theorem ends_requireSize (buffer : BufferKind) (found expected : Nat) :
    Ends (ticks clock) 0 (Ready profile)
      (requireSize (β := β) buffer found expected) fun _ => found = expected := by
  intro controller hready
  refine ⟨_, controller, run_requireSize _ _ _ _, Nat.le_refl _, hready, ?_⟩
  by_cases h : found = expected
  · rw [if_pos h]
    exact h
  · rw [if_neg h]
    trivial

/-- A page that is let through exists. -/
theorem ends_requirePage {pages : Nat} (hpages : profile.chip.pages = .ok pages) (page : Nat) :
    Ends (ticks clock) 0 (Ready profile) (requirePage (β := β) page) fun _ => page < pages := by
  intro controller hready
  rw [← hready.profile_eq] at hpages
  refine ⟨_, controller, run_requirePage _ _ hpages, Nat.le_refl _, hready, ?_⟩
  by_cases h : page < pages
  · rw [if_pos h]
    exact h
  · rw [if_neg h]
    trivial

/-- So does a block that is let through. -/
theorem ends_requireBlock {blocks : Nat} (hblocks : profile.chip.blocks = .ok blocks)
    (block : Nat) :
    Ends (ticks clock) 0 (Ready profile) (requireBlock (β := β) block)
      fun _ => block < blocks := by
  intro controller hready
  rw [← hready.profile_eq] at hblocks
  refine ⟨_, controller, run_requireBlock _ _ hblocks, Nat.le_refl _, hready, ?_⟩
  by_cases h : block < blocks
  · rw [if_pos h]
    exact h
  · rw [if_neg h]
    trivial

/-- The first row of a block that exists is a number of 32 bits. -/
theorem ends_firstRow {page block size : Nat} (hscaled : profile.chip.Scaled page block size)
    {index : Nat} (hindex : index < 2 ^ (4 + size - block)) :
    Ends (ticks clock) 0 (Ready profile) (firstRow (β := β) index) Any := by
  have hrow : index * 2 ^ (6 + block - page) < UInt32.size := hscaled.firstRow_lt hindex
  refine Ends.bind (n := 0) ends_getProfile fun found hfound => ?_
  subst hfound
  refine (Ends.lift hscaled.pagesPerBlock_eq).bind (k := 0) (n := 0) fun ppb hppb => ?_
  subst hppb
  exact (Ends.lift (if_pos hrow)).mono (Nat.le_refl _) fun _ _ => trivial

variable [Bus β] (h : Bus.Answers clock) {limit : Nat} (hpoll : profile.poll.Reaches limit)

/-! ### The staging area -/

section

variable {inv : β → Prop} (hserves : Bus.Serves clock inv)

include hserves

omit h hpoll in
/-- The staging area is stored with one access for each of its bytes. -/
theorem keeps_store (area : StagingArea) :
    Keeps clock area.bytes.size inv (area.store (β := β)) Any := by
  refine (Keeps.forM fun item => hserves.write8 _ _).le ?_
  rw [List.length_zipIdx, Array.length_toList]
  omega

omit h hpoll in
/-- It is loaded with one access for each of them, and keeps its length. -/
theorem keeps_load (area : StagingArea) :
    Keeps clock area.bytes.size inv (area.load (β := β)) fun loaded =>
      loaded.bytes.size = area.bytes.size := by
  refine (Keeps.bind (n := 0) (Keeps.mapM (P := Any) fun i => hserves.read8 _) fun bytes hbytes =>
    .pure ?_).le ?_
  · show bytes.toArray.size = area.bytes.size
    rw [List.size_toArray, hbytes.length_eq, List.length_range]
  · rw [List.length_range]
    omega

omit h hpoll in
/-- Staging takes one access for each spare byte. -/
theorem ReadyWith.keeps_stage {fill : StagingArea → StagingArea}
    (hfill : ∀ area, (fill area).bytes.size = area.bytes.size) :
    Keeps (ticks clock) profile.geometry.spareSize (ReadyWith profile inv)
      (stage (β := β) fill) Any := by
  intro controller hready
  obtain ⟨_, bus, hrun, hclock, hbus, -⟩ :=
    keeps_store hserves (fill controller.staging) controller.channel.bus hready.bus
  have hsize := (hfill controller.staging).trans hready.size_eq
  refine ⟨(), { controller with channel.bus := bus, staging := fill controller.staging }, ?_,
    hsize ▸ hclock, ⟨⟨hready.profile_eq, hready.isIdle, hsize⟩, hbus⟩, trivial⟩
  rw [run_stage, hrun]
  rfl

omit h hpoll in
/-- So does fetching what the window holds. -/
theorem ReadyWith.keeps_unstage :
    Keeps (ticks clock) profile.geometry.spareSize (ReadyWith profile inv) (unstage (β := β))
      fun bytes => bytes.size = profile.geometry.spareSize := by
  intro controller hready
  obtain ⟨area, bus, hrun, hclock, hbus, hsize⟩ :=
    keeps_load hserves controller.staging controller.channel.bus hready.bus
  have hsize := hsize.trans hready.size_eq
  refine ⟨area.bytes, { controller with channel.bus := bus, staging := area }, ?_,
    hready.size_eq ▸ hclock, ⟨⟨hready.profile_eq, hready.isIdle, hsize⟩, hbus⟩, hsize⟩
  rw [run_unstage, hrun]

end

section

include h

omit hpoll in
theorem keeps_stage {fill : StagingArea → StagingArea}
    (hfill : ∀ area, (fill area).bytes.size = area.bytes.size) :
    Keeps (ticks clock) profile.geometry.spareSize (Ready profile) (stage (β := β) fill) Any :=
  ReadyWith.keeps_ready (ReadyWith.keeps_stage h.serves hfill)

omit hpoll in
theorem keeps_unstage :
    Keeps (ticks clock) profile.geometry.spareSize (Ready profile) (unstage (β := β)) fun bytes =>
      bytes.size = profile.geometry.spareSize :=
  ReadyWith.keeps_ready (ReadyWith.keeps_unstage h.serves)

end

/-! ### Commands -/

section

include h hpoll

/-- Columns reach as far as the page, and twice that is still a word. -/
theorem ends_command (command : Command) (column row : Option Nat)
    (hcolumn : column.getD 0 ≤ profile.geometry.pageBytes) :
    Ends (ticks clock) (limit + 9) (Ready profile)
      (Controller.command (β := β) command column row) Any := by
  have hword : column.getD 0 + profile.geometry.pageBytes < UInt64.size := by
    have hpage := profile.geometry.pageBytes_le
    have hsize : UInt64.size = 18446744073709551616 := rfl
    omega
  have hsend : ∀ command column, Ends (ticks clock) (limit + 9) (Ready profile)
      (tryOnBus (Framing.send (β := β) profile.poll profile.chip.rowCycles command column row))
      Any := fun command column =>
    ends_tryOnBus (Framing.ends_send h hpoll profile.chip.rowCycles_le command column row)
  refine (Ends.bind (n := limit + 9) ends_getProfile fun found hfound => ?_).le (by omega)
  subst hfound
  cases command
  case readSpare =>
    exact ((Ends.lift (if_pos hword)).bind (k := 0) fun _ _ => hsend _ _).le (by omega)
  all_goals exact hsend _ _

/-- A reset is a command. -/
theorem ends_reset : Ends (ticks clock) (limit + 9) (Ready profile) (reset (β := β)) Any :=
  ends_command h hpoll _ _ _ (Nat.zero_le _)

/-- Identification leaves a controller ready. -/
theorem ends_readId : Ends (ticks clock) (limit + 15) (Ready profile) (readId (β := β)) Any := by
  refine (Ends.bind (n := limit + 15) ends_getProfile fun found hfound => ?_).le (by omega)
  subst hfound
  exact ends_tryOnBus (Framing.ends_readId h hpoll)

/-- The end of a program or an erase takes a wait, a status command and a byte. -/
theorem ends_awaitSuccess (failure : Error) :
    Ends (ticks clock) (2 * limit + 11) (Ready profile) (awaitSuccess (β := β) failure) Any := by
  have hstatus : Ends (ticks clock) (limit + 10) (Ready profile) (status (β := β)) Any :=
    ((ends_command h hpoll .status none none (Nat.zero_le _)).bind fun _ _ =>
      .perform (keeps_onBus (Framing.keeps_readByte h))).le (by omega)
  refine (Ends.bind (n := 2 * limit + 11) ends_getProfile fun found hfound => ?_).le (by omega)
  subst hfound
  refine ((ends_tryOnBus (Framing.ends_waitReady h hpoll)).bind fun _ _ =>
    hstatus.bind (n := 0) fun byte _ => ?_).le (by omega)
  split
  · exact .throw
  · exact .pure trivial

/-- Committing a page is a command, and the wait for its end. -/
theorem ends_commitPage (page : Nat) :
    Ends (ticks clock) (3 * limit + 20) (Ready profile) (commitPage (β := β) page) Any :=
  ((ends_command h hpoll .program none none (Nat.zero_le _)).bind fun _ _ =>
    ends_awaitSuccess h hpoll _).le (by omega)

/-! ### Pages -/

/-- A transfer into a buffer does not change its size. -/
theorem keeps_transferIn (page : Nat) (data : Bytes) :
    Keeps (ticks clock) (1084 * limit + 1111) (Ready profile)
      (transferIn (β := β) page data) fun result => result.2.size = data.size := by
  intro controller hready
  obtain ⟨outcome, reading, hrun, hclock, ⟨hidle, hsize⟩, -⟩ :=
    Reading.within_read h.serves (Channel.settles_acknowledged h.serves) hpoll (setup profile)
      profile.geometry page ⟨controller.channel, data, controller.stats, []⟩
      ⟨⟨hready.isIdle, trivial⟩, rfl⟩
  refine ⟨(outcome, reading.data),
    { controller with channel := reading.channel, stats := reading.stats }, ?_, hclock,
    ⟨hready.profile_eq, hidle.state_eq, hready.size_eq⟩, hsize⟩
  rw [run_transferIn, hready.profile_eq, hrun]
  rfl

variable (hsettled : profile.Settled)

include hsettled

/-- Filling a page takes a command, both passes over the window and a transfer; the parity is what
is behind the caller's spare bytes. -/
theorem ends_fillPage (page : Nat) (data spare : Bytes) :
    Ends (ticks clock) (4 * limit + 42 + 2 * windowLen) (Ready profile)
      (fillPage (β := β) page data spare) fun parity =>
        spare.size = profile.geometry.spareSize ∧
          parity.size = profile.geometry.spareSize - profile.layout.parityStart := by
  obtain ⟨_, _, _, hscaled⟩ := hsettled.scaled
  have hspare := hsettled.fits.spareSize_le
  refine ((ends_requirePage hscaled.pages_eq page).bind (n := 4 * limit + 42 + 2 * windowLen)
    fun _ _ => (Ends.bind (n := 4 * limit + 42 + 2 * windowLen) ends_getProfile
      fun found hfound => ?_).le (by omega)).le (by omega)
  subst hfound
  have hstart := hsettled.fits.parityStart_le
  -- Check the sizes, open the page, stage the spare area, transfer, and take the parity back. The
  -- parity starts within both the buffer and the staging area, as they have been found to be of
  -- one size.
  refine ((ends_requireSize _ _ _).bind fun _ _ => (ends_requireSize _ _ _).bind fun _ hsize =>
    (ends_command h hpoll .programSetup (some 0) (some page) (Nat.zero_le _)).bind fun _ _ =>
    (Ends.lift (Bytes.slice_eq_ok (Nat.zero_le _) ?user)).bind fun _ _ =>
    (Ends.perform (keeps_stage h fun area => ?fill)).bind fun _ _ =>
    (ends_tryOnChannel (.of_keeps (Channel.keeps_write h hpoll _ _))).bind fun _ _ =>
    (Ends.perform (keeps_unstage h)).bind (n := 0) fun staged hstaged =>
      (Ends.lift (Bytes.slice_eq_ok ?staged (Nat.le_refl _))).mono (Nat.le_refl _)
        fun parity hparity => ⟨hsize, ?parity⟩).le ?cost
  case user => rwa [hsize]
  case fill =>
    show (Bytes.overlay _ 0 _).size = _
    rw [Bytes.size_overlay]
    exact Bytes.size_erased _
  case staged => rwa [hstaged]
  case parity => rw [hparity, Array.size_extract, Nat.min_self, hstaged]
  case cost => omega

/-- Programming a page leaves the spare buffer as long as it was. -/
theorem keeps_writePage (page : Nat) (data spare : Bytes) :
    Keeps (ticks clock) (7 * limit + 62 + 2 * windowLen) (Ready profile)
      (writePage (β := β) page data spare) fun result => result.2.size = spare.size := by
  refine Keeps.get_bind fun controller hready => ?_
  refine (Keeps.bind (n := 3 * limit + 20) (ends_fillPage h hpoll hsettled page data spare)
    fun result hresult => ?_).le (by omega)
  cases result with
  | error e => exact .pure rfl
  | ok parity =>
    obtain ⟨hspare, hparity⟩ := hresult
    have hstart := hsettled.fits.parityStart_eq
    have hfit : controller.profile.layout.parityStart + parity.size = spare.size := by
      rw [hready.profile_eq]
      omega
    refine ((Keeps.lift (Bytes.replaceFrom_eq_ok hfit)).bind (k := 0) fun replaced hreplaced =>
      Keeps.bind (n := 0) (ends_commitPage h hpoll page) fun outcome _ => .pure ?_).le (by omega)
    show replaced.size = spare.size
    rw [hreplaced, Array.size_append, Array.size_extract]
    omega

/-- A spare area is read into a buffer of its size, and staged. -/
theorem ends_readSpare (page spareLen : Nat) :
    Ends (ticks clock) (limit + 9 + 2 * windowLen) (Ready profile)
      (readSpare (β := β) page spareLen) fun spare =>
        spareLen = profile.geometry.spareSize ∧ spare.size = spareLen := by
  obtain ⟨_, _, _, hscaled⟩ := hsettled.scaled
  have hspare := hsettled.fits.spareSize_le
  refine ((ends_requirePage hscaled.pages_eq page).bind (n := limit + 9 + 2 * windowLen)
    fun _ _ => (Ends.bind (n := limit + 9 + 2 * windowLen) ends_getProfile
      fun found hfound => ?_).le (by omega)).le (by omega)
  subst hfound
  refine ((ends_requireSize _ _ _).bind (n := limit + 9 + 2 * windowLen)
    fun _ hsize => ?_).le (by omega)
  refine ((ends_command h hpoll .readSpare (some 0) (some page) (Nat.zero_le _)).bind fun _ _ =>
    (Ends.perform (keeps_onBus (Framing.keeps_readData h spareLen))).bind fun spare hspare =>
    (Ends.perform (keeps_stage h fun area => Bytes.size_overlay _ _ _)).bind (n := 0) fun _ _ =>
      .pure ⟨hsize, hspare⟩).le (by omega)

/-- Reading a page leaves both buffers as long as they were. -/
theorem keeps_readPage (page : Nat) (data spare : Bytes) :
    Keeps (ticks clock) (1086 * limit + 1129 + 3 * windowLen) (Ready profile)
      (readPage (β := β) page data spare) fun result =>
        result.data.size = data.size ∧ result.spare.size = spare.size := by
  have hspareSize := hsettled.fits.spareSize_le
  refine Keeps.get_bind fun controller hready => ?_
  refine (Keeps.bind (n := 1085 * limit + 1120 + windowLen) (Ends.bind (k := 0)
    (ends_requireSize _ _ _) fun _ _ => ends_readSpare h hpoll hsettled page spare.size)
    fun result hresult => ?_).le (by omega)
  cases result with
  | error e => exact .pure ⟨rfl, rfl⟩
  | ok staged =>
    obtain ⟨hspare, hstaged⟩ := hresult
    -- The spare area has come with a transfer of its own; the page is sent for again.
    refine (Keeps.bind (n := 1084 * limit + 1111 + windowLen)
      (ends_command h hpoll .read (some 0) (some page) (Nat.zero_le _))
      fun sent _ => ?_).le (by omega)
    cases sent with
    | error e => exact .pure ⟨rfl, hstaged⟩
    | ok _ =>
      refine Keeps.le (Keeps.bind (keeps_transferIn h hpoll page data)
        fun result hdata => Keeps.bind (n := 0) (keeps_unstage h) fun spare' hspare' =>
          (Keeps.lift (Bytes.replaceFrom_zero ?size)).bind (n := 0)
            fun replaced hreplaced => .pure ⟨hdata, ?replaced⟩) ?cost
      case size => rw [hspare', ← hspare, hstaged]
      case replaced => rw [hreplaced, hspare', hspare]
      case cost => omega

/-! ### Blocks -/

/-- Erasing takes two commands and the wait for the end. -/
theorem ends_eraseBlock (block : Nat) :
    Ends (ticks clock) (4 * limit + 29) (Ready profile) (eraseBlock (β := β) block) Any := by
  obtain ⟨_, _, _, hscaled⟩ := hsettled.scaled
  refine ((ends_requireBlock hscaled.blocks_eq block).bind fun _ hblock =>
    (ends_firstRow hscaled hblock).bind fun row _ =>
    (ends_command h hpoll .eraseSetup none (some row) (Nat.zero_le _)).bind fun _ _ =>
    (ends_command h hpoll .erase none none (Nat.zero_le _)).bind fun _ _ =>
    ends_awaitSuccess h hpoll _).le ?_
  omega

/-- Asking for the mark of a block takes a command and a byte. -/
theorem ends_isBad (block : Nat) :
    Ends (ticks clock) (limit + 10) (Ready profile) (isBad (β := β) block) Any := by
  obtain ⟨_, _, _, hscaled⟩ := hsettled.scaled
  refine ((ends_requireBlock hscaled.blocks_eq block).bind fun _ hblock =>
    (ends_firstRow hscaled hblock).bind fun row _ =>
    (ends_command h hpoll .readSpare (some 0) (some row) (Nat.zero_le _)).bind fun _ _ =>
    (Ends.perform (keeps_onBus (Framing.keeps_readByte h))).bind (n := 0) fun _ _ =>
      .pure trivial).le ?_
  omega

/-- Marking a block takes two commands, two bytes and the wait for the end. -/
theorem ends_markBad (block : Nat) :
    Ends (ticks clock) (4 * limit + 31) (Ready profile) (markBad (β := β) block) Any := by
  obtain ⟨_, _, _, hscaled⟩ := hsettled.scaled
  refine ((ends_requireBlock hscaled.blocks_eq block).bind fun _ hblock =>
    (ends_firstRow hscaled hblock).bind (n := 4 * limit + 31) fun row _ => ?_).le (by omega)
  refine (Ends.bind (n := 4 * limit + 31) ends_getProfile fun found hfound => ?_).le (by omega)
  subst hfound
  refine ((ends_command h hpoll .programSetup (some _) (some row) (Nat.le_refl _)).bind fun _ _ =>
    (Ends.perform (keeps_onBus (Framing.keeps_writeData h badBlockMarker))).bind fun _ _ =>
    (ends_command h hpoll .program none none (Nat.zero_le _)).bind fun _ _ =>
    ends_awaitSuccess h hpoll _).le ?_
  have hmarker : badBlockMarker.size = 2 := rfl
  omega

end

end Controller

end NandFlash
