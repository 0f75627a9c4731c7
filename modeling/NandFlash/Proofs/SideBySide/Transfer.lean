import NandFlash.Proofs.AnyBus.Correction
import NandFlash.Proofs.Layers
import NandFlash.Proofs.SideBySide.Steps

/-!
# Transfers side by side

What the transfer engine does with a bus is little: it reads registers, writes some of them, changes
a few bits of the control register and moves bytes. A relation that outlives each of these,
`Bus.Permits`, outlives every transfer, however it ends.
-/

namespace NandFlash

variable {α β γ ε : Type} {may : Crash → Prop} {inv : β → γ → Prop}

namespace Bus

variable [Bus β] [Bus γ]

/-- A relation between two buses that outlives everything a transfer does with them. Of the control
register and the spare size only the bits and the value of the setup go out. -/
structure Permits (may : Crash → Prop) (setup : TransferSetup) (inv : β → γ → Prop) : Prop where
  read32 : ∀ {offset}, ¬IsChipPort offset →
    InStep may inv (Bus.read32 offset) (Bus.read32 offset) Any
  write32 : ∀ {offset}, ¬IsChipPort offset → offset ∉ [Register.control, Register.spareSize] →
    ∀ value, InStep may inv (Bus.write32 offset value) (Bus.write32 offset value) Any
  writeSpareSize : InStep may inv
    (Bus.write32 Register.spareSize (UInt32.ofNat setup.spareSize))
    (Bus.write32 Register.spareSize (UInt32.ofNat setup.spareSize)) Any
  setControl : ∀ bits ∈ [Bits.reset, Bits.startRead, Bits.startWrite], InStep may inv
    (Bus.setBits Register.control bits) (Bus.setBits Register.control bits) Any
  selectChip : InStep may inv
    (Bus.replaceBits Register.control Bits.chipSelectMask Bits.chipSelect0)
    (Bus.replaceBits Register.control Bits.chipSelectMask Bits.chipSelect0) Any
  configureEcc : InStep may inv
    (Bus.configureEcc setup.strength.selectBits?) (Bus.configureEcc setup.strength.selectBits?) Any
  read8 : ∀ i, InStep may inv
    (Bus.read8 (Register.window + i)) (Bus.read8 (Register.window + i)) Any
  write8 : ∀ i value, InStep may inv
    (Bus.write8 (Register.window + i) value) (Bus.write8 (Register.window + i) value) Any
  dmaAddress : ∀ data, InStep may inv (Bus.dmaAddress data) (Bus.dmaAddress data) Any
  dmaToDevice : ∀ data, InStep may inv (Bus.dmaToDevice data) (Bus.dmaToDevice data) Any
  dmaFromDevice : ∀ data, InStep may inv (Bus.dmaFromDevice data) (Bus.dmaFromDevice data) Any

namespace Permits

variable {setup : TransferSetup} (h : Permits may setup inv) {offset : Nat}

include h

/-- Flags off the chip's ports are asked for in step. -/
theorem anySet (hport : ¬IsChipPort offset) (bits : UInt32) :
    InStep may inv (Bus.anySet offset bits) (Bus.anySet offset bits) Any :=
  (h.read32 hport).next fun _ => .pure trivial

/-- And so they are if all of them have to be clear. -/
theorem allClear (hport : ¬IsChipPort offset) (bits : UInt32) :
    InStep may inv (Bus.allClear offset bits) (Bus.allClear offset bits) Any :=
  (h.read32 hport).next fun _ => .pure trivial

/-- A register that no command goes through is changed in step. -/
theorem modify32 (hport : ¬IsChipPort offset)
    (hplain : offset ∉ [Register.control, Register.spareSize]) (change : UInt32 → UInt32) :
    InStep may inv (Bus.modify32 offset change) (Bus.modify32 offset change) Any :=
  (h.read32 hport).bind fun value _ => h.write32 hport hplain (change value)

end Permits

end Bus

/-! ## Error correction -/

/-- The repairs of a report that fall on the page buffer fall within it. -/
def FieldReport.InBounds (dataLen : Nat) (report : FieldReport) : Prop :=
  ∀ c ∈ report.corrections, c.location.place = .data → c.location.offset < dataLen

namespace Ecc

variable [Bus β] [Bus γ] {setup : TransferSetup} (h : Bus.Permits may setup inv)

include h

/-- Both sides unpack the same words, and what fits in the buffer of one fits in that of the
other. -/
theorem inStep_readLatches {α : Type} {P : α → Prop} {unpack : UInt32 → List α} {blank : α}
    {offset size count : Nat} (hoffset : Register.data < offset) (hcount : count * size ≤ maxErrors)
    (hsize : ∀ word, (unpack word).length = size) (hblank : P blank)
    (hunpack : ∀ word, ∀ a ∈ unpack word, P a) :
    InStep may inv (readLatches unpack blank offset count) (readLatches unpack blank offset count)
      (Latched P) := by
  unfold readLatches
  refine InStep.foldlM (fun i hi buffer hbuffer => ?_) (Latched.replicate hblank)
  refine (h.read32 (not_isChipPort hoffset i)).bind fun word _ => ?_
  have hfit := mul_length_add_length_le hcount hsize (List.mem_range.1 hi) word
  obtain ⟨filled, hput, hfilled⟩ := hbuffer.put hfit (hunpack word)
  exact (InStep.lift hput).mono fun stored hstored => hstored ▸ hfilled

/-- Reading the latched errors goes in step, and no latched address exceeds eleven bits. -/
theorem inStep_readSyndrome (count : Nat) :
    InStep may inv (readSyndrome count) (readSyndrome count) fun syndrome =>
      Latched (· < 2048) syndrome.addresses := by
  have hvalues := mul_valueWords_le count
  have haddresses := mul_addressWords_le count
  exact (inStep_readLatches h (P := Any) (by decide) hvalues (fun _ => rfl) trivial
    fun _ _ _ => trivial).bind fun values _ =>
      (inStep_readLatches h (by decide) haddresses (fun _ => rfl) (by decide)
        fun _ _ => lt_of_mem_addressPair).bind fun addresses hlatched => .pure hlatched

/-- Planning one field goes in step. What it plans stays within the buffer. -/
theorem inStep_planField {g : Geometry} {field : Nat} (dataLen errorCount : Nat)
    (hfield : field ≤ 16) :
    TryInStep may inv (planField g dataLen field errorCount) (planField g dataLen field errorCount)
      (FieldReport.InBounds dataLen) := by
  unfold planField
  by_cases hcount : errorCount > maxErrors
  · simp only [hcount, if_true]
    exact TryInStep.throw
  · simp only [hcount, if_false]
    -- Both sides see the same latches and the same window, and plan the same corrections.
    refine (TryInStep.perform (inStep_readSyndrome h errorCount)).bind fun syndrome haddress => ?_
    refine (TryInStep.perform (h.read32 (by decide))).bind fun word _ => ?_
    by_cases hwindow : (word &&& Bits.spareSizeMask).toNat < g.parityBytes
    · simp only [hwindow, if_true]
      exact TryInStep.throw
    · simp only [hwindow, if_false]
      have hbase := sub_lt_of_spareSizeMask word g.parityBytes
      refine (TryInStep.mapM fun i hi => ?_).bind fun corrections hcorrections =>
        TryInStep.pure hcorrections.forall_mem
      have hi : i < maxErrors :=
        Nat.lt_of_lt_of_le (List.mem_range.1 hi) (Nat.le_of_not_gt hcount)
      obtain ⟨address, hget, haddress⟩ := haddress.exists_get hi
      refine (TryInStep.lift hget).bind fun found hfound => ?_
      subst hfound
      refine (TryInStep.lift (Buffer.get_eq_ok (Vector.getElem?_eq_getElem hi))).bind
        fun value _ => ?_
      obtain ⟨planned, hplanned, hin⟩ := planError_eq_ok g dataLen
        (word &&& Bits.spareSizeMask).toNat value hfield haddress hbase
      refine (TryInStep.lift hplanned).bind fun found hfound => ?_
      subst hfound
      cases found with
      | none => exact TryInStep.throw
      | some c => exact TryInStep.pure (hin c rfl)

/-- Planning the fields of a status word goes in step. -/
theorem inStep_planWord (g : Geometry) (dataLen wordIndex : Nat) :
    TryInStep may inv (planWord g dataLen wordIndex) (planWord g dataLen wordIndex)
      fun reports => ∀ report ∈ reports, report.InBounds dataLen := by
  unfold planWord
  refine (TryInStep.perform (h.read32 (not_isChipPort (by decide) _))).bind fun word _ => ?_
  refine (TryInStep.mapM fun reported hreported => ?_).mono fun reports hreports =>
    hreports.forall_mem
  have hfield := Nat.le_trans (le_of_mem_reportedFields hreported) g.fieldCount_le
  obtain ⟨field, status⟩ := reported
  cases status with
  | correctable errorCount => exact inStep_planField h dataLen errorCount hfield
  | clean => exact TryInStep.throw
  | uncorrectable => exact TryInStep.throw

/-- Planning all fields goes in step. -/
theorem inStep_plan (g : Geometry) (dataLen : Nat) :
    TryInStep may inv (plan g dataLen) (plan g dataLen)
      fun reports => ∀ report ∈ reports, report.InBounds dataLen := by
  unfold plan
  refine (TryInStep.mapM fun i _ => inStep_planWord h g dataLen i).bind fun lists hlists =>
    TryInStep.pure fun report hreport => ?_
  obtain ⟨reports, hreports, hreport⟩ := List.mem_flatten.1 hreport
  exact hlists.forall_mem reports hreports report hreport

/-- Repairing a byte goes in step, and the buffer keeps its size. -/
theorem inStep_applyCorrection {data : Bytes} {c : Correction}
    (hc : c.location.place = .data → c.location.offset < data.size) :
    InStep may inv (applyCorrection data c) (applyCorrection data c) fun fixed =>
      fixed.size = data.size := by
  unfold applyCorrection
  cases hplace : c.location.place with
  | data =>
    have hxor : xorAt data c.location.offset c.value =
        .ok (data.modify c.location.offset fun byte => byte ^^^ c.value) := if_pos (hc hplace)
    simp only [hxor]
    exact fun s t hst => .inl ⟨_, s, t, rfl, rfl, hst, Array.size_modify⟩
  | window =>
    refine (h.read8 _).bind fun byte _ => ?_
    exact (h.write8 _ _).next fun _ => .pure rfl

/-- The whole correction goes in step. -/
theorem inStep_correct (g : Geometry) (data : Bytes) :
    TryInStep may inv (correct g data) (correct g data) Any := by
  unfold correct
  refine (inStep_plan h g data.size).bind fun reports hreports => ?_
  have hloop : InStep may inv ((reports.flatMap (·.corrections)).foldlM applyCorrection data)
      ((reports.flatMap (·.corrections)).foldlM applyCorrection data)
      fun fixed => fixed.size = data.size := by
    refine InStep.foldlM (fun c hc fixed hfixed => ?_) rfl
    obtain ⟨report, hreport, hc⟩ := List.mem_flatMap.1 hc
    refine (inStep_applyCorrection h fun hplace => ?_).mono fun fixed' hfixed' =>
      hfixed'.trans hfixed
    rw [hfixed]
    exact hreports report hreport c hc hplace
  exact (TryInStep.perform hloop).bind fun fixed _ => TryInStep.pure trivial

end Ecc

/-! ## The engine -/

namespace Channel

/-- Two channels whose engines are in the same state. -/
structure Paired (inv : β → γ → Prop) (channel : Channel β) (other : Channel γ) : Prop where
  state_eq : other.state = channel.state
  bus : inv channel.bus other.bus

/-- A step of the bus goes in step on channels whose engines are in the same state. -/
theorem inStep_onBus {m : Action β α} {m' : Action γ α} {post : α → Prop}
    (h : InStep may inv m m' post) : InStep may (Paired inv) (onBus m) (onBus m') post := by
  rintro ⟨state, bus⟩ ⟨_, other⟩ ⟨rfl, hbus⟩
  rcases h bus other hbus with ⟨a, next, next', hrun, hrun', hnext, hpost⟩ | hcrash
  · refine .inl ⟨a, _, _, run_onBus_ok hrun _, run_onBus_ok hrun' _, ⟨rfl, hnext⟩, hpost⟩
  · obtain ⟨defect, hmay, hrun, hrun'⟩ := hcrash
    refine .inr ⟨defect, hmay, ?_, ?_⟩
    · rw [run_onBus, hrun, endIn_error]
    · rw [run_onBus, hrun', endIn_error]

/-- So does an attempt. -/
theorem inStep_tryOnBus {m : Attempt ε β α} {m' : Attempt ε γ α} {post : α → Prop}
    (h : TryInStep may inv m m' post) :
    TryInStep may (Paired inv) (tryOnBus m) (tryOnBus m') post :=
  inStep_onBus h

/-- Both engines are found in the state that is asked for, or neither is. -/
theorem inStep_expect (expected : DmaState) :
    TryInStep may (Paired inv) (expect expected) (expect expected) Any := by
  intro channel other hpaired
  refine .inl ⟨_, channel, other, run_expect _ _, ?_, hpaired, ?_⟩
  · rw [run_expect, hpaired.state_eq]
  · split <;> trivial

/-- Both engines enter a state. -/
theorem inStep_enter (state : DmaState) :
    InStep may (Paired inv) (enter state) (enter state) Any :=
  fun _ _ hpaired => .inl ⟨(), _, _, rfl, rfl, ⟨rfl, hpaired.bus⟩, trivial⟩

variable [Bus β] [Bus γ] {setup : TransferSetup} (h : Bus.Permits may setup inv) {poll : Poll}
  (hpoll : Patient may poll)

section

include h hpoll

/-- A reset goes in step. -/
theorem inStep_reset : TryInStep may (Paired inv) (reset poll) (reset poll) Any := by
  have hwait : ∀ awaited bits, TryInStep may inv
      (poll.wait awaited (perform (Bus.allClear Register.dmaControl bits)))
      (poll.wait awaited (perform (Bus.allClear Register.dmaControl bits))) Any :=
    fun _ bits => .wait hpoll (.perform (h.allClear (by decide) bits))
  unfold reset
  refine (inStep_expect .idle).next fun _ => (TryInStep.perform (inStep_enter _)).next fun _ =>
    inStep_tryOnBus ?_
  refine (hwait _ _).next fun _ => ?_
  exact (TryInStep.perform (h.modify32 (by decide) (by decide) _)).next fun _ => hwait _ _

omit hpoll in
/-- Filling in the registers of a transfer goes in step. -/
theorem inStep_prepare (data : Bytes) :
    InStep may inv (prepare setup data) (prepare setup data) Any := by
  have hwrite : ∀ {offset}, ¬Bus.IsChipPort offset →
      offset ∉ [Register.control, Register.spareSize] → ∀ value,
      InStep may inv (Bus.write32 offset value) (Bus.write32 offset value) Any := h.write32
  have hinterrupts : ∀ bits, InStep may inv (Bus.clearBits Register.interrupts bits)
      (Bus.clearBits Register.interrupts bits) Any :=
    fun _ => h.modify32 (by decide) (by decide) _
  unfold prepare
  refine (hwrite (by decide) (by decide) _).next fun _ => (hinterrupts _).next fun _ =>
    (h.dmaAddress _).next fun _ => (hwrite (by decide) (by decide) _).next fun _ =>
    (hwrite (by decide) (by decide) _).next fun _ =>
    (hwrite (by decide) (by decide) _).next fun _ => ?_
  refine h.configureEcc.next fun _ => h.writeSpareSize.next fun _ =>
    (hinterrupts _).next fun _ => ?_
  exact (hwrite (by decide) (by decide) _).next fun _ => h.selectChip

omit hpoll in
/-- Arming goes in step. -/
theorem inStep_arm (data : Bytes) :
    TryInStep may (Paired inv) (arm setup data) (arm setup data) Any := by
  unfold arm
  refine (inStep_expect .resetRequested).next fun _ => ?_
  refine (TryInStep.perform (inStep_onBus (inStep_prepare h data))).next fun _ => ?_
  exact .perform (inStep_enter _)

omit hpoll in
/-- Clearing an erased marker byte of the window goes in step: both find it erased, or neither. -/
theorem inStep_clearMarker (i : Nat) :
    InStep may inv (clearMarker (Register.window + i)) (clearMarker (Register.window + i)) Any := by
  unfold clearMarker
  refine (h.read8 i).bind fun byte _ => ?_
  by_cases herased : byte == erasedByte
  · simp only [herased, if_true]
    exact h.write8 i 0
  · simp only [herased]
    exact .pure trivial

/-- A started write goes in step, with the wait for its end. -/
theorem inStep_runWrite (data : Bytes) :
    TryInStep may (Paired inv) (runWrite poll data) (runWrite poll data) Any := by
  unfold runWrite
  refine (inStep_expect .armed).next fun _ => (TryInStep.perform (inStep_enter _)).next fun _ =>
    TryInStep.next (inStep_tryOnBus ?_) fun _ => .perform (inStep_enter _)
  refine (TryInStep.perform (inStep_clearMarker h 3)).next fun _ => ?_
  refine (TryInStep.perform (inStep_clearMarker h 2)).next fun _ => ?_
  refine (TryInStep.perform (h.setControl _ (by decide))).next fun _ => ?_
  refine (TryInStep.perform (h.dmaToDevice data)).next fun _ => ?_
  exact .wait hpoll (.perform (h.anySet (by decide) _))

/-! ### Leaving a transfer -/

omit hpoll in
/-- Acknowledging the end of a transfer goes in step. -/
theorem inStep_acknowledge :
    InStep may (Paired inv) (acknowledge (β := β)) (acknowledge (β := γ)) Any :=
  (inStep_onBus (h.write32 (by decide) (by decide) _)).next fun _ => inStep_enter _

omit hpoll in
/-- Giving a page up goes in step. -/
theorem inStep_abandon : InStep may (Paired inv) (abandon (β := β)) (abandon (β := γ)) Any := by
  refine InStep.next (inStep_onBus ?_) fun _ => inStep_enter _
  refine (h.write32 (by decide) (by decide) _).next fun _ => ?_
  exact (h.write32 (by decide) (by decide) _).next fun _ => h.setControl _ (by decide)

omit hpoll in
/-- Recovering goes in step. -/
theorem inStep_recover : InStep may (Paired inv) (recover (β := β)) (recover (β := γ)) Any := by
  refine InStep.next (inStep_onBus ?_) fun _ => inStep_enter _
  refine (h.write32 (by decide) (by decide) _).next fun _ => ?_
  refine (h.setControl _ (by decide)).next fun _ => ?_
  exact h.write32 (by decide) (by decide) _

omit hpoll in
/-- Settling goes in step, since both engines are in the same state. -/
theorem inStep_settle : InStep may (Paired inv) (settle (β := β)) (settle (β := γ)) Any := by
  intro channel other hpaired
  rw [run_settle, run_settle, hpaired.state_eq]
  cases channel.state with
  | idle => exact .inl ⟨_, channel, other, rfl, rfl, hpaired, trivial⟩
  | completed | aborted => exact inStep_acknowledge h channel other hpaired
  | resetRequested | armed | running => exact inStep_recover h channel other hpaired

/-- A complete write goes in step. -/
theorem inStep_write (data : Bytes) :
    TryInStep may (Paired inv) (write poll setup data) (write poll setup data) Any := by
  have hsteps : TryInStep may (Paired inv) (writeSteps poll setup data)
      (writeSteps poll setup data) Any := by
    unfold writeSteps
    exact (inStep_reset h hpoll).next fun _ => (inStep_arm h data).next fun _ =>
      inStep_runWrite h hpoll data
  unfold write
  refine (inStep_expect .idle).next fun _ => ?_
  exact InStep.bind hsteps fun r hr => (inStep_settle h).next fun _ => .pure hr

end

end Channel

/-! ## Reading into a buffer -/

namespace Reading

/-- Two readings that have come to the same. -/
structure Paired (inv : β → γ → Prop) (reading : Reading β) (other : Reading γ) : Prop where
  channel : Channel.Paired inv reading.channel other.channel
  data_eq : other.data = reading.data
  stats_eq : other.stats = reading.stats
  reports_eq : other.reports = reading.reports

/-- A step of the channel goes in step on readings that agree in everything else. -/
theorem inStep_onChannel {m : Action (Channel β) α} {m' : Action (Channel γ) α} {post : α → Prop}
    (h : InStep may (Channel.Paired inv) m m' post) :
    InStep may (Paired inv) (onChannel m) (onChannel m') post := by
  intro reading other hpaired
  rw [run_onChannel, run_onChannel]
  rcases h _ _ hpaired.channel with ⟨a, next, next', hrun, hrun', hnext, hpost⟩ | hcrash
  · rw [hrun, hrun']
    exact .inl ⟨a, _, _, rfl, rfl,
      ⟨hnext, hpaired.data_eq, hpaired.stats_eq, hpaired.reports_eq⟩, hpost⟩
  · obtain ⟨defect, hmay, hrun, hrun'⟩ := hcrash
    rw [hrun, hrun']
    exact .inr ⟨defect, hmay, rfl, rfl⟩

/-- So does an attempt. -/
theorem inStep_tryOnChannel {m : Attempt ε (Channel β) α} {m' : Attempt ε (Channel γ) α}
    {post : α → Prop} (h : TryInStep may (Channel.Paired inv) m m' post) :
    TryInStep may (Paired inv) (tryOnChannel m) (tryOnChannel m') post :=
  inStep_onChannel h

/-- And so does a step of the bus. -/
theorem inStep_onBus {m : Action β α} {m' : Action γ α} {post : α → Prop}
    (h : InStep may inv m m' post) : InStep may (Paired inv) (onBus m) (onBus m') post :=
  inStep_onChannel (Channel.inStep_onBus h)

variable [Bus β] [Bus γ] {setup : TransferSetup} (h : Bus.Permits may setup inv) {poll : Poll}
  (hpoll : Patient may poll)

include h

/-- Both buffers are filled with the same bytes. -/
theorem inStep_receive : InStep may (Paired inv) (receive (β := β)) (receive (β := γ)) Any := by
  intro reading other hpaired
  rw [run_receive, run_receive, hpaired.data_eq]
  rcases h.dmaFromDevice reading.data _ _ hpaired.channel.bus with
    ⟨filled, next, next', hrun, hrun', hnext, -⟩ | ⟨defect, hmay, hrun, hrun'⟩
  · rw [hrun, hrun']
    exact .inl ⟨(), _, _, rfl, rfl, ⟨⟨hpaired.channel.state_eq, hnext⟩, rfl, hpaired.stats_eq,
      hpaired.reports_eq⟩, trivial⟩
  · rw [hrun, hrun']
    exact .inr ⟨defect, hmay, rfl, rfl⟩

/-- Both readings are repaired, or the same field of both is lost. -/
theorem inStep_correctFields (g : Geometry) :
    InStep may (Paired inv) (correctFields (β := β) g) (correctFields (β := γ) g) Any := by
  intro reading other hpaired
  rw [run_correctFields, run_correctFields, hpaired.data_eq]
  rcases Ecc.inStep_correct h g reading.data _ _ hpaired.channel.bus with
    ⟨outcome, next, next', hrun, hrun', hnext, -⟩ | ⟨defect, hmay, hrun, hrun'⟩
  · have hchannel : Channel.Paired inv { reading.channel with bus := next }
        { other.channel with bus := next' } := ⟨hpaired.channel.state_eq, hnext⟩
    rw [hrun, hrun']
    cases outcome with
    | ok fixed =>
      exact .inl ⟨.ok fixed.1, _, _, rfl, rfl,
        ⟨hchannel, rfl, hpaired.stats_eq, hpaired.reports_eq⟩, trivial⟩
    | error lost =>
      exact .inl ⟨.error lost, _, _, rfl, rfl,
        ⟨hchannel, rfl, hpaired.stats_eq, hpaired.reports_eq⟩, trivial⟩
  · rw [hrun, hrun']
    exact .inr ⟨defect, hmay, rfl, rfl⟩

omit [Bus β] [Bus γ] h in
/-- Both book what has been repaired. -/
theorem inStep_credit (fixed : List FieldReport) :
    TryInStep may (Paired inv) (modify (credit fixed) : Attempt ε (Reading β) PUnit)
      (modify (credit fixed) : Attempt ε (Reading γ) PUnit) Any := by
  intro reading other hpaired
  refine .inl ⟨.ok ⟨⟩, credit fixed reading, credit fixed other, rfl, rfl,
    ⟨hpaired.channel, hpaired.data_eq, ?_, ?_⟩, trivial⟩
  · simp only [credit, hpaired.stats_eq]
  · simp only [credit, hpaired.reports_eq]

omit [Bus β] [Bus γ] h in
/-- Both book that the page is lost. -/
theorem inStep_debit :
    TryInStep may (Paired inv) (modify debit : Attempt ε (Reading β) PUnit)
      (modify debit : Attempt ε (Reading γ) PUnit) Any := by
  intro reading other hpaired
  refine .inl ⟨.ok ⟨⟩, debit reading, debit other, rfl, rfl,
    ⟨hpaired.channel, hpaired.data_eq, ?_, hpaired.reports_eq⟩, trivial⟩
  simp only [debit, hpaired.stats_eq]

/-- Dealing with one event goes in step. -/
theorem inStep_repair (g : Geometry) (page : Nat) :
    TryInStep may (Paired inv) (repair (β := β) g page) (repair (β := γ) g page) Any := by
  unfold repair
  refine (TryInStep.perform (inStep_correctFields h g)).bind fun result _ => ?_
  cases result with
  | ok fixed =>
    refine (inStep_credit fixed).next fun _ => ?_
    exact .perform (inStep_onBus (h.write32 (by decide) (by decide) _))
  | error lost =>
    refine inStep_debit.next fun _ => ?_
    exact (TryInStep.perform (inStep_onChannel (Channel.inStep_abandon h))).next fun _ =>
      TryInStep.throw

/-- One look at the status flags goes in step. -/
theorem inStep_look (g : Geometry) (page : Nat) :
    TryInStep may (Paired inv) (look (β := β) g page) (look (β := γ) g page) Any := by
  have hover : TryInStep may (Paired inv) (do
      let status ← perform (onBus (Bus.read32 Register.status))
      return status &&& Bits.transferDone != 0 && status &&& Bits.eccEvent == 0 :
        Attempt Error (Reading β) Bool) (do
      let status ← perform (onBus (Bus.read32 Register.status))
      return status &&& Bits.transferDone != 0 && status &&& Bits.eccEvent == 0 :
        Attempt Error (Reading γ) Bool) Any :=
    (TryInStep.perform (inStep_onBus (h.read32 (by decide)))).next fun _ =>
      TryInStep.pure trivial
  unfold look
  refine (TryInStep.perform (inStep_onBus (h.anySet (by decide) _))).bind fun hasEvent _ => ?_
  cases hasEvent with
  | true => exact (inStep_repair h g page).next fun _ => hover
  | false => exact hover

include hpoll

/-- A started read goes in step, with the wait for its end. -/
theorem inStep_runRead (g : Geometry) (page : Nat) :
    TryInStep may (Paired inv) (runRead (β := β) poll g page) (runRead (β := γ) poll g page)
      Any := by
  have hleave : TryInStep may (Paired inv) (do
      perform (onChannel (Channel.enter .completed))
      return (← get).reports : Attempt Error (Reading β) (List FieldReport)) (do
      perform (onChannel (Channel.enter .completed))
      return (← get).reports : Attempt Error (Reading γ) (List FieldReport)) Any := by
    refine (TryInStep.perform (inStep_onChannel (Channel.inStep_enter _))).next fun _ => ?_
    intro reading other hpaired
    exact .inl ⟨.ok reading.reports, reading, other, rfl,
      congrArg (fun reports => Except.ok (Except.ok reports, other)) hpaired.reports_eq,
      hpaired, trivial⟩
  unfold runRead
  refine (inStep_tryOnChannel (Channel.inStep_expect .armed)).next fun _ => ?_
  refine (TryInStep.perform (inStep_onChannel (Channel.inStep_enter _))).next fun _ => ?_
  refine (TryInStep.perform (inStep_onBus (h.setControl _ (by decide)))).next fun _ => ?_
  refine (TryInStep.perform (inStep_receive h)).next fun _ => ?_
  refine (TryInStep.perform (inStep_onBus (h.allClear (by decide) _))).bind fun unchecked _ => ?_
  -- Whether the transfer is checked has been read from the bus, where the two sides agree.
  cases unchecked with
  | true =>
    refine TryInStep.next (TryInStep.wait hpoll ?_) fun _ => hleave
    exact .perform (inStep_onBus (h.anySet (by decide) _))
  | false => exact (TryInStep.wait hpoll (inStep_look h g page)).next fun _ => hleave

/-- A complete read goes in step. -/
theorem inStep_read (g : Geometry) (page : Nat) :
    TryInStep may (Paired inv) (read (β := β) poll setup g page) (read (β := γ) poll setup g page)
      Any := by
  have hsteps : TryInStep may (Paired inv) (readSteps (β := β) poll setup g page)
      (readSteps (β := γ) poll setup g page) Any := by
    unfold readSteps
    refine (inStep_tryOnChannel (Channel.inStep_reset h hpoll)).next fun _ => ?_
    refine TryInStep.get_bind fun reading other hpaired => ?_
    rw [hpaired.data_eq]
    refine TryInStep.next (inStep_tryOnChannel (Channel.inStep_arm h reading.data)) fun _ => ?_
    exact inStep_runRead h hpoll g page
  unfold read
  refine (inStep_tryOnChannel (Channel.inStep_expect .idle)).next fun _ => ?_
  exact InStep.bind hsteps fun r hr =>
    (inStep_onChannel (Channel.inStep_settle h)).next fun _ => .pure hr

end Reading

end NandFlash
