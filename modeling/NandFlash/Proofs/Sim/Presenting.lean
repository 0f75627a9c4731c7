import NandFlash.Proofs.Sim.Channel

/-!
# Reports, one at a time

While a read is being shown, the status words, the latched errors and the flags belong to the
first queued report. Acknowledging the ECC event brings up the next one, and after the last the
transfer is done and the controller side is at rest.
-/

namespace NandFlash.Sim

namespace Engine

variable {engine : Engine} {g : Geometry}

/-! ## Rows of registers -/

/-- Store words in consecutive registers. -/
def storeWords (engine : Engine) (base count : Nat) (word : Nat → UInt32) : Engine :=
  (List.range count).foldl (fun engine i => engine.setRegister (base + 4 * i) (word i)) engine

theorem storeWords_succ (engine : Engine) (base count : Nat) (word : Nat → UInt32) :
    engine.storeWords base (count + 1) word =
      (engine.storeWords base count word).setRegister (base + 4 * count) (word count) := by
  rw [storeWords, storeWords, List.range_succ, List.foldl_append]
  rfl

theorem register_storeWords_of_ne {base count offset : Nat} (engine : Engine)
    (word : Nat → UInt32) (h : ∀ i < count, offset ≠ base + 4 * i) :
    (engine.storeWords base count word).register offset = engine.register offset := by
  induction count with
  | zero => rfl
  | succ count ih =>
    rw [storeWords_succ, register_setRegister_of_ne _ _ (h count (Nat.lt_succ_self _)),
      ih fun i hi => h i (Nat.lt_succ_of_lt hi)]

theorem register_storeWords_self {base count i : Nat} (engine : Engine) (word : Nat → UInt32)
    (hi : i < count) : (engine.storeWords base count word).register (base + 4 * i) = word i := by
  induction count with
  | zero => omega
  | succ count ih =>
    rw [storeWords_succ]
    by_cases hlast : i = count
    · rw [hlast, register_setRegister_self]
    · rw [register_setRegister_of_ne _ _ (by omega), ih (by omega)]

theorem storeWords_eq (engine : Engine) (base count : Nat) (word : Nat → UInt32) :
    engine.storeWords base count word =
      { engine with registers := (engine.storeWords base count word).registers } := by
  induction count with
  | zero => rfl
  | succ count ih =>
    rw [storeWords_succ, ih]
    rfl

theorem clearStatus_eq (engine : Engine) :
    engine.clearStatus =
      engine.storeWords Register.fieldStatus Register.fieldStatusWords fun _ => 0 := by
  rw [clearStatus, statusOffsets, List.foldl_map]
  rfl

theorem latch_eq (engine : Engine) (errors : List (UInt16 × UInt8)) :
    engine.latch errors =
      (engine.storeWords Register.errorAddress Register.errorAddressWords
        (addressWord errors)).storeWords Register.errorValue Register.errorValueWords
        (valueWord errors) := rfl

/-! ## What is shown of a report -/

/-- The status word `i` while field `index + 1` is reported. -/
def statusWord (index : Nat) (status : FieldStatus) (i : Nat) : UInt32 :=
  if i = index / 4 then status.toByte.toUInt32 <<< UInt32.ofNat (index % 4 * 8) else 0

/-- Status words and latched errors are those of a report. -/
structure Shows (report : DamageReport) (engine : Engine) : Prop where
  statusWord_eq : ∀ i < Register.fieldStatusWords,
    engine.register (Register.fieldStatus + 4 * i) =
      statusWord (report.field - 1) report.status i
  addressWord_eq : ∀ i < Register.errorAddressWords,
    engine.register (Register.errorAddress + 4 * i) =
      addressWord (report.errors.take Ecc.maxErrors) i
  valueWord_eq : ∀ i < Register.errorValueWords,
    engine.register (Register.errorValue + 4 * i) =
      valueWord (report.errors.take Ecc.maxErrors) i

/-- A field's status byte is all that is left in the status words. -/
theorem setFieldStatus_succ (engine : Engine) {index : Nat} (hindex : index < 16)
    (status : FieldStatus) (h : engine.register (Register.fieldStatus + 4 * (index / 4)) = 0) :
    engine.setFieldStatus (index + 1) status =
      engine.setRegister (Register.fieldStatus + 4 * (index / 4))
        (statusWord index status (index / 4)) := by
  have hwords : index / 4 < Register.fieldStatusWords := by
    show index / 4 < 4
    omega
  simp only [setFieldStatus, hwords, if_true, h, UInt32.zero_and, UInt32.zero_or, statusWord]

/-- Whatever the field, no more than one status word changes. -/
theorem setFieldStatus_eq (engine : Engine) (field : Nat) (status : FieldStatus) :
    engine.setFieldStatus field status = engine ∨ ∃ i word, engine.setFieldStatus field status =
      engine.setRegister (Register.fieldStatus + 4 * i) word := by
  cases field with
  | zero => exact .inl rfl
  | succ index =>
    by_cases hwords : index / 4 < Register.fieldStatusWords
    · exact .inr ⟨index / 4, _, if_pos hwords⟩
    · exact .inl (if_neg hwords)

section

variable (engine) (field : Nat) (status : FieldStatus) (errors : List (UInt16 × UInt8))

/-- A register before the status words other than the status register keeps out of it. -/
theorem register_present {offset : Nat} (hoffset : offset < Register.fieldStatus)
    (hstatus : offset ≠ Register.status) :
    (engine.present field status errors).register offset = engine.register offset := by
  have hfield : Register.fieldStatus = 0x8D0 := rfl
  have haddress : Register.errorAddress = 0x900 := rfl
  have hvalue : Register.errorValue = 0x960 := rfl
  have hset : ∀ engine : Engine, (engine.setFieldStatus field status).register offset =
      engine.register offset := by
    intro engine
    obtain h | ⟨i, word, h⟩ := engine.setFieldStatus_eq field status
    · rw [h]
    · rw [h, register_setRegister_of_ne _ _ (by omega)]
  rw [present, raise, register_setRegister_of_ne _ _ hstatus, latch_eq,
    register_storeWords_of_ne _ _ (fun i _ => by omega),
    register_storeWords_of_ne _ _ (fun i _ => by omega), hset, clearStatus_eq,
    register_storeWords_of_ne _ _ (fun i _ => by omega)]

theorem status_present :
    (engine.present field status errors).register Register.status =
      engine.register Register.status ||| Bits.eccEvent := by
  have hstatus : Register.status = 0x8AC := rfl
  have hfield : Register.fieldStatus = 0x8D0 := rfl
  have haddress : Register.errorAddress = 0x900 := rfl
  have hvalue : Register.errorValue = 0x960 := rfl
  have hset : ∀ engine : Engine, (engine.setFieldStatus field status).register Register.status =
      engine.register Register.status := by
    intro engine
    obtain h | ⟨i, word, h⟩ := engine.setFieldStatus_eq field status
    · rw [h]
    · rw [h, register_setRegister_of_ne _ _ (by omega)]
  rw [present, raise, register_setRegister_self, latch_eq,
    register_storeWords_of_ne _ _ (fun i _ => by omega),
    register_storeWords_of_ne _ _ (fun i _ => by omega), hset, clearStatus_eq,
    register_storeWords_of_ne _ _ (fun i _ => by omega)]

/-- The status words are those of the one field. -/
theorem statusWord_present {i : Nat} (hi : i < Register.fieldStatusWords) :
    (engine.present field status errors).register (Register.fieldStatus + 4 * i) =
      (engine.clearStatus.setFieldStatus field status).register (Register.fieldStatus + 4 * i) := by
  have hstatus : Register.status = 0x8AC := rfl
  have hfield : Register.fieldStatus = 0x8D0 := rfl
  have haddress : Register.errorAddress = 0x900 := rfl
  have hvalue : Register.errorValue = 0x960 := rfl
  have hi' : i < 4 := hi
  rw [present, raise, register_setRegister_of_ne _ _ (by omega), latch_eq,
    register_storeWords_of_ne _ _ (fun i _ => by omega),
    register_storeWords_of_ne _ _ (fun i _ => by omega)]

/-- Showing a report changes nothing but registers. -/
theorem present_eq :
    engine.present field status errors =
      { engine with registers := (engine.present field status errors).registers } := by
  have hset : ∀ engine : Engine, engine.setFieldStatus field status =
      { engine with registers := (engine.setFieldStatus field status).registers } := by
    intro engine
    obtain h | ⟨i, word, h⟩ := engine.setFieldStatus_eq field status <;> rw [h]
    rfl
  rw [present, latch_eq, storeWords_eq, storeWords_eq, hset, clearStatus_eq, storeWords_eq]
  rfl

end

/-- A report of an existing field shows as itself. -/
theorem shows_present (engine : Engine) {report : DamageReport}
    (hfield : ∃ index < 16, report.field = index + 1) :
    (engine.present report.field report.status report.errors).Shows report := by
  have hstatus : Register.status = 0x8AC := rfl
  have hstatusWord : Register.fieldStatus = 0x8D0 := rfl
  have haddress : Register.errorAddress = 0x900 := rfl
  have haddresses : Register.errorAddressWords = 12 := rfl
  have hvalue : Register.errorValue = 0x960 := rfl
  obtain ⟨index, hindex, hfield⟩ := hfield
  have hwords : index / 4 < Register.fieldStatusWords := by
    show index / 4 < 4
    omega
  have hset := engine.clearStatus.setFieldStatus_succ hindex report.status
    (by rw [clearStatus_eq, register_storeWords_self _ _ hwords])
  -- The three banks of registers lie apart, so that each keeps what has been written to it.
  refine ⟨fun i hi => ?_, fun i hi => ?_, fun i hi => ?_⟩
  · have hi' : i < 4 := hi
    rw [hfield, statusWord_present _ _ _ _ hi, hset, Nat.add_sub_cancel]
    by_cases hself : i = index / 4
    · rw [hself, register_setRegister_self]
    · rw [register_setRegister_of_ne _ _ (by omega), clearStatus_eq,
        register_storeWords_self _ _ hi, statusWord, if_neg hself]
  · rw [present, raise, register_setRegister_of_ne _ _ (by omega), latch_eq,
      register_storeWords_of_ne _ _ (fun i _ => by omega), register_storeWords_self _ _ hi]
  · rw [present, raise, register_setRegister_of_ne _ _ (by omega), latch_eq,
      register_storeWords_self _ _ hi]

/-! ## A read being shown -/

/-- The reports still to be gone through, in the registers and in the queue. -/
structure Showing (g : Geometry) (reports : List DamageReport) (engine : Engine) : Prop extends
    Programmed g engine where
  transfer_eq : engine.transfer = none
  reports_eq : engine.reports = reports
  reading_eq : engine.reading = !reports.isEmpty
  spareSize_eq : engine.register Register.spareSize = UInt32.ofNat g.spareSize
  flags_eq : engine.register Register.status &&& (Bits.transferDone ||| Bits.eccEvent) =
    if reports.isEmpty then Bits.transferDone else Bits.eccEvent
  shows_head : ∀ report ∈ reports.head?, engine.Shows report

theorem Showing.setWindow {reports : List DamageReport} (h : Showing g reports engine)
    (window : Window) : Showing g reports { engine with window } :=
  ⟨h.toProgrammed.setWindow window, h.transfer_eq, h.reports_eq, h.reading_eq, h.spareSize_eq,
    h.flags_eq, fun report hreport => ⟨(h.shows_head report hreport).statusWord_eq,
      (h.shows_head report hreport).addressWord_eq, (h.shows_head report hreport).valueWord_eq⟩⟩

theorem Showing.event_eq {report : DamageReport} {rest : List DamageReport}
    (h : Showing g (report :: rest) engine) :
    engine.register Register.status &&& (Bits.transferDone ||| Bits.eccEvent) = Bits.eccEvent :=
  h.flags_eq

/-- When every report has been gone through the controller side is at rest. -/
theorem Showing.atRest (h : Showing g [] engine) : AtRest g engine :=
  ⟨⟨h.toStored, h.transfer_eq, h.reports_eq, h.reading_eq⟩, h.page_eq, h.auto_eq⟩

/-- Programmed registers stay so if none of them changes. -/
theorem Programmed.of_register {new : Engine} (h : Programmed g engine)
    (hcontrol : new.register Register.control = engine.register Register.control)
    (hdma : new.register Register.dmaControl = engine.register Register.dmaControl) :
    Programmed g new :=
  ⟨⟨by rw [hcontrol]; exact h.control_eq, by rw [hdma]; exact h.dmaControl_eq⟩,
    by rw [hcontrol]; exact h.page_eq, by rw [hcontrol]; exact h.auto_eq⟩

/-! ## Bringing up the next report -/

theorem register_clearStatus_of_lt {offset : Nat} (engine : Engine)
    (h : offset < Register.fieldStatus) : engine.clearStatus.register offset =
      engine.register offset := by
  rw [clearStatus_eq, register_storeWords_of_ne _ _ (fun i _ => by omega)]

/-- Whatever is brought up, the registers before the status words other than the status register
keep out of it. -/
theorem register_presentNext {offset : Nat} (engine : Engine)
    (hoffset : offset < Register.fieldStatus) (hstatus : offset ≠ Register.status) :
    engine.presentNext.register offset = engine.register offset := by
  unfold presentNext
  split
  · exact engine.register_present _ _ _ hoffset hstatus
  · rw [raise, register_setRegister_of_ne _ _ hstatus]
    exact register_clearStatus_of_lt _ hoffset

/-- The flag that is raised to go on: the event of the first queued report, or the end of the
read. -/
def nextFlag : List DamageReport → UInt32
  | [] => Bits.transferDone
  | _ :: _ => Bits.eccEvent

theorem nextFlag_and (queue : List DamageReport) :
    nextFlag queue &&& (Bits.transferDone ||| Bits.eccEvent) =
      if queue.isEmpty then Bits.transferDone else Bits.eccEvent := by
  cases queue with
  | nil => rfl
  | cons =>
    exact (by decide : Bits.eccEvent &&& (Bits.transferDone ||| Bits.eccEvent) = Bits.eccEvent)

theorem status_presentNext (engine : Engine) :
    engine.presentNext.register Register.status =
      engine.register Register.status ||| nextFlag engine.reports := by
  unfold presentNext
  cases engine.reports with
  | nil =>
    simp only [raise, register_setRegister_self]
    show engine.clearStatus.register _ ||| _ = _
    rw [register_clearStatus_of_lt _ (by decide)]
    rfl
  | cons report rest => exact status_present _ _ _ _

/-- Nothing else than registers changes, and at the end of a read that it is being shown. -/
theorem presentNext_eq (engine : Engine) :
    engine.presentNext = { engine with
      registers := engine.presentNext.registers
      reading := engine.reading && !engine.reports.isEmpty } := by
  cases hreports : engine.reports with
  | nil =>
    have hnext : engine.presentNext =
        { engine.clearStatus with reading := false }.raise Bits.transferDone := by
      rw [presentNext, hreports]
    rw [hnext, clearStatus_eq, storeWords_eq]
    simp only [raise, setRegister, hreports, List.isEmpty_nil, Bool.not_true, Bool.and_false]
  | cons report rest =>
    have hnext : engine.presentNext =
        engine.present report.field report.status report.errors := by
      rw [presentNext, hreports]
    rw [hnext, present_eq]
    simp only [hreports, List.isEmpty_cons, Bool.not_false, Bool.and_true]

/-- The first report of a queue is brought up, or the end of the read. -/
theorem showing_presentNext (engine : Engine) (h : Programmed g engine)
    (htransfer : engine.transfer = none)
    (hreading : engine.reading = true)
    (hspare : engine.register Register.spareSize = UInt32.ofNat g.spareSize)
    (hflags : engine.register Register.status &&& (Bits.transferDone ||| Bits.eccEvent) = 0)
    (hfields : ∀ report ∈ engine.reports, ∃ index < 16, report.field = index + 1) :
    Showing g engine.reports engine.presentNext ∧ engine.Untouched engine.presentNext := by
  -- Bringing a report up touches the status and the registers of the report alone.
  have hregister : ∀ offset < Register.fieldStatus, offset ≠ Register.status →
      engine.presentNext.register offset = engine.register offset :=
    fun _ hlt hne => engine.register_presentNext hlt hne
  refine ⟨⟨h.of_register (hregister _ (by decide) (by decide))
    (hregister _ (by decide) (by decide)), ?_, ?_, ?_, ?_, ?_, ?_⟩, ?_, ?_⟩
  · rw [presentNext_eq]
    exact htransfer
  · rw [presentNext_eq]
  · rw [presentNext_eq]
    simp only [hreading, Bool.true_and]
  · rw [hregister _ (by decide) (by decide)]
    exact hspare
  · rw [status_presentNext, ← Bits.adjust_neg_one, Bits.adjust_and, UInt32.neg_one_and, hflags,
      UInt32.zero_or]
    exact nextFlag_and engine.reports
  · intro report hreport
    have hnext : engine.presentNext =
        engine.present report.field report.status report.errors := by
      obtain ⟨rest, hreports⟩ := List.head?_eq_some_iff.1 hreport
      rw [presentNext, hreports]
    rw [hnext]
    exact engine.shows_present (hfields _ (List.mem_of_mem_head? hreport))
  · rw [presentNext_eq]
  · rw [presentNext_eq]

/-- Acknowledging the event of a report brings up the next one. -/
theorem Showing.acknowledge {report : DamageReport} {rest : List DamageReport}
    (h : Showing g (report :: rest) engine)
    (hfields : ∀ report ∈ rest, ∃ index < 16, report.field = index + 1) :
    Showing g rest (engine.acknowledge Bits.eccEvent) ∧
      engine.Untouched (engine.acknowledge Bits.eccEvent) := by
  have hcleared : Bits.eccEvent &&& (Bits.transferDone ||| Bits.eccEvent ||| Bits.readyEdge) =
      Bits.eccEvent := by decide
  have hreading : engine.reading = true := h.reading_eq
  obtain ⟨advanced, hadvanced⟩ : ∃ advanced, advanced = { engine.setRegister Register.status
      (engine.register Register.status &&& ~~~Bits.eccEvent) with reports := rest } := ⟨_, rfl⟩
  -- Clearing the event drops the report that was shown.
  have hnext : engine.acknowledge Bits.eccEvent = advanced.presentNext := by
    rw [hadvanced]
    unfold Engine.acknowledge
    simp only [hcleared]
    rw [if_pos (by rw [Bool.and_eq_true]; exact ⟨by decide, hreading⟩)]
    show Engine.presentNext { engine.setRegister Register.status
      (engine.register Register.status &&& ~~~Bits.eccEvent) with
        reports := engine.reports.drop 1 } = _
    rw [h.reports_eq]
    rfl
  have hregister : ∀ offset ≠ Register.status, advanced.register offset =
      engine.register offset := by
    intro offset hne
    rw [hadvanced]
    exact register_setRegister_of_ne engine _ hne
  have hflags :
      advanced.register Register.status &&& (Bits.transferDone ||| Bits.eccEvent) = 0 := by
    have hstored : advanced.register Register.status =
        engine.register Register.status &&& ~~~Bits.eccEvent := by
      rw [hadvanced]
      exact register_setRegister_self engine _ _
    rw [hstored, UInt32.and_assoc, UInt32.and_comm (~~~Bits.eccEvent), ← UInt32.and_assoc,
      h.flags_eq]
    exact UInt32.and_not_self
  have hshowing := showing_presentNext advanced (g := g)
    (h.toProgrammed.of_register (hregister _ (by decide)) (hregister _ (by decide)))
    (by rw [hadvanced]; exact h.transfer_eq) (by rw [hadvanced]; exact hreading)
    (by rw [hregister _ (by decide)]; exact h.spareSize_eq) hflags
    (by rw [hadvanced]; exact hfields)
  have hreports : advanced.reports = rest := by rw [hadvanced]
  have huntouched : engine.Untouched advanced := by
    rw [hadvanced]
    exact ⟨rfl, rfl⟩
  rw [hnext]
  rw [hreports] at hshowing
  exact ⟨hshowing.1, huntouched.trans hshowing.2⟩

end Engine

end NandFlash.Sim
