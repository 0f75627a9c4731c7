import NandFlash.Proofs.Sim.Framing

/-!
# The data register of the simulated device

Bytes come out of whatever the last command has put in front of the data register, and go into
the page that is being collected.
-/

namespace NandFlash.Sim.Device

variable {device : Device} {content : Bytes} {row column : Nat}

/-! ## Reading -/

theorem run_readByte :
    (Framing.readByte).run device =
      .ok ((device.latches.readByte device.chip.id).1, { device with
        latches := (device.latches.readByte device.chip.id).2 }) := by
  rw [Framing.readByte, run_bind (run_read32_data device)]
  show Except.ok ((device.latches.readByte device.chip.id).1.toUInt32.toUInt8, _) = _
  rw [UInt8.toUInt8_toUInt32]

/-- The next byte of a page. -/
theorem run_readByte_page (h : device.latches.Delivers content row column) :
    ∃ next, (Framing.readByte).run device = .ok (content.getD column erasedByte, next) ∧
      device.Commanded next ∧ next.latches.Delivers content row (column + 1) := by
  refine ⟨device.modifyLatches fun latches => { latches with cursor := latches.cursor + 1 },
    run_readByte.trans ?_, ⟨rfl, rfl, rfl⟩, h.cache_eq, h.cacheRow_eq, h.output_eq,
    congrArg (· + 1) h.cursor_eq⟩
  simp only [Latches.readByte, h.output_eq, h.cache_eq, h.cursor_eq, modifyLatches]

/-- The next byte of the identification. -/
theorem run_readByte_id (houtput : device.latches.output = .id) :
    ∃ next, (Framing.readByte).run device =
        .ok (device.chip.id.toArray.getD device.latches.cursor 0, next) ∧
      device.Commanded next ∧ next.latches.output = .id ∧
      next.latches.cursor = device.latches.cursor + 1 := by
  refine ⟨device.modifyLatches fun latches => { latches with cursor := latches.cursor + 1 },
    run_readByte.trans ?_, ⟨rfl, rfl, rfl⟩, houtput, rfl⟩
  simp only [Latches.readByte, houtput, modifyLatches]

/-- The status byte. -/
theorem run_readByte_status (houtput : device.latches.output = .status) :
    (Framing.readByte).run device = .ok (device.latches.status, device) := by
  rw [run_readByte]
  simp only [Latches.readByte, houtput]

/-- Bytes of a page from a column on; behind its end they are erased. -/
def pageBytes (content : Bytes) (column count : Nat) : Bytes :=
  ((List.range count).map fun i => content.getD (column + i) erasedByte).toArray

@[simp] theorem size_pageBytes (content : Bytes) (column count : Nat) :
    (pageBytes content column count).size = count := by
  rw [pageBytes, List.size_toArray, List.length_map, List.length_range]

theorem pageBytes_eq_extract {content : Bytes} {column count : Nat}
    (h : column + count ≤ content.size) :
    pageBytes content column count = content.extract column (column + count) := by
  apply Array.ext
  · rw [size_pageBytes, Array.size_extract]
    omega
  · intro i hi hi'
    rw [size_pageBytes] at hi
    simp only [pageBytes, List.getElem_toArray, List.getElem_map, List.getElem_range,
      Array.getElem_extract, Array.getD_eq_getD_getElem?]
    rw [Array.getElem?_eq_getElem (by omega), Option.getD_some]

theorem run_readData (h : device.latches.Delivers content row column) (count : Nat) :
    ∃ next, (Framing.readData count).run device =
        .ok (pageBytes content column count, next) ∧ device.Commanded next := by
  -- The numbers in the list only count the bytes.
  have hbytes : ∀ (start count column : Nat) (device : Device),
      device.latches.Delivers content row column → ∃ next,
        ((List.range' start count).mapM fun _ =>
          (do return (← Bus.read32 Register.data).toUInt8 : Action Device UInt8)).run device =
          .ok ((List.range' 0 count).map fun i => content.getD (column + i) erasedByte, next) ∧
        device.Commanded next := by
    intro start count
    induction count generalizing start with
    | zero => exact fun column device _ => ⟨device, rfl, Commanded.refl _⟩
    | succ count ih =>
      intro column device h
      obtain ⟨next, hrun, hnext, hdelivers⟩ := run_readByte_page h
      obtain ⟨last, hrest, hlast⟩ := ih (start + 1) (column + 1) next hdelivers
      refine ⟨last, ?_, hnext.trans hlast⟩
      rw [List.range'_succ, List.mapM_cons]
      refine run_step hrun ?_
      rw [run_bind hrest]
      have hmap : (List.range' 0 count).map (fun i => content.getD (column + 1 + i) erasedByte) =
          (List.range' 1 count).map fun i => content.getD (column + i) erasedByte := by
        rw [List.range'_eq_map_range, List.range'_eq_map_range, List.map_map, List.map_map]
        apply List.map_congr_left
        intro i _
        simp only [Function.comp_apply, Nat.zero_add, Nat.add_assoc]
      rw [hmap, List.range'_succ, List.map_cons]
      rfl
  obtain ⟨next, hrun, hnext⟩ := hbytes 0 count column device h
  refine ⟨next, ?_, hnext⟩
  rw [Framing.readData, List.range_eq_range', run_bind hrun, pageBytes, List.range_eq_range']
  rfl

theorem getD_id (id : IdBytes) {i : Nat} (h : i < idLen) : id.toArray.getD i 0 = id[i] := by
  rw [Array.getD_eq_getD_getElem?, Array.getElem?_eq_getElem (by rwa [Vector.size_toArray])]
  rfl

/-- A chip answers with its identification, unless its size cannot be told. -/
theorem follows_readId (device : Device) (poll : Poll) :
    Follows device.chip.rowCycles
      (fun _ r next => ∃ id, r = .ok id ∧ device.Commanded next ∧ id = device.chip.id)
      ((Framing.readId poll).run.run device) := by
  refine (follows_send_readId device poll).attempt_finish ?_
  rintro - - d₀ ⟨h₀, hout₀, hcur₀⟩
  obtain ⟨d₁, hrun₁, h₁, hout₁, hcur₁⟩ := run_readByte_id hout₀
  obtain ⟨d₂, hrun₂, h₂, hout₂, hcur₂⟩ := run_readByte_id hout₁
  obtain ⟨d₃, hrun₃, h₃, hout₃, hcur₃⟩ := run_readByte_id hout₂
  obtain ⟨d₄, hrun₄, h₄, hout₄, hcur₄⟩ := run_readByte_id hout₃
  obtain ⟨d₅, hrun₅, h₅, hout₅, hcur₅⟩ := run_readByte_id hout₄
  obtain ⟨d₆, hrun₆, h₆, -, -⟩ := run_readByte_id hout₅
  have hchip₁ := h₀.trans h₁
  have hchip₂ := hchip₁.trans h₂
  have hchip₃ := hchip₂.trans h₃
  have hchip₄ := hchip₃.trans h₄
  have hchip₅ := hchip₄.trans h₅
  -- Six reads of the data port, each of which leaves the cursor on the next byte.
  refine ⟨_, d₆, run_attempt_step (run_perform hrun₁) <| run_attempt_step (run_perform hrun₂) <|
    run_attempt_step (run_perform hrun₃) <| run_attempt_step (run_perform hrun₄) <|
    run_attempt_step (run_perform hrun₅) <| run_attempt_step (run_perform hrun₆) rfl, _, rfl,
    hchip₅.trans h₆, ?_⟩
  rw [hcur₅, hcur₄, hcur₃, hcur₂, hcur₁, hcur₀, h₀.chip_eq, hchip₁.chip_eq, hchip₂.chip_eq,
    hchip₃.chip_eq, hchip₄.chip_eq, hchip₅.chip_eq]
  apply Vector.ext
  intro i hi
  have hcases : i = 0 ∨ i = 1 ∨ i = 2 ∨ i = 3 ∨ i = 4 ∨ i = 5 := by
    have hlen : idLen = 6 := rfl
    omega
  rcases hcases with rfl | rfl | rfl | rfl | rfl | rfl <;> exact getD_id _ hi

/-! ## Writing -/

/-- Bytes go into the page that is being collected. -/
theorem run_writeData {buffer : Bytes} {cursor : Nat} {ecc : Bool}
    (hpending : device.latches.pending = some ⟨row, buffer, cursor, ecc⟩) (bytes : Bytes) :
    ∃ next, (Framing.writeData bytes).run device = .ok ((), next) ∧ device.Commanded next ∧
      next.latches.pending =
        some ⟨row, buffer.overlay cursor bytes, cursor + bytes.size, ecc⟩ := by
  obtain ⟨bytes⟩ := bytes
  show ∃ next, (bytes.forM fun byte => Bus.write32 Register.data byte.toUInt32 :
    Action Device Unit).run device = _ ∧ _
  -- By induction on the bytes: each is put where the cursor is, which moves on.
  induction bytes generalizing device buffer cursor with
  | nil =>
    refine ⟨device, rfl, Commanded.refl _, ?_⟩
    rw [hpending]
    congr 2
    apply Array.ext_getElem?
    intro i
    rw [Bytes.getElem?_overlay, if_neg (by simp; omega)]
  | cons byte bytes ih =>
    have hstored : (device.modifyLatches (·.writeByte byte.toUInt32.toUInt8)).latches.pending =
        some ⟨row, buffer.setIfInBounds cursor byte, cursor + 1, ecc⟩ := by
      simp only [modifyLatches, Latches.writeByte, hpending, UInt8.toUInt8_toUInt32]
    obtain ⟨next, hrun, hnext, hresult⟩ := ih hstored
    have hstep : device.Commanded (device.modifyLatches (·.writeByte byte.toUInt32.toUInt8)) :=
      ⟨rfl, rfl, rfl⟩
    refine ⟨next, run_step (run_write32_data device _) hrun, hstep.trans hnext, ?_⟩
    rw [hresult, Bytes.overlay_setIfInBounds]
    simp only [List.size_toArray, List.length_cons]
    rw [Nat.add_assoc, Nat.add_comm 1]

end NandFlash.Sim.Device
