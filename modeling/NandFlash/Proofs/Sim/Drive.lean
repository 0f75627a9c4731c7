import NandFlash.Controller.Request
import NandFlash.Proofs.Sim.Transfers

/-!
# Drives

A controller and the device it drives, without anything that does not outlive an operation: no
registers, no window, no latches, no staging area. What a request comes to is a function of the
rest.
-/

namespace NandFlash

/-! ## Requests that are refused -/

/-- Why a controller refuses a request without touching the device, if it does. -/
def Request.refusal? (profile : Profile) : Request → Except Crash (Option Error)
  | .readPage page data spare => do
    if data.size ≠ profile.geometry.pageBytes then
      return some (.bufferSize .page profile.geometry.pageBytes data.size)
    if (← profile.chip.pages) ≤ page then
      return some (.outOfRange .page page)
    if spare.size ≠ profile.geometry.spareSize then
      return some (.bufferSize .spare profile.geometry.spareSize spare.size)
    return none
  | .writePage page data spare => do
    if (← profile.chip.pages) ≤ page then
      return some (.outOfRange .page page)
    if data.size ≠ profile.geometry.pageBytes then
      return some (.bufferSize .page profile.geometry.pageBytes data.size)
    if spare.size ≠ profile.geometry.spareSize then
      return some (.bufferSize .spare profile.geometry.spareSize spare.size)
    return none
  | .readSpare page spare => do
    if (← profile.chip.pages) ≤ page then
      return some (.outOfRange .page page)
    if spare.size ≠ profile.geometry.spareSize then
      return some (.bufferSize .spare profile.geometry.spareSize spare.size)
    return none
  | .eraseBlock block | .isBad block | .markBad block => do
    if (← profile.chip.blocks) ≤ block then
      return some (.outOfRange .block block)
    return none
  | .readId | .reset => return none

/-- The arguments of a request fit a chip of so many pages and blocks. -/
def Request.Valid (g : Geometry) (pages blocks : Nat) : Request → Prop
  | .readPage page data spare | .writePage page data spare =>
    page < pages ∧ data.size = g.pageBytes ∧ spare.size = g.spareSize
  | .readSpare page spare => page < pages ∧ spare.size = g.spareSize
  | .eraseBlock block | .isBad block | .markBad block => block < blocks
  | .readId | .reset => True

/-- Requests with other arguments are refused, and no others. -/
theorem Request.refusal?_eq_none_iff {profile : Profile} {pages blocks : Nat}
    (hpages : profile.chip.pages = .ok pages) (hblocks : profile.chip.blocks = .ok blocks)
    (request : Request) :
    request.refusal? profile = .ok none ↔ request.Valid profile.geometry pages blocks := by
  cases request <;> simp only [refusal?, Valid, hpages, hblocks, bind, Except.bind, pure,
    Except.pure] <;> split_ifs <;> simp_all

theorem Request.exists_refusal {profile : Profile} (hsettled : profile.Settled)
    (request : Request) : ∃ refusal?, request.refusal? profile = .ok refusal? := by
  obtain ⟨pages, hpages⟩ := hsettled.exists_pages
  obtain ⟨blocks, hblocks⟩ := hsettled.exists_blocks
  cases request <;> simp only [refusal?, hpages, hblocks, bind, Except.bind] <;>
    try split_ifs
  all_goals exact ⟨_, rfl⟩

/-- An error that is about an argument: the size of a buffer, or an index out of range. -/
def Error.IsRefusal : Error → Prop
  | .bufferSize .. | .outOfRange .. => True
  | _ => False

theorem Request.isRefusal_of_refusal {profile : Profile} {request : Request} {e : Error}
    (h : request.refusal? profile = .ok (some e)) : e.IsRefusal := by
  cases request with
  | readPage page data spare | writePage page data spare | readSpare page spare
  | eraseBlock block | isBad block | markBad block =>
    simp only [Request.refusal?, bind, Except.bind, pure, Except.pure] at h
    repeat' split at h
    all_goals cases h
    all_goals trivial
  | readId | reset => cases h

namespace Sim

/-! ## Drives -/

/-- What a controller and its device amount to between two operations. -/
structure Drive where
  profile : Profile
  chip : Chip
  flash : Flash
  hang : Bool
  stats : EccStats

namespace Drive

variable (drive : Drive)

/-- The geometry that pages are moved with. -/
def geometry : Geometry := drive.profile.geometry

/-- The row that arrives at the chip when the controller sends one. -/
def rowAt (command : Command) (row : Nat) : Except Crash Nat :=
  drive.chip.rowAt drive.profile.chip.rowCycles command row

/-- Row of the first page of a block. -/
def firstRow (block : Nat) : Except Crash Nat := do
  word32 (block * (← drive.profile.chip.pagesPerBlock))

/-- An erased page with some bytes from a column on. -/
def pageWith (column : Nat) (bytes : Bytes) : Bytes :=
  (Bytes.erased drive.chip.rawLen).overlay column bytes

/-- The spare area that goes to flash with a page: the caller's bytes as far as the parity, which
is filled in, and the written mark. -/
def spareFor (data spare : Bytes) : Bytes :=
  Device.encode drive.geometry data ((Bytes.erased drive.geometry.spareSize).overlay 0
    (spare.extract 0 drive.profile.layout.parityStart))

theorem size_spareFor (hspare : drive.geometry.spareSize ≤ windowLen) (data spare : Bytes) :
    (drive.spareFor data spare).size = drive.geometry.spareSize :=
  Device.size_encode hspare data ((Bytes.size_overlay _ _ _).trans (Bytes.size_erased _))

/-- The spare area of a row. -/
def spareOf (row : Nat) : Bytes :=
  Device.pageBytes (drive.flash.content row) drive.geometry.pageBytes drive.geometry.spareSize

theorem size_spareOf (row : Nat) : (drive.spareOf row).size = drive.geometry.spareSize :=
  Device.size_pageBytes _ _ _

/-- The error that ends a transfer to flash, if it does not go through. -/
def transferOut : Except Crash (Option Error) := do
  if drive.hang then
    return some (← drive.profile.poll.exhaust .transferOut)
  return none

/-- Outcome of an operation that may fail. -/
def outcomeOf (isSound : Bool) (failure : Error) : Except Error Answer :=
  if isSound then .ok .done else .error failure

/-- Carry out a request that is not refused: the outcome and the two buffers. -/
def perform : Request → Except Crash ((Except Error Answer × Bytes × Bytes) × Drive)
  | .readPage page data _ => do
    let spare := drive.spareOf (← drive.rowAt .read page)
    let row ← drive.rowAt .read page
    let (outcome, found) ← Device.readOutcome drive.profile.poll drive.geometry page drive.hang
      (drive.flash.content row) (drive.flash.reference row) ⟨data, spare, drive.stats, []⟩
    return ((outcome.map .repaired, found.data, found.spare), { drive with stats := found.stats })
  | .writePage page data spare => do
    let row ← drive.rowAt .programSetup page
    match ← drive.transferOut with
    | some error => return ((.error error, data, spare), drive)
    | none =>
      let written := drive.spareFor data spare
      let (isSound, flash) ← drive.chip.programRow drive.flash row
        ((drive.pageWith 0 data).overlay drive.geometry.pageBytes written)
        (drive.geometry.strength ≠ .none)
      let parityStart := drive.profile.layout.parityStart
      return ((outcomeOf isSound (.programFailed page), data,
        spare.extract 0 parityStart ++ written.extract parityStart written.size),
        { drive with flash })
  | .readSpare page _ => do
    let row ← drive.rowAt .read page
    return ((.ok .done, #[], drive.spareOf row), drive)
  | .eraseBlock block => do
    let first ← drive.firstRow block
    let row ← drive.rowAt .eraseSetup first
    let (isSound, flash) ← drive.chip.eraseRow drive.flash row
    return ((outcomeOf isSound (.eraseFailed block), #[], #[]), { drive with flash })
  | .isBad block => do
    let first ← drive.firstRow block
    let row ← drive.rowAt .read first
    let marker := (drive.flash.content row).getD drive.geometry.pageBytes erasedByte
    return ((.ok (.marked (marker != erasedByte)), #[], #[]), drive)
  | .markBad block => do
    let first ← drive.firstRow block
    let row ← drive.rowAt .programSetup first
    let (isSound, flash) ← drive.chip.programRow drive.flash row
      (drive.pageWith drive.geometry.pageBytes Controller.badBlockMarker) false
    return ((outcomeOf isSound (.programFailed first), #[], #[]), { drive with flash })
  | .readId => do
    discard drive.chip.rowCycles
    return ((.ok (.id drive.chip.id), #[], #[]), drive)
  | .reset => return ((.ok .done, #[], #[]), drive)

/-- Serve a request. -/
def serve (request : Request) : Except Crash (Reply × Drive) := do
  match ← request.refusal? drive.profile with
  | some error => return (⟨.error error, request.data, request.spare, drive.stats⟩, drive)
  | none =>
    let ((outcome, data, spare), next) ← drive.perform request
    return (⟨outcome, data, spare, next.stats⟩, next)

end Drive

end Sim

end NandFlash
