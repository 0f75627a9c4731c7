import NandFlash.Proofs.SideBySide.Surface
import NandFlash.Proofs.Sim.CleanReads

/-!
# Mirrors

A reference copy matters only to a page that differs from it. Two drives mirror each other if they
agree on everything but the references, as far as the pages of their chip go, and if no page of
either differs from a reference that it has. No request tells such drives apart, and they go on
mirroring each other.
-/

namespace NandFlash

/-- Two computations that end alike are gone on with alike. -/
theorem SameEnd.bind {σ τ α β : Type} {mid : α → σ → σ → Prop} {post : β → τ → τ → Prop}
    {x y : Except Crash (α × σ)} {f g : α × σ → Except Crash (β × τ)} (h : SameEnd mid x y)
    (hnext : ∀ a s t, mid a s t → SameEnd post (f (a, s)) (g (a, t))) :
    SameEnd post (x >>= f) (y >>= g) := by
  match x, y with
  | .ok (a, s), .ok (b, t) =>
    obtain ⟨rfl, hmid⟩ := h
    exact hnext a s t hmid
  | .error _, .error _ => exact h
  | .ok _, .error _ | .error _, .ok _ => exact h.elim

/-- Runs that follow two computations end alike if these do. -/
theorem SameEnd.of_follows {ρ σ α β : Type} {mid : α → ρ → ρ → Prop} {post : β → σ → σ → Prop}
    {x y : Except Crash (α × ρ)} {left right : α × ρ → β → σ → Prop}
    {run run' : Except Crash (β × σ)} (h : SameEnd mid x y) (hx : Follows x left run)
    (hy : Follows y right run')
    (hpost : ∀ a d d' b s b' t, x = .ok (a, d) → y = .ok (a, d') → mid a d d' →
      left (a, d) b s → right (a, d') b' t → b = b' ∧ post b s t) : SameEnd post run run' := by
  match x, y, run, run' with
  | .ok (a, d), .ok (a', d'), .ok (b, s), .ok (b', t) =>
    obtain ⟨rfl, hmid⟩ := h
    exact hpost a d d' b s b' t rfl rfl hmid hx hy
  | .error defect, .error defect', .error _, .error _ =>
    have heq : defect = defect' := h
    exact (hx.trans heq).trans hy.symm
  | .ok _, .error _, _, _ | .error _, .ok _, _, _ => exact h.elim
  | .ok _, .ok _, .error _, _ | .error _, .error _, .ok _, _ => exact hx.elim
  | .ok _, .ok _, .ok _, .error _ | .error _, .error _, .error _, .ok _ => exact hy.elim

/-- Two runs on the same kind of state that always end alike are in step. -/
theorem InStep.of_sameEnd {σ α : Type} {inv : σ → σ → Prop} {m m' : Action σ α}
    (h : ∀ s t, inv s t → SameEnd (fun _ => inv) (m.run s) (m'.run t)) :
    InStep Any inv m m' Any := by
  intro s t hst
  have hend := h s t hst
  match hrun : m.run s, hrun' : m'.run t with
  | .ok (a, s'), .ok (b, t') =>
    rw [hrun, hrun'] at hend
    obtain ⟨rfl, hinv⟩ := hend
    exact .inl ⟨a, s', t', rfl, rfl, hinv, trivial⟩
  | .error defect, .error defect' =>
    rw [hrun, hrun'] at hend
    cases (hend : defect = defect')
    exact .inr ⟨defect, trivial, rfl, rfl⟩
  | .ok _, .error _ | .error _, .ok _ =>
    rw [hrun, hrun'] at hend
    exact hend.elim

namespace Sim

/-! ## The flash -/

namespace Flash

variable {flash other : Flash} {count : Nat}

/-- None of the first `count` pages differs from its reference, if it has one. -/
def Undamaged (count : Nat) (flash : Flash) : Prop :=
  ∀ page < count, flash.reference page = none ∨ flash.reference page = some (flash.content page)

/-- Programming a page either makes it its own reference or leaves it without one. -/
theorem Undamaged.program (h : flash.Undamaged count) (row : Nat) (buffer : Bytes) (ecc : Bool) :
    (flash.program row buffer ecc).Undamaged count := by
  intro page hpage
  simp only [Flash.program, Function.update_apply]
  by_cases hrow : page = row
  · rw [if_pos hrow, if_pos hrow]
    cases ecc with
    | true => exact .inr rfl
    | false => exact .inl rfl
  · rw [if_neg hrow, if_neg hrow]
    exact h page hpage

/-- Erased pages have no damage. -/
theorem Undamaged.erase (h : flash.Undamaged count) (rawLen first pages : Nat) :
    (flash.erase rawLen first pages).Undamaged count := by
  intro page hpage
  simp only [Flash.erase]
  split_ifs
  · exact .inl rfl
  · exact h page hpage

/-- A mark is made without ECC, so it leaves nothing that could be damaged. -/
theorem Undamaged.mark (h : flash.Undamaged count) (row column : Nat) :
    (flash.mark row column).Undamaged count := by
  intro page hpage
  simp only [Flash.mark, Function.update_apply]
  split_ifs
  · exact .inl rfl
  · exact h page hpage

/-- Two flashes with the same wear and the same first `count` pages, none of which differs from a
reference that it has on either side. -/
structure Mirrors (count : Nat) (flash other : Flash) : Prop where
  isFailing_eq : other.isFailing = flash.isFailing
  content_eq : ∀ page < count, other.content page = flash.content page
  undamaged : flash.Undamaged count
  otherUndamaged : other.Undamaged count

namespace Mirrors

variable (h : Mirrors count flash other)

include h

/-- It does not matter either whether the two programs give the page a reference. -/
theorem program {row : Nat} (hrow : row < count) (buffer : Bytes) (ecc ecc' : Bool) :
    Mirrors count (flash.program row buffer ecc) (other.program row buffer ecc') := by
  refine ⟨h.isFailing_eq, fun page hpage => ?_, h.undamaged.program _ _ _,
    h.otherUndamaged.program _ _ _⟩
  simp only [Flash.program, Function.update_apply, h.content_eq row hrow, h.content_eq page hpage]

/-- Erased on both sides, pages are the same. -/
theorem erase (rawLen first pages : Nat) :
    Mirrors count (flash.erase rawLen first pages) (other.erase rawLen first pages) := by
  refine ⟨h.isFailing_eq, fun page hpage => ?_, h.undamaged.erase _ _ _,
    h.otherUndamaged.erase _ _ _⟩
  simp only [Flash.erase, h.content_eq page hpage]

/-- Marked on both sides, pages that were the same still are. -/
theorem mark {row : Nat} (hrow : row < count) (column : Nat) :
    Mirrors count (flash.mark row column) (other.mark row column) := by
  refine ⟨h.isFailing_eq, fun page hpage => ?_, h.undamaged.mark _ _, h.otherUndamaged.mark _ _⟩
  simp only [Flash.mark, Function.update_apply, h.content_eq row hrow, h.content_eq page hpage]

end Mirrors

end Flash

/-! ## The drive -/

namespace Drive

variable {drive other : Drive}

namespace Genuine

variable (h : drive.Genuine)

include h

theorem perform_readSpare {page : Nat} (hpage : page < drive.chip.pageCount) (spare : Bytes) :
    drive.perform (.readSpare page spare) = .ok ((.ok .done, #[], drive.spareOf page), drive) := by
  rw [perform, h.rowAt_eq .read hpage]
  rfl

theorem perform_isBad {block : Nat} (hblock : block < drive.chip.blocks) :
    drive.perform (.isBad block) =
      .ok ((.ok (.marked (drive.isMarked block)), #[], #[]), drive) := by
  rw [perform, h.firstRow_eq hblock]
  simp only [bind, Except.bind, h.rowAt_eq .read (h.first_lt hblock)]
  rfl

theorem perform_readId :
    drive.perform .readId = .ok ((.ok (.id drive.chip.id), #[], #[]), drive) := by
  rw [perform, h.counted.rowCycles_eq]
  rfl

end Genuine

/-- Two drives that differ in their flash alone, and there in nothing that matters. -/
structure Mirrors (drive other : Drive) : Prop where
  eq_on : other = drive.on other.flash
  flash : Flash.Mirrors drive.chip.pageCount drive.flash other.flash

namespace Mirrors

theorem profile_eq (h : drive.Mirrors other) : other.profile = drive.profile := by
  rw [h.eq_on]
  rfl

theorem chip_eq (h : drive.Mirrors other) : other.chip = drive.chip := by
  rw [h.eq_on]
  rfl

theorem stats_eq (h : drive.Mirrors other) : other.stats = drive.stats := by
  rw [h.eq_on]
  rfl

theorem on {flash : Flash} (h : Flash.Mirrors drive.chip.pageCount drive.flash flash) :
    drive.Mirrors (drive.on flash) := ⟨rfl, h⟩

/-- The spare bytes of a row are read off its content. -/
theorem spareOf_eq {flash : Flash} {row : Nat} (h : flash.content row = drive.flash.content row) :
    (drive.on flash).spareOf row = drive.spareOf row :=
  congrArg (Device.pageBytes · drive.geometry.pageBytes drive.geometry.spareSize) h

/-- The marker of a block is read off its first page. -/
theorem isMarked_eq {flash : Flash} {block : Nat}
    (h : flash.content (block * drive.chip.pagesPerBlock) =
      drive.flash.content (block * drive.chip.pagesPerBlock)) :
    (drive.on flash).isMarked block = drive.isMarked block :=
  congrArg (fun page : Bytes => page.getD drive.geometry.pageBytes erasedByte != erasedByte) h

section

variable {flash : Flash} (h : Flash.Mirrors drive.chip.pageCount drive.flash flash)
  (hgenuine : drive.Genuine) (hother : (drive.on flash).Genuine)

include h hgenuine hother

/-- Neither side has damage to report, whether it has a reference or not. -/
theorem perform_readPage {page : Nat} (hpage : page < drive.chip.pageCount) (data spare : Bytes) :
    SameEnd (fun _ => Mirrors) (drive.perform (.readPage page data spare))
      ((drive.on flash).perform (.readPage page data spare)) := by
  have hcontent := h.content_eq page hpage
  rw [hgenuine.perform_undamaged (h.undamaged page hpage) hpage,
    hother.perform_undamaged (h.otherUndamaged page hpage) hpage, spareOf_eq hcontent, on_flash,
    hcontent]
  show SameEnd _ _ (if drive.hang = true then _ else _)
  by_cases hhang : drive.hang = true
  · rw [if_pos hhang, if_pos hhang]
    show SameEnd _ _ (Except.map _ (drive.profile.poll.exhaust .transferIn))
    cases drive.profile.poll.exhaust .transferIn with
    | error defect => exact rfl
    | ok e => exact ⟨rfl, on h⟩
  · rw [if_neg hhang, if_neg hhang]
    exact ⟨rfl, on h⟩

/-- The transfer of a page, and with it the parity, does not depend on the flash. -/
theorem perform_writePage {page : Nat} (hpage : page < drive.chip.pageCount)
    (data spare : Bytes) :
    SameEnd (fun _ => Mirrors) (drive.perform (.writePage page data spare))
      ((drive.on flash).perform (.writePage page data spare)) := by
  rw [hgenuine.perform_writePage hpage, hother.perform_writePage hpage]
  show SameEnd _ _ (drive.transferOut >>= _)
  cases drive.transferOut with
  | error defect => exact rfl
  | ok failure? =>
    cases failure? with
    | some e => exact ⟨rfl, on h⟩
    | none =>
      refine ⟨?_, on (h.program hpage _ _ _)⟩
      rw [on_flash, h.isFailing_eq]
      rfl

/-- An erase comes to the same on both sides. -/
theorem perform_eraseBlock {block : Nat} (hblock : block < drive.chip.blocks) :
    SameEnd (fun _ => Mirrors) (drive.perform (.eraseBlock block))
      ((drive.on flash).perform (.eraseBlock block)) := by
  rw [hgenuine.perform_eraseBlock hblock, hother.perform_eraseBlock hblock, on_flash,
    h.isFailing_eq]
  refine ⟨rfl, on ?_⟩
  split_ifs
  · exact h
  · exact h.erase _ _ _

/-- So does a mark. -/
theorem perform_markBad {block : Nat} (hblock : block < drive.chip.blocks) :
    SameEnd (fun _ => Mirrors) (drive.perform (.markBad block))
      ((drive.on flash).perform (.markBad block)) := by
  rw [hgenuine.perform_markBad hblock, hother.perform_markBad hblock, on_flash, h.isFailing_eq]
  exact ⟨rfl, on (h.mark (hgenuine.first_lt hblock) _)⟩

end

/-- A request that is carried out comes to the same. -/
theorem perform (h : drive.Mirrors other) (hgenuine : drive.Genuine) (hother : other.Genuine)
    {request : Request}
    (hvalid : request.Valid drive.geometry drive.chip.pageCount drive.chip.blocks) :
    SameEnd (fun _ => Mirrors) (drive.perform request) (other.perform request) := by
  obtain ⟨flash, rfl⟩ : ∃ flash, other = drive.on flash := ⟨_, h.eq_on⟩
  have hflash : Flash.Mirrors drive.chip.pageCount drive.flash flash := h.flash
  cases request with
  | readPage page data spare => exact perform_readPage hflash hgenuine hother hvalid.1 data spare
  | writePage page data spare => exact perform_writePage hflash hgenuine hother hvalid.1 data spare
  | readSpare page spare =>
    rw [hgenuine.perform_readSpare hvalid.1, hother.perform_readSpare hvalid.1,
      spareOf_eq (hflash.content_eq page hvalid.1)]
    exact ⟨rfl, h⟩
  | eraseBlock block => exact perform_eraseBlock hflash hgenuine hother hvalid
  | isBad block =>
    rw [hgenuine.perform_isBad hvalid, hother.perform_isBad hvalid,
      isMarked_eq (hflash.content_eq _ (hgenuine.first_lt hvalid))]
    exact ⟨rfl, h⟩
  | markBad block => exact perform_markBad hflash hgenuine hother hvalid
  | readId =>
    rw [hgenuine.perform_readId, hother.perform_readId]
    exact ⟨rfl, h⟩
  | reset => exact ⟨rfl, h⟩

/-- No request tells the two drives apart. -/
theorem serve (h : drive.Mirrors other) (hgenuine : drive.Genuine) (hother : other.Genuine)
    (request : Request) :
    SameEnd (fun _ => Mirrors) (drive.serve request) (other.serve request) := by
  simp only [Drive.serve, h.profile_eq]
  cases hrefusal : request.refusal? drive.profile with
  | error defect => exact rfl
  | ok refusal? =>
    cases refusal? with
    | some e =>
      simp only [h.stats_eq]
      exact ⟨rfl, h⟩
    | none =>
      have hvalid := (Request.refusal?_eq_none_iff hgenuine.counted.pages_eq
        hgenuine.counted.blocks_eq request).1 hrefusal
      refine (h.perform hgenuine hother hvalid).bind fun result next next' hnext => ?_
      refine ⟨?_, hnext⟩
      rw [hnext.stats_eq]

end Mirrors

end Drive

end Sim

open Sim

/-! ## The controller -/

namespace Controller

/-- Two controllers on a chip whose drives mirror each other. -/
structure Mirrors (chip : Chip) (controller other : Controller Device) : Prop where
  steady : controller.Steady
  otherSteady : other.Steady
  chip_eq : controller.drive.chip = chip
  drive : controller.drive.Mirrors other.drive

/-- Nothing that is built on requests tells mirrors on a genuine chip apart. -/
theorem unison_mirrors {chip : Chip} (hchip : chip.Genuine) :
    Unison (β := Device) (γ := Device) (Mirrors chip) where
  profile_eq h := h.drive.profile_eq
  stats_eq h := h.drive.stats_eq
  serve request := by
    refine .of_sameEnd fun controller other h => ?_
    have hgenuine : controller.drive.chip.Genuine := h.chip_eq ▸ hchip
    have hother : other.drive.chip.Genuine := h.drive.chip_eq ▸ hgenuine
    have hend := h.drive.serve (h.steady.genuine hgenuine) (h.otherSteady.genuine hother) request
    refine hend.of_follows (follows_serve h.steady.rests request)
      (follows_serve h.otherSteady.rests request) ?_
    rintro reply drive drive' _ next _ next' hserve hserve' hdrive ⟨rfl, hrests, rfl⟩
      ⟨rfl, hrests', rfl⟩
    have hkeeps := Drive.keeps_of_serve hserve
    exact ⟨rfl, h.steady.of_keeps hrests hkeeps,
      h.otherSteady.of_keeps hrests' (Drive.keeps_of_serve hserve'),
      hkeeps.chip_eq.trans h.chip_eq, hdrive⟩

end Controller

end NandFlash
