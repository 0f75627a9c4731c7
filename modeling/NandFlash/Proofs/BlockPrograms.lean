import NandFlash.Proofs.BadBlocks
import NandFlash.Proofs.Sim.UsedPages

/-!
# Programming part of a block

Content for some fresh pages of a block goes to the pages one piece each, but pieces that are
erased are passed over. On a sound block nobody can tell: a read gives the content back, and a count
of used pages grows by the pieces that are not erased. On a failing block the program ends at the
first page that it writes to.
-/

namespace NandFlash

open Sim

/-! ## What a client sees -/

namespace Controller

variable {controller : Controller Device}

/-- A count of the used pages of a block goes through, and answers so many. -/
def Counts (controller : Controller Device) (block : Block) (used : Nat) : Prop :=
  ∃ next, block.usedPages.run.run controller = .ok (.ok used, next)

/-- A page of the array is as it was, and so is what the ECC engine holds for it. -/
def KeepsPage (before after : Controller Device) (page : Nat) : Prop :=
  after.channel.bus.rawPage page = before.channel.bus.rawPage page ∧
    after.channel.bus.flash.reference page = before.channel.bus.flash.reference page

/-- A page is erased, spare area and all, and the ECC engine holds nothing for it. -/
def IsFresh (controller : Controller Device) (page : Nat) : Prop :=
  controller.channel.bus.rawPage page = Bytes.erased controller.channel.bus.chip.rawLen ∧
    controller.channel.bus.flash.reference page = none

theorem counts_iff (h : controller.Steady) (hable : controller.drive.Able) {index used : Nat}
    (hindex : index < controller.drive.chip.blocks) : controller.Counts ⟨index⟩ used ↔
      controller.drive.used (List.range' (index * controller.drive.chip.pagesPerBlock)
        controller.drive.chip.pagesPerBlock) = .ok used := by
  obtain ⟨next, hrun, -, -⟩ := run_usedPages h hable hindex
  rw [Counts, hrun]
  constructor
  · rintro ⟨last, heq⟩
    exact congrArg Prod.fst (Except.ok.inj heq)
  · intro heq
    exact ⟨next, by rw [heq]⟩

end Controller

namespace Block

/-- Number of page `k` of a block among all pages of a chip. -/
def pageAt (block : Block) (chip : Chip) (k : Nat) : Nat := block.index * chip.pagesPerBlock + k

variable (before : Controller Device) (block : Block) (start count : Nat) (content : Bytes)
  (after : Controller Device)

/-- What a program of some content, of so many pages, has come to when it goes through. -/
structure Programmed : Prop where
  /-- A read of the same pages gives the content back. -/
  reads_back : ∀ buffer : Bytes, buffer.size = content.size → ∃ next,
    (block.read start buffer).run after = .ok ((.ok (), content), next)
  /-- Pages with an erased piece are passed over. -/
  isFresh : ∀ i < count, (content.piece before.profile.geometry.pageBytes i).isErased →
    after.IsFresh (block.pageAt before.channel.bus.chip (start + i))
  keeps : ∀ page, (∀ i < count, page ≠ block.pageAt before.channel.bus.chip (start + i)) →
    before.KeepsPage after page
  /-- The pieces that are not erased count as used pages. -/
  counts : ∀ used, before.Counts block used →
    after.Counts block (used + (List.range count).countP fun i =>
      !(content.piece before.profile.geometry.pageBytes i).isErased)

/-- What a program has come to that ends at page `page`, with piece `i` of the content. -/
structure Stopped (failure : Failure) (i page : Nat) : Prop where
  page_eq : page = block.pageAt before.channel.bus.chip (start + i)
  failure_eq : failure = .programming page (.programFailed page)
  isFailing : before.channel.bus.flash.isFailing block.index = true
  lt : i < count
  /-- It is the first piece that is not erased. -/
  isErased_eq : (content.piece before.profile.geometry.pageBytes i).isErased = false
  isErased_of_lt : ∀ k < i, (content.piece before.profile.geometry.pageBytes k).isErased
  keeps : ∀ other ≠ page, before.KeepsPage after other

variable {before block start count content after}

open Controller

section

variable (hsteady : before.Steady) (hable : before.drive.Able) {index first : Nat}
  (hindex : index < before.drive.chip.blocks)
  (hstop : start + count ≤ before.drive.chip.pagesPerBlock)
  (hfirst : first = index * before.drive.chip.pagesPerBlock + start)
  (hfresh : before.drive.Fresh first count) {flash : Flash} (hmoves : before.Moves flash after)

include hmoves

theorem keepsPage_of_moves {page : Nat} (hkeeps : before.drive.KeepsPage page flash) :
    before.KeepsPage after page := by
  have hflash : after.drive.flash = flash := hmoves.reads.flash_eq
  exact ⟨(congrArg (Flash.content · page) hflash).trans hkeeps.1,
    (congrArg (Flash.reference · page) hflash).trans hkeeps.2⟩

include hable hindex hstop hfirst

variable (hfills : before.drive.Fills first count content flash)

include hfills

theorem run_read_of_fills (hsize : content.size = count * before.drive.geometry.pageBytes)
    {buffer : Bytes} (hbuffer : buffer.size = content.size) :
    ∃ next, (read ⟨index⟩ start buffer).run after = .ok ((.ok (), content), next) := by
  have hchip : after.drive.chip = before.drive.chip := hmoves.reads.chip_eq
  have hgeometry : after.drive.geometry = before.drive.geometry :=
    congrArg Profile.geometry hmoves.reads.profile_eq
  have hread := follows_readFrom hmoves.steady (hmoves.able hable).genuine (hchip ▸ hindex)
    (hchip ▸ hstop) (hgeometry ▸ hbuffer.trans hsize)
  rw [hmoves.reads.readInto_eq, hchip, ← hfirst,
    (hmoves.able_on hable).readInto_of_stores hsize hbuffer hfills.stores] at hread
  obtain ⟨_, next, hrun, rfl, -, -⟩ := hread.exists_of_ok
  exact ⟨next, hrun⟩

include hsteady hfresh

/-- The pages of the block before and behind the range count as they did. -/
theorem counts_of_fills {used : Nat} (hused : before.Counts ⟨index⟩ used) :
    after.Counts ⟨index⟩ (used + (List.range count).countP fun i =>
      !(content.piece before.drive.geometry.pageBytes i).isErased) := by
  have hchip : after.drive.chip = before.drive.chip := hmoves.reads.chip_eq
  rw [counts_iff hsteady hable hindex] at hused
  rw [counts_iff hmoves.steady (hmoves.able hable) (hchip ▸ hindex), hmoves.reads.used_eq, hchip]
  obtain ⟨behind, hbehind⟩ : ∃ behind,
      before.drive.chip.pagesPerBlock = start + (count + behind) :=
    ⟨before.drive.chip.pagesPerBlock - (start + count), by omega⟩
  -- The block splits into the range and what lies before and behind it; only the middle differs.
  have hsplit : List.range' (index * before.drive.chip.pagesPerBlock)
      before.drive.chip.pagesPerBlock =
      List.range' (index * before.drive.chip.pagesPerBlock) start ++
        (List.range' first count ++ List.range' (first + count) behind) := by
    rw [List.range'_append_1, hfirst, List.range'_append_1, ← hbehind]
  have hkept : ∀ pages : List Nat, (∀ page ∈ pages, page < first ∨ first + count ≤ page) →
      (before.drive.on flash).used pages = before.drive.used pages := by
    intro pages hpages
    have hprofile : (before.drive.on flash).profile = before.drive.profile := rfl
    refine Drive.used_congr hprofile fun page hpage => hfills.keeps page fun i hi _ => ?_
    have := hpages page hpage
    omega
  rw [hsplit] at hused ⊢
  refine Drive.used_grow (hkept _ fun page hpage => ?_) (hkept _ fun page hpage => ?_)
    (hfresh.used_eq hable) (hfills.used_eq (hmoves.able_on hable)) hused
  all_goals
    have := List.mem_range'_1.1 hpage
    omega

theorem programmed_of_fills (hsize : content.size = count * before.drive.geometry.pageBytes) :
    Programmed before ⟨index⟩ start count content after := by
  have hpageAt : ∀ i, pageAt ⟨index⟩ before.channel.bus.chip (start + i) = first + i := by
    intro i
    rw [hfirst, Nat.add_assoc]
    rfl
  refine ⟨fun buffer hbuffer => ?_, fun i hi hblank => ?_, fun page hpage => ?_,
    fun used hused => ?_⟩
  · exact run_read_of_fills hable hindex hstop hfirst hmoves hfills hsize hbuffer
  · obtain ⟨hcontent, hreference⟩ :=
      keepsPage_of_moves hmoves (hfills.keeps (first + i) fun k _ hfilled heq => by
        rw [← Nat.add_left_cancel heq] at hfilled
        exact Bool.false_ne_true (hfilled.symm.trans hblank))
    have hchip : after.channel.bus.chip = before.channel.bus.chip := hmoves.reads.chip_eq
    rw [hpageAt, IsFresh, hchip]
    exact ⟨hcontent.trans (hfresh i hi).1, hreference.trans (hfresh i hi).2⟩
  · exact keepsPage_of_moves hmoves (hfills.keeps page fun i hi _ => hpageAt i ▸ hpage i hi)
  · exact counts_of_fills hsteady hable hindex hstop hfirst hfresh hmoves hfills hused

end

/-- A program of fresh pages of a block ends in one of the two ways. -/
theorem run_program_cases {index first : Nat} (hsteady : before.Steady) (hable : before.drive.Able)
    (hindex : index < before.drive.chip.blocks)
    (hstop : start + count ≤ before.drive.chip.pagesPerBlock)
    (hsize : content.size = count * before.drive.geometry.pageBytes)
    (hfirst : first = index * before.drive.chip.pagesPerBlock + start)
    (hfresh : before.drive.Fresh first count) :
    ∃ outcome next, (program ⟨index⟩ start content).run.run before = .ok (outcome, next) ∧
      match outcome with
      | .ok () => Programmed before ⟨index⟩ start count content next
      | .error failure =>
        ∃ i page, Stopped before ⟨index⟩ start count content next failure i page := by
  -- A failing block shows only if a page is written to.
  by_cases hquiet : before.drive.flash.isFailing index = true →
      toWrite before.profile.geometry first count content = []
  · obtain ⟨next, flash, hrun, hmoves, hfills⟩ :=
      run_program_of_sound hsteady hable hindex hstop hsize hfirst hfresh hquiet
    exact ⟨.ok (), next, hrun,
      programmed_of_fills hsteady hable hindex hstop hfirst hfresh hmoves hfills hsize⟩
  · rw [Classical.not_imp] at hquiet
    obtain ⟨hfailing, hwrites⟩ := hquiet
    obtain ⟨entry, rest, hwrite⟩ := List.exists_cons_of_ne_nil hwrites
    obtain ⟨next, flash, hrun, hmoves, hpage, hbreaks⟩ :=
      run_program_of_failing hsteady hable hindex hstop hsize hfirst hfresh hwrite hfailing
    refine ⟨_, next, hrun, entry.2, entry.1, ?_, rfl, hfailing, hbreaks.lt, hbreaks.isErased_eq,
      hbreaks.isErased_of_lt, ?_⟩
    · rw [hpage, hfirst, Nat.add_assoc]
      rfl
    · exact fun other hother => keepsPage_of_moves hmoves (hbreaks.keeps other (hpage ▸ hother))

/-! ## The property -/

/-- Of two pages, of which the second is erased, one counts. -/
theorem countP_two_pieces {data blank : Bytes} {length : Nat} (hdata : data.size = length)
    (hblank : blank.size = length) (hfilled : data.isErased = false) (herased : blank.isErased) :
    (List.range 2).countP (fun i => !((Bytes.join [data, blank]).piece length i).isErased) = 1 := by
  have hpieces : ∀ piece ∈ [data, blank], piece.size = length := by simp [hdata, hblank]
  have hcount := congrArg (List.countP fun piece => !piece.isErased) (Bytes.pieces_join hpieces)
  rw [List.countP_map] at hcount
  refine hcount.trans ?_
  rw [List.countP_cons, List.countP_singleton, hfilled, herased]
  rfl

/-- A program of part of a block agrees with reads page by page. On a genuine chip whose pages have
room for the geometry, take any run of calls after a controller has come up, with a block on hand at
its end and an engine that does not hang then. Content of some whole pages that end within the block
is programmed into pages that are fresh. If this goes through, a read of the same pages gives the
content back, pages whose piece is erased are erased still, no other page has changed, and the count
of used pages, if it went through before, goes through and has grown by the pieces that are not
erased. It fails only if the block is failing and some piece is not erased; then the error names
the page of the first such piece, and no other page has changed. -/
theorem program_reads_back {controller : Controller Device} (h : controller.InUse)
    (hchip : controller.channel.bus.chip.Genuine)
    (hraw : controller.profile.geometry.pageBytes + controller.profile.geometry.spareSize ≤
      controller.channel.bus.chip.rawLen)
    {calls : List Call} {ready : Controller Device} {block : Block}
    (hcalls : Desk.Run ⟨controller, none⟩ calls ⟨ready, some block⟩)
    (hhang : ready.channel.bus.engine.hang = false) {start count : Nat} {content : Bytes}
    (hsize : content.size = count * ready.profile.geometry.pageBytes)
    (hstop : start + count ≤ ready.channel.bus.chip.pagesPerBlock)
    (hfresh : ∀ i < count, ready.IsFresh (block.pageAt ready.channel.bus.chip (start + i))) :
    ∃ outcome next, (block.program start content).run.run ready = .ok (outcome, next) ∧
      match outcome with
      | .ok () => Programmed ready block start count content next
      | .error failure =>
        ∃ i page, Stopped ready block start count content next failure i page := by
  have hstart : Desk.Sound ⟨controller, none⟩ := .none ⟨h.steady, h.steady.genuine hchip, hraw⟩
  obtain ⟨hdesk, -⟩ := hstart.run hcalls
  obtain ⟨hindex, -⟩ := hdesk.onHand block rfl
  have hable : ready.drive.Able := ⟨hdesk.fit.genuine, hdesk.fit.fitsRaw, hhang⟩
  refine run_program_cases hdesk.fit.steady hable hindex hstop hsize rfl fun i hi => ?_
  rw [Nat.add_assoc]
  exact hfresh i hi

/-- Two pages, of which the second is erased, go to block 5 of a K9F1G08. -/
theorem program_reads_back_blank_page : ∃ controller ready next : Controller Device,
    controller.InUse ∧ controller.channel.bus.chip.Genuine ∧
    controller.profile.geometry.pageBytes + controller.profile.geometry.spareSize ≤
      controller.channel.bus.chip.rawLen ∧
    Desk.Run ⟨controller, none⟩ [.lookUp 5] ⟨ready, some ⟨5⟩⟩ ∧
    ready.channel.bus.engine.hang = false ∧
    (Bytes.join [Bytes.filled 2048 0, Bytes.erased 2048]).size =
      2 * ready.profile.geometry.pageBytes ∧
    1 + 2 ≤ ready.channel.bus.chip.pagesPerBlock ∧
    (∀ i < 2, ready.IsFresh (pageAt ⟨5⟩ ready.channel.bus.chip (1 + i))) ∧
    (program ⟨5⟩ 1 (Bytes.join [Bytes.filled 2048 0, Bytes.erased 2048])).run.run ready =
      .ok (.ok (), next) ∧
    Programmed ready ⟨5⟩ 1 2 (Bytes.join [Bytes.filled 2048 0, Bytes.erased 2048]) next ∧
    ready.Counts ⟨5⟩ 0 ∧ next.Counts ⟨5⟩ 1 := by
  obtain ⟨controller, ready, hinUse, hgenuine, hraw, hdrive, hfound, hready, hsame⟩ :=
    exists_fresh_block (show 5 < 1024 by decide)
  rw [hdrive] at hsame
  have hcalls : Desk.Run ⟨controller, none⟩ [.lookUp 5] ⟨ready, some ⟨5⟩⟩ :=
    .cons (.lookUp hfound) .nil
  have hchip : ready.channel.bus.chip = Chip.k9f1g08 := congrArg Drive.chip hsame
  have hprofile : ready.profile = smallProfile ⟨some 20⟩ := congrArg Drive.profile hsame
  have hhang : ready.channel.bus.engine.hang = false := congrArg Drive.hang hsame
  have hflash : ready.channel.bus.flash = FlashArray.blank.flash Chip.k9f1g08.rawLen :=
    congrArg Drive.flash hsame
  have hfresh : ∀ page, ready.IsFresh page := by
    intro page
    have hcontent : ready.channel.bus.flash.content page = Bytes.erased Chip.k9f1g08.rawLen := by
      rw [hflash]
      exact FlashArray.content_blank _ page
    refine ⟨hchip ▸ hcontent, ?_⟩
    rw [hflash]
    rfl
  have hpageBytes : ready.profile.geometry.pageBytes = 2048 := by
    rw [hprofile]
    rfl
  have hpieces : ∀ piece ∈ [Bytes.filled 2048 0, Bytes.erased 2048], piece.size = 2048 := by simp
  have hsize : (Bytes.join [Bytes.filled 2048 0, Bytes.erased 2048]).size =
      2 * ready.profile.geometry.pageBytes := by
    rw [hpageBytes]
    exact Bytes.size_join hpieces
  have hstop : 1 + 2 ≤ ready.channel.bus.chip.pagesPerBlock := by
    rw [hchip]
    decide
  have hable : ready.drive.Able := by
    have hgenuine' : ready.channel.bus.chip.Genuine := hchip ▸ Chip.genuine_k9f1g08
    refine ⟨hready.genuine hgenuine', ?_, hhang⟩
    show ready.profile.geometry.pageBytes + ready.profile.geometry.spareSize ≤
      ready.channel.bus.chip.rawLen
    rw [hprofile, hchip]
    decide
  have hfive : 5 < ready.channel.bus.chip.blocks := by
    rw [hchip]
    decide
  have hnone : ready.Counts ⟨5⟩ 0 :=
    (counts_iff hready hable hfive).2 (Drive.Fresh.used_eq (fun i _ => hfresh _) hable)
  obtain ⟨outcome, next, hrun, houtcome⟩ := program_reads_back hinUse hgenuine hraw hcalls hhang
    hsize hstop fun i _ => hfresh _
  cases outcome with
  | error failure =>
    obtain ⟨i, page, hstopped⟩ := houtcome
    have hworn := hstopped.isFailing
    rw [hflash] at hworn
    cases hworn
  | ok =>
    have hzeros : (Bytes.filled 2048 0).isErased = false :=
      Bool.eq_false_iff.2 fun herased => by
        have := Bytes.isErased_iff.1 herased 0 (by simp)
        simp [Bytes.filled, erasedByte] at this
    have hcounts := houtcome.counts 0 hnone
    rw [hpageBytes, countP_two_pieces (Bytes.size_filled 2048 0) (Bytes.size_erased 2048) hzeros
      (Bytes.isErased_erased 2048)] at hcounts
    exact ⟨controller, ready, next, hinUse, hgenuine, hraw, hcalls, hhang, hsize, hstop,
      fun i _ => hfresh _, hrun, houtcome, hnone, hcounts⟩

end Block

end NandFlash
