import NandFlash.Proofs.Image.GivingUp
import NandFlash.Proofs.Sim.Restoring

/-!
# Bad blocks

The block surface as a system that takes call after call: a block is looked up and worked on while
it is on hand, and whole images are written, dumped and scanned in between. Blocks may wear out, and
the engine may hang, at any time. The main statement is that bad blocks stay bad and are left alone
from then on, and that no other block becomes bad unless it is marked.
-/

namespace NandFlash

open Sim

/-! ## Calls -/

/-- A call of the block surface, or a change of the device from outside. -/
inductive Call where
  /-- Look a block up; a good one is on hand from then on. -/
  | lookUp (index : Nat)
  | read (start : Nat) (buffer : Bytes)
  | program (start : Nat) (content : Bytes)
  | erase
  | usedPages
  /-- Mark the block on hand bad, and let go of it. -/
  | markBad
  | badBlocks
  | writeImage (first : Nat) (source : Source)
  | dump (first stop : Nat) (sink : Sink)
  | wearOut (block : Nat)
  | setHang (hang : Bool)

/-- A controller and the block that is on hand, if there is one. -/
structure Desk where
  controller : Controller Device
  onHand : Option Block

namespace Desk

/-- What a call does. A block that is on hand borrows the controller: any call that does not go
through it lets go of it first. -/
inductive Step : Desk → Call → Desk → Prop where
  | lookUp {controller onHand index found? next}
    (hrun : (Controller.block? index).run.run controller = .ok (.ok found?, next)) :
    Step ⟨controller, onHand⟩ (.lookUp index) ⟨next, found?⟩
  | lookUpFailed {controller onHand index failure next}
    (hrun : (Controller.block? index).run.run controller = .ok (.error failure, next)) :
    Step ⟨controller, onHand⟩ (.lookUp index) ⟨next, none⟩
  | read {controller block start buffer result next}
    (hrun : (Block.read block start buffer).run controller = .ok (result, next)) :
    Step ⟨controller, some block⟩ (.read start buffer) ⟨next, some block⟩
  | program {controller block start content r next}
    (hrun : (Block.program block start content).run.run controller = .ok (r, next)) :
    Step ⟨controller, some block⟩ (.program start content) ⟨next, some block⟩
  | erase {controller block r next}
    (hrun : (Block.erase block).run.run controller = .ok (r, next)) :
    Step ⟨controller, some block⟩ .erase ⟨next, some block⟩
  | usedPages {controller block r next}
    (hrun : (Block.usedPages block).run.run controller = .ok (r, next)) :
    Step ⟨controller, some block⟩ .usedPages ⟨next, some block⟩
  | markBad {controller block r next}
    (hrun : (Block.markBad block).run.run controller = .ok (r, next)) :
    Step ⟨controller, some block⟩ .markBad ⟨next, none⟩
  | badBlocks {controller onHand r next}
    (hrun : Image.badBlocks.run.run controller = .ok (r, next)) :
    Step ⟨controller, onHand⟩ .badBlocks ⟨next, none⟩
  | writeImage {controller onHand first source r next rest}
    (hrun : (Image.write first).run.run (controller, source) = .ok (r, (next, rest))) :
    Step ⟨controller, onHand⟩ (.writeImage first source) ⟨next, none⟩
  | dump {controller onHand first stop sink r next rest}
    (hrun : (Image.dump first stop).run.run (controller, sink) = .ok (r, (next, rest))) :
    Step ⟨controller, onHand⟩ (.dump first stop sink) ⟨next, none⟩
  | wearOut {controller onHand reply next block}
    (hrun : (Controller.play (.wearOut block)).run controller = .ok (reply, next)) :
    Step ⟨controller, onHand⟩ (.wearOut block) ⟨next, onHand⟩
  | setHang {controller onHand reply next hang}
    (hrun : (Controller.play (.setHang hang)).run controller = .ok (reply, next)) :
    Step ⟨controller, onHand⟩ (.setHang hang) ⟨next, onHand⟩

/-- One call after the other. -/
inductive Run : Desk → List Call → Desk → Prop where
  | nil {desk} : Run desk [] desk
  | cons {desk call next calls last} (hstep : Step desk call next) (hrest : Run next calls last) :
    Run desk (call :: calls) last

/-- A call marks a block: it is the one on hand and is marked bad, or the write of an image gives
it up after three attempts. -/
def Marks (desk : Desk) (index : Nat) : Call → Prop
  | .markBad => desk.onHand = some ⟨index⟩
  | .writeImage first source =>
    Image.GivesUp (desk.controller.channel.bus.chip.pagesPerBlock *
      desk.controller.profile.geometry.pageBytes) first (desk.controller, source) index
  | .lookUp _ | .read .. | .program .. | .erase | .usedPages | .badBlocks | .dump .. | .wearOut _
  | .setHang _ => False

/-! ## One call -/

/-- The controller is fit, and a block on hand exists and is not marked. -/
structure Sound (desk : Desk) : Prop where
  fit : desk.controller.Fit
  onHand : ∀ block, desk.onHand = some block → block.index < desk.controller.drive.chip.blocks ∧
    desk.controller.drive.isMarked block.index = false

variable {desk next last : Desk} {call : Call} {calls : List Call}

theorem Sound.none {controller : Controller Device} (h : controller.Fit) :
    Sound ⟨controller, none⟩ := ⟨h, fun block hblock => by cases hblock⟩

/-- Work on the block on hand keeps it on hand. -/
theorem Sound.of_works {controller next : Controller Device} {block : Block}
    (h : Sound ⟨controller, some block⟩) (hnext : next.Fit)
    (hworks : controller.drive.Works block.index next.drive) {marks : Nat → Prop} :
    Sound ⟨next, some block⟩ ∧ controller.drive.Spares marks next.drive := by
  obtain ⟨hindex, hunmarked⟩ := h.onHand block rfl
  refine ⟨⟨hnext, ?_⟩, hworks.spares h.fit.genuine hunmarked⟩
  rintro _ ⟨⟩
  exact ⟨hworks.keeps.chip_eq ▸ hindex, hworks.unmarked hunmarked⟩

/-- A change from outside that leaves the pages alone keeps the block on hand. -/
theorem Sound.of_play {controller next : Controller Device} {onHand : Option Block}
    (h : Sound ⟨controller, onHand⟩) {event : Event} {reply : Option Reply}
    (hrun : (Controller.play event).run controller = .ok (reply, next))
    (hcontent : next.drive.flash.content = controller.drive.flash.content) {marks : Nat → Prop} :
    Sound ⟨next, onHand⟩ ∧ controller.drive.Spares marks next.drive := by
  have hfollows := Controller.follows_play h.fit.steady.rests event
  rw [hrun] at hfollows
  obtain ⟨result, hplay, -, hrests, hdrive⟩ := hfollows.exists_of_run
  have hkeeps : controller.drive.Keeps next.drive := hdrive ▸ Drive.keeps_of_play hplay
  have hmarked : next.drive.isMarked = controller.drive.isMarked := by
    funext index
    exact Drive.isMarked_congr hkeeps (congrFun hcontent _)
  refine ⟨⟨h.fit.of_keeps (h.fit.steady.of_keeps hrests hkeeps) hkeeps, ?_⟩, hkeeps, ?_, ?_⟩
  · intro block hblock
    rw [hkeeps.chip_eq, hmarked]
    exact h.onHand block hblock
  · intro block hbad
    exact ⟨hmarked ▸ hbad, fun row _ => congrFun hcontent row⟩
  · intro block hbad
    exact .inl (hmarked ▸ hbad)

/-- Whatever a call does, it leaves marked blocks alone and marks no block but its own. -/
theorem Sound.step (h : desk.Sound) (hstep : Step desk call next) :
    next.Sound ∧ desk.controller.drive.Spares (desk.Marks · call) next.controller.drive := by
  have hfit := h.fit
  cases hstep with
  | lookUp hrun =>
    obtain ⟨hnext, hreads, hgood⟩ := hfit.of_block? hrun
    refine ⟨⟨hnext, ?_⟩, .of_reads hreads⟩
    rintro block hblock
    obtain ⟨rfl, hindex, hunmarked⟩ := hgood block (congrArg Except.ok hblock)
    exact ⟨hreads.chip_eq ▸ hindex, hreads.isMarked_eq ▸ hunmarked⟩
  | lookUpFailed hrun =>
    obtain ⟨hnext, hreads, -⟩ := hfit.of_block? hrun
    exact ⟨.none hnext, .of_reads hreads⟩
  | read hrun =>
    obtain ⟨hnext, hreads⟩ := hfit.reads_read hrun
    exact h.of_works hnext (.of_reads hreads)
  | program hrun =>
    obtain ⟨hnext, hworks⟩ := hfit.works_program hrun
    exact h.of_works hnext hworks
  | erase hrun =>
    obtain ⟨hnext, hworks⟩ := hfit.works_erase hrun
    exact h.of_works hnext hworks
  | usedPages hrun =>
    obtain ⟨hnext, hreads⟩ := hfit.reads_usedPages hrun
    exact h.of_works hnext (.of_reads hreads)
  -- The only call that marks a block: the one it was made on, which is not marked yet.
  | @markBad controller block r next hrun =>
    obtain ⟨hnext, halters⟩ := hfit.alters_blockMarkBad hrun
    have hspares := halters.spares hfit.genuine (h.onHand block rfl).2
    refine ⟨.none hnext, hspares.mono ?_⟩
    rintro index rfl
    exact rfl
  | badBlocks hrun =>
    obtain ⟨hnext, hreads⟩ := Image.reads_badBlocks hfit hrun
    exact ⟨.none hnext, .of_reads hreads⟩
  | writeImage hrun =>
    obtain ⟨hnext, hspares⟩ := Image.spares_write hfit hrun
    exact ⟨.none hnext, hspares⟩
  | dump hrun =>
    obtain ⟨hnext, hreads⟩ := Image.reads_dump hfit hrun
    exact ⟨.none hnext, .of_reads hreads⟩
  | wearOut hrun =>
    refine h.of_play hrun ?_
    cases hrun
    rfl
  | setHang hrun =>
    refine h.of_play hrun ?_
    cases hrun
    rfl

/-! ## A run of calls -/

/-- A call of a run marks a block. -/
def MarksIn (desk : Desk) (calls : List Call) (index : Nat) : Prop :=
  ∃ earlier call later mid, calls = earlier ++ call :: later ∧ Run desk earlier mid ∧
    mid.Marks index call

/-- Runs leave marked blocks alone too, by induction from one call. -/
theorem Sound.run (h : desk.Sound) (hrun : Run desk calls last) :
    last.Sound ∧ desk.controller.drive.Spares (desk.MarksIn calls) last.controller.drive := by
  induction hrun with
  | nil => exact ⟨h, .refl _⟩
  | cons hstep hrest ih =>
    obtain ⟨hnext, hspares⟩ := h.step hstep
    obtain ⟨hlast, hspares'⟩ := ih hnext
    refine ⟨hlast, (hspares.mono ?_).trans (hspares'.mono ?_)⟩
    · intro index hmarks
      exact ⟨[], _, _, _, rfl, .nil, hmarks⟩
    · rintro index ⟨earlier, call, later, mid, rfl, hearlier, hmarks⟩
      exact ⟨_ :: earlier, call, later, mid, rfl, .cons hstep hearlier, hmarks⟩

end Desk

/-! ## The property -/

namespace Controller

/-- A controller that is asked whether a block is bad says so, or says that it is not. -/
def Finds (controller : Controller Device) (index : Nat) (isBad : Bool) : Prop :=
  ∃ next, (Controller.isBad index).run.run controller = .ok (.ok isBad, next)

theorem Fit.finds_iff {controller : Controller Device} (h : controller.Fit) {index : Nat}
    {isBad : Bool} : controller.Finds index isBad ↔
      index < controller.drive.chip.blocks ∧ controller.drive.isMarked index = isBad := by
  by_cases hindex : index < controller.drive.chip.blocks
  · obtain ⟨next, hrun, -, -⟩ := run_isBad h.steady h.genuine hindex
    simp only [Finds, hrun, hindex, true_and]
    constructor
    · rintro ⟨_, ⟨⟩⟩
      rfl
    · rintro rfl
      exact ⟨_, rfl⟩
  · have hrefused : (Controller.isBad index).run.run controller =
        .ok (.error (.outOfRange .block index), controller) :=
      run_attempt_bind_error (run_requireBlock_fail h.genuine.counted.blocks_eq hindex)
    simp only [Finds, hrefused, hindex, false_and, iff_false]
    rintro ⟨_, ⟨⟩⟩

/-- Bad blocks stay bad and untouched, and nothing else becomes bad. On a genuine chip whose pages
have room for the geometry, take any run of calls after a controller has come up, and any further
run. A block that is found bad in between is found bad at the end, and none of its pages has
changed. Marking the block on hand comes to an end, and the block is found bad after it, even if it
fails and the call says so. And a good block is found bad at the end only if a call of the further
run has marked it. -/
theorem bad_blocks_stay_bad {controller : Controller Device} (h : controller.InUse)
    (hchip : controller.channel.bus.chip.Genuine)
    (hraw : controller.profile.geometry.pageBytes + controller.profile.geometry.spareSize ≤
      controller.channel.bus.chip.rawLen)
    {before after : List Call} {desk last : Desk} (hbefore : Desk.Run ⟨controller, none⟩ before desk)
    (hafter : Desk.Run desk after last) :
    (∀ index, desk.controller.Finds index true → last.controller.Finds index true ∧
      ∀ page, page / controller.channel.bus.chip.pagesPerBlock = index →
        last.controller.channel.bus.rawPage page = desk.controller.channel.bus.rawPage page) ∧
    (∀ block, desk.onHand = some block → ∃ next,
      (Block.markBad block).run.run desk.controller =
        .ok (if desk.controller.channel.bus.flash.isFailing block.index
          then .error (.device (.programFailed
            (block.index * controller.channel.bus.chip.pagesPerBlock)))
          else .ok (), next) ∧
      next.Finds block.index true) ∧
    ∀ index, desk.controller.Finds index false → last.controller.Finds index true →
      desk.MarksIn after index := by
  have hstart : Desk.Sound ⟨controller, none⟩ := .none ⟨h.steady, h.steady.genuine hchip, hraw⟩
  obtain ⟨hdesk, hspares⟩ := hstart.run hbefore
  obtain ⟨hlast, hspares'⟩ := hdesk.run hafter
  have hchipEq : desk.controller.drive.chip = controller.drive.chip := hspares.keeps.chip_eq
  -- A search finds what the drive has marked, and calls spare a drive but for the marks they make.
  refine ⟨?_, ?_, ?_⟩
  · intro index hbad
    obtain ⟨hindex, hmarked⟩ := hdesk.fit.finds_iff.1 hbad
    obtain ⟨hstill, hpages⟩ := hspares'.kept index hmarked
    refine ⟨hlast.fit.finds_iff.2 ⟨hspares'.keeps.chip_eq ▸ hindex, hstill⟩, ?_⟩
    rw [hchipEq] at hpages
    exact hpages
  · rintro ⟨index⟩ hblock
    obtain ⟨hindex, -⟩ := hdesk.onHand _ hblock
    obtain ⟨next, hrun, hnext, hchip', hmarked⟩ := hdesk.fit.exists_run_blockMarkBad hindex
    rw [hchipEq] at hrun
    exact ⟨next, hrun, hnext.finds_iff.2 ⟨hchip' ▸ hindex, hmarked⟩⟩
  · intro index hgood hbad
    rcases hspares'.added index (hlast.fit.finds_iff.1 hbad).2 with hmarked | hmarks
    · rw [(hdesk.fit.finds_iff.1 hgood).2] at hmarked
      cases hmarked
    · exact hmarks

/-- Block 5 of a K9F1G08 is looked up, wears out and is marked bad; after that the engine hangs. -/
theorem bad_blocks_stay_bad_worn_block : ∃ controller : Controller Device,
    controller.InUse ∧ controller.channel.bus.chip.Genuine ∧
    controller.profile.geometry.pageBytes + controller.profile.geometry.spareSize ≤
      controller.channel.bus.chip.rawLen ∧
    ∃ worn marked hung, Desk.Run ⟨controller, none⟩ [.lookUp 5, .wearOut 5] ⟨worn, some ⟨5⟩⟩ ∧
      Desk.Run ⟨worn, some ⟨5⟩⟩ [.markBad] ⟨marked, none⟩ ∧
      Desk.Run ⟨marked, none⟩ [.setHang true] ⟨hung, none⟩ ∧
      (Block.markBad ⟨5⟩).run.run worn = .ok (.error (.device (.programFailed 320)), marked) ∧
      worn.Finds 5 false ∧ marked.Finds 5 true ∧ Desk.MarksIn ⟨worn, some ⟨5⟩⟩ [.markBad] 5 ∧
      hung.Finds 5 true ∧
      ∀ page, page / 64 = 5 → hung.channel.bus.rawPage page = marked.channel.bus.rawPage page := by
  obtain ⟨controller, hinUse, hgenuine, hraw, -, -, hdrive⟩ := exists_fresh
  have hchip : controller.channel.bus.chip = Chip.k9f1g08 := congrArg Drive.chip hdrive
  have hfit : controller.Fit := ⟨hinUse.steady, hinUse.steady.genuine hgenuine, hraw⟩
  have hfive : 5 < controller.drive.chip.blocks := by
    rw [hdrive]
    decide
  have hclean : controller.drive.isMarked 5 = false := by
    have hblank : (FlashArray.blank.flash Chip.k9f1g08.rawLen).content (5 * 64) =
        Bytes.erased Chip.k9f1g08.rawLen := FlashArray.content_blank _ (5 * 64)
    rw [hdrive]
    show (((FlashArray.blank.flash Chip.k9f1g08.rawLen).content (5 * 64)).getD 2048 erasedByte !=
      erasedByte) = false
    rw [hblank]
    simp [Bytes.erased, Bytes.filled, Chip.k9f1g08, Chip.rawLen, Array.getD_eq_getD_getElem?]
  -- The block is handed out, and wears out while it is on hand.
  obtain ⟨found, hfound, hsteady, hreads⟩ := run_block? hfit.steady hfit.genuine hfive
  rw [hclean] at hfound
  have hwearOut : found.drive.play (.wearOut 5) =
      .ok (none, found.drive.on (found.drive.flash.wearOut 5)) := rfl
  obtain ⟨worn, hwear, -, hwornDrive⟩ := hsteady.run_play hwearOut
  have hfailing : worn.channel.bus.flash.isFailing 5 = true := by
    show worn.drive.flash.isFailing 5 = true
    rw [hwornDrive]
    exact Function.update_self 5 true found.drive.flash.isFailing
  have hbefore : Desk.Run ⟨controller, none⟩ [.lookUp 5, .wearOut 5] ⟨worn, some ⟨5⟩⟩ :=
    .cons (.lookUp hfound) (.cons (.wearOut hwear) .nil)
  have hdesk := ((Desk.Sound.none hfit).run hbefore).1
  have hgood : worn.Finds 5 false := hdesk.fit.finds_iff.2 (hdesk.onHand ⟨5⟩ rfl)
  obtain ⟨-, hmarkBad, -⟩ := bad_blocks_stay_bad hinUse hgenuine hraw hbefore .nil
  obtain ⟨marked, hmark, hfinds⟩ := hmarkBad ⟨5⟩ rfl
  have hafter : Desk.Run ⟨worn, some ⟨5⟩⟩ [.markBad] ⟨marked, none⟩ := .cons (.markBad hmark) .nil
  obtain ⟨-, -, hmarks⟩ := bad_blocks_stay_bad hinUse hgenuine hraw hbefore hafter
  -- The engine hangs from then on.
  have hboth : Desk.Run ⟨controller, none⟩ [.lookUp 5, .wearOut 5, .markBad] ⟨marked, none⟩ :=
    .cons (.lookUp hfound) (.cons (.wearOut hwear) (.cons (.markBad hmark) .nil))
  obtain ⟨hung, hhang⟩ : ∃ hung, (play (.setHang true)).run marked = .ok (none, hung) := ⟨_, rfl⟩
  have hlast : Desk.Run ⟨marked, none⟩ [.setHang true] ⟨hung, none⟩ := .cons (.setHang hhang) .nil
  obtain ⟨hstays, -, -⟩ := bad_blocks_stay_bad hinUse hgenuine hraw hboth hlast
  obtain ⟨hstill, hpages⟩ := hstays 5 hfinds
  rw [hfailing, if_pos rfl, hchip] at hmark
  rw [hchip] at hpages
  exact ⟨controller, hinUse, hgenuine, hraw, worn, marked, hung, hbefore, hafter, hlast, hmark,
    hgood, hfinds, hmarks 5 hgood hfinds, hstill, hpages⟩

end Controller

end NandFlash
