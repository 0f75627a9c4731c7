import NandFlash.Proofs.Image.Written

/-!
# How an image arrives

A write asks its source for one block after the other. What it does depends on the pieces that the
source hands out and on how the source comes to its end, and on nothing else: neither the sizes of
the deliveries nor interruptions between them make a difference. A source that breaks has the same
effect on the device as one that ends behind the last whole block, and makes the write fail.
-/

namespace NandFlash

open Sim

/-! ## Sources -/

namespace Source

/-- Two sources that hand out the same bytes, and then both end or both break. -/
structure Alike (source other : Source) : Prop where
  rest_eq : other.rest = source.rest
  ending : source.Lasts ∧ other.Lasts ∨ source.Breaks ∧ other.Breaks

/-- Asked for `want` bytes again and again, a source hands out `bytes` and comes to its end, or
fails. -/
inductive Hands (want : Nat) : Source → Bytes → Except StreamError Unit → Prop
  | stop {source next : Source} {ending : Except StreamError Unit}
    (hfill : source.fill want = (ending.map fun _ => #[], next)) : Hands want source #[] ending
  | more {source next : Source} {bytes : Bytes} {ending : Except StreamError Unit}
    (hfill : source.fill want = (.ok (bytes.extract 0 want), next))
    (hsome : 0 < (bytes.extract 0 want).size)
    (hrest : Hands want next (bytes.extract want) ending) : Hands want source bytes ending

variable {source other : Source} {want : Nat}

/-- Nobody notices anything about a source that is asked for nothing. -/
theorem hands_zero (source : Source) : source.Hands 0 #[] (.ok ()) := by
  have hadvance : advance source.content.size source.breakAt source.plan 0 source.taken =
      ⟨none, source.taken, source.plan⟩ := by rw [advance]
  have hfill : source.fill 0 = (.ok #[], source) := by
    rw [fill, hadvance]
    simp
  exact .stop hfill

/-- A source that lasts hands out what it has, by induction on how much that is. -/
theorem Lasts.hands (h : source.Lasts) (hwant : 0 < want) :
    source.Hands want source.rest (.ok ()) := by
  obtain ⟨size, hsize⟩ : ∃ size, source.rest.size = size := ⟨_, rfl⟩
  induction size using Nat.strong_induction_on generalizing source with
  | _ size ih =>
    obtain ⟨next, hfill, hnext, hrest⟩ := h.fill_eq want
    by_cases hempty : size = 0
    · have hnone : source.rest = #[] := Array.eq_empty_of_size_eq_zero (hsize.trans hempty)
      rw [hnone, Array.extract_empty] at hfill
      rw [hnone]
      exact .stop hfill
    · refine .more hfill ?_ (hrest ▸ ih _ ?_ hnext rfl)
      · rw [Array.size_extract]
        omega
      · rw [hrest, Array.size_extract]
        omega

/-- A source that breaks hands out what it has in whole portions, and fails. -/
theorem Breaks.hands (h : source.Breaks) (hwant : 0 < want) :
    source.Hands want (source.rest.extract 0 (source.rest.size / want * want))
      (.error .broken) := by
  obtain ⟨size, hsize⟩ : ∃ size, source.rest.size = size := ⟨_, rfl⟩
  -- By induction on what is left in the source: it hands out a whole portion, or it breaks.
  induction size using Nat.strong_induction_on generalizing source with
  | _ size ih =>
    obtain ⟨next, hnext, hrest, hfill⟩ := h.fill_eq want
    by_cases hportion : want ≤ source.rest.size
    · rw [if_pos hportion] at hfill
      have hcount : source.rest.size / want = (source.rest.size - want) / want + 1 := by
        rw [← Nat.add_div_right _ hwant, Nat.sub_add_cancel hportion]
      have hle : source.rest.size / want * want ≤ source.rest.size := Nat.div_mul_le_self _ _
      rw [hcount, Nat.succ_mul] at hle ⊢
      have hfirst : (source.rest.extract 0
          ((source.rest.size - want) / want * want + want)).extract 0 want =
            source.rest.extract 0 want := by
        rw [Array.extract_extract, Nat.zero_add, Nat.zero_add, Nat.min_eq_left (by omega)]
      have hsecond : (source.rest.extract 0
          ((source.rest.size - want) / want * want + want)).extract want =
            next.rest.extract 0 (next.rest.size / want * want) := by
        rw [hrest, Array.size_extract, Array.size_extract, Nat.min_self, Nat.min_eq_left hle,
          Array.extract_extract, Array.extract_extract]
        congr 1 <;> omega
      refine .more (hfirst.symm ▸ hfill) ?_ (hsecond ▸ ih _ ?_ hnext rfl)
      · rw [hfirst, Array.size_extract]
        omega
      · rw [hrest, Array.size_extract]
        omega
    · rw [if_neg hportion] at hfill
      rw [Nat.div_eq_of_lt (Nat.lt_of_not_le hportion), Nat.zero_mul, Array.extract_zero]
      exact .stop hfill

theorem hands_ofBytes (hwant : 0 < want) (bytes : Bytes) :
    (ofBytes bytes).Hands want bytes (.ok ()) := by
  have h := (lasts_ofBytes bytes).hands hwant
  rwa [rest_ofBytes] at h

/-- Sources that are alike hand out the same bytes and end in the same way, and there is a source
that hands them out and lasts. -/
theorem Alike.exists_hands (h : source.Alike other) (want : Nat) : ∃ bytes ending, ∃ front : Source,
    source.Hands want bytes ending ∧ other.Hands want bytes ending ∧
      front.Hands want bytes (.ok ()) := by
  rcases Nat.eq_zero_or_pos want with rfl | hwant
  · exact ⟨#[], .ok (), source, hands_zero source, hands_zero other, hands_zero source⟩
  · rcases h.ending with ⟨hlasts, hlasts'⟩ | ⟨hbreaks, hbreaks'⟩
    · exact ⟨_, _, _, hlasts.hands hwant, h.rest_eq ▸ hlasts'.hands hwant, hlasts.hands hwant⟩
    · exact ⟨_, _, _, hbreaks.hands hwant, h.rest_eq ▸ hbreaks'.hands hwant,
        hands_ofBytes hwant _⟩

end Source

namespace Image

/-! ## Two sources beside each other -/

/-- The outcome of a write whose source comes to `ending` behind the last piece. -/
def closedBy (ending : Except StreamError Unit) (outcome : Except Failure WriteSummary) :
    Except Failure WriteSummary := do
  let summary ← outcome
  ending.mapError .stream
  return summary

variable {β : Type} {blockBytes : Nat} {bytes : Bytes} {source front : Source}
  {ending : Except StreamError Unit}

/-- How a run on some source ends beside one on a source that hands out the same and lasts: `whole`
is the end of the latter, which has placed `count` pieces if it has succeeded. -/
structure Closes (ending : Except StreamError Unit) (count : Nat)
    (whole : Except Failure WriteSummary × (Controller β × Source))
    (outcome : Except Failure WriteSummary) (last : Controller β × Source) : Prop where
  outcome_eq : outcome = closedBy ending whole.1
  fst_eq : last.1 = whole.2.1
  counts : ∀ summary, whole.1 = .ok summary →
    summary.written.size + summary.unchanged.size = count

theorem length_pieces_empty : (pieces blockBytes #[]).length = 0 := by
  rw [length_pieces, Array.size_empty]
  rcases Nat.eq_zero_or_pos blockBytes with rfl | hpos
  · exact Nat.div_zero _
  · exact Nat.div_eq_of_lt (by omega)

/-- A piece that is placed well counts, and one that is not still waits. -/
theorem size_add (summary : WriteSummary) (index : Nat) (placement : Placement) (piece : Bytes) :
    (summary.add index placement).written.size + (summary.add index placement).unchanged.size +
        (if placement = .bad then some piece else none).toList.length =
      summary.written.size + summary.unchanged.size + 1 := by
  cases placement <;> simp [WriteSummary.add] <;> omega

theorem run_nextPiece_of_fill {next : Source} {r : Except StreamError Bytes}
    (hfill : source.fill blockBytes = (r, next)) (controller : Controller β) :
    (nextPiece blockBytes).run.run (controller, source) =
      .ok ((r.mapError .stream).map fun portion => if portion.isEmpty then none else
        some (portion ++ Bytes.erased (blockBytes - portion.size)), (controller, next)) := by
  cases r with
  | error e => exact run_attempt_bind_error (run_onStream hfill controller)
  | ok portion =>
    refine run_attempt_step (run_onStream hfill controller) ?_
    show _ = Except.ok (Except.ok (if portion.isEmpty then none else _), _)
    split <;> rfl

/-- Both sources have the same piece to be placed next, or neither has one. -/
theorem cases_upNext (hsource : source.Hands blockBytes bytes ending)
    (hfront : front.Hands blockBytes bytes (.ok ())) (waiting : Option Bytes)
    (controller : Controller β) :
    (∃ piece source' front' bytes',
      (upNext blockBytes waiting).run.run (controller, source) =
        .ok (.ok (some piece), (controller, source')) ∧
      (upNext blockBytes waiting).run.run (controller, front) =
        .ok (.ok (some piece), (controller, front')) ∧
      source'.Hands blockBytes bytes' ending ∧ front'.Hands blockBytes bytes' (.ok ()) ∧
      waiting.toList.length + (pieces blockBytes bytes).length =
        (pieces blockBytes bytes').length + 1) ∨
    ∃ source' front',
      (upNext blockBytes waiting).run.run (controller, source) =
        .ok ((ending.mapError .stream).map fun _ => none, (controller, source')) ∧
      (upNext blockBytes waiting).run.run (controller, front) =
        .ok (.ok none, (controller, front')) ∧
      waiting.toList.length + (pieces blockBytes bytes).length = 0 := by
  -- A piece that waits goes first and leaves both sources alone.
  cases waiting with
  | some piece =>
    exact .inl ⟨piece, source, front, bytes, rfl, rfl, hsource, hfront, Nat.add_comm _ _⟩
  | none =>
    -- Both sources hand out the same bytes, so they come to their ends together.
    cases hsource with
    | @stop _ next _ hfill =>
      obtain ⟨hfill'⟩ | ⟨-, hsome, -⟩ := hfront
      · refine .inr ⟨next, _, ?_, run_nextPiece_of_fill hfill' controller,
          (Nat.zero_add _).trans length_pieces_empty⟩
        rw [upNext, run_nextPiece_of_fill hfill]
        cases ending <;> rfl
      · simp at hsome
    | @more _ next _ _ hfill hsome hrest =>
      obtain ⟨-⟩ | ⟨hfill', -, hrest'⟩ := hfront
      · simp at hsome
      · have hportion : (bytes.extract 0 blockBytes).isEmpty = false :=
          decide_eq_false (Nat.ne_of_gt hsome)
        have hpos : 0 < blockBytes ∧ 0 < bytes.size := by
          rw [Array.size_extract] at hsome
          omega
        refine .inl ⟨bytes.extract 0 blockBytes ++ Bytes.erased (blockBytes -
          (bytes.extract 0 blockBytes).size), next, _, _, ?_, ?_, hrest, hrest', ?_⟩
        · rw [upNext, run_nextPiece_of_fill hfill]
          simp [Except.map, Except.mapError, hportion]
        · rw [upNext, run_nextPiece_of_fill hfill']
          simp [Except.map, Except.mapError, hportion]
        · rw [pieces_cons hpos.1 hpos.2, List.length_cons]
          exact Nat.zero_add _

/-- Behind the last piece the write on the source that lasts has succeeded. -/
theorem follows_end {waiting : Option Bytes} {summary : WriteSummary} {controller : Controller β}
    {source' front' : Source}
    {place : Option Bytes → Attempt Failure (Controller β × Source) WriteSummary}
    (hplace : place none = pure summary)
    (hsource : (upNext blockBytes waiting).run.run (controller, source) =
      .ok ((ending.mapError .stream).map fun _ => none, (controller, source')))
    (hfront : (upNext blockBytes waiting).run.run (controller, front) =
      .ok (.ok none, (controller, front'))) :
    Follows ((upNext blockBytes waiting >>= place).run.run (controller, front))
      (Closes ending (summary.written.size + summary.unchanged.size))
      ((upNext blockBytes waiting >>= place).run.run (controller, source)) := by
  rw [run_attempt_bind hfront, hplace]
  cases ending with
  | ok =>
    rw [run_attempt_bind hsource, hplace]
    exact ⟨rfl, rfl, by rintro _ ⟨⟩; rfl⟩
  | error e =>
    rw [run_attempt_bind_error hsource]
    exact ⟨rfl, rfl, by rintro _ ⟨⟩; rfl⟩

variable [Bus β]

/-- The two writes go on alike until there is nothing left to be placed, by induction on the blocks
that are left. -/
theorem follows_writeFrom (hsource : source.Hands blockBytes bytes ending)
    (hfront : front.Hands blockBytes bytes (.ok ())) (left index : Nat) (waiting : Option Bytes)
    (summary : WriteSummary) (controller : Controller β) :
    Follows ((writeFrom blockBytes left index waiting summary).run.run (controller, front))
      (Closes ending (summary.written.size + summary.unchanged.size +
        (waiting.toList.length + (pieces blockBytes bytes).length)))
      ((writeFrom blockBytes left index waiting summary).run.run (controller, source)) := by
  -- The sources stay in step, and the summary and the pieces to come keep their count.
  induction left generalizing index waiting summary controller source front bytes with
  | zero =>
    rcases cases_upNext hsource hfront waiting controller with
      ⟨piece, source', front', bytes', hrun, hrun', -⟩ | ⟨source', front', hrun, hrun', hcount⟩
    · rw [writeFrom, run_attempt_bind hrun, run_attempt_bind hrun']
      exact ⟨rfl, rfl, by rintro _ ⟨⟩⟩
    · rw [hcount, writeFrom]
      exact follows_end rfl hrun hrun'
  | succ left ih =>
    rcases cases_upNext hsource hfront waiting controller with
      ⟨piece, source', front', bytes', hrun, hrun', hrest, hrest', hcount⟩ |
      ⟨source', front', hrun, hrun', hcount⟩
    · rw [writeFrom, run_attempt_bind hrun, run_attempt_bind hrun']
      -- Both place the same piece, so whatever comes of it comes of it on both sides.
      rcases hplace : (placeAt index piece).run.run controller with defect | ⟨e | placement, next⟩
      · rw [run_attempt_bind_crash (run_tryOnFirst_crash hplace source'),
          run_attempt_bind_crash (run_tryOnFirst_crash hplace front')]
        exact rfl
      · rw [run_attempt_bind_error (run_tryOnFirst hplace source'),
          run_attempt_bind_error (run_tryOnFirst hplace front')]
        exact ⟨rfl, rfl, by rintro _ ⟨⟩⟩
      · rw [run_attempt_bind (run_tryOnFirst hplace source'),
          run_attempt_bind (run_tryOnFirst hplace front')]
        have hsize := size_add summary index placement piece
        have hnext := ih hrest hrest' (index + 1) (if placement = .bad then some piece else none)
          (summary.add index placement) next
        rwa [show (summary.add index placement).written.size +
            (summary.add index placement).unchanged.size +
              ((if placement = .bad then some piece else none).toList.length +
                (pieces blockBytes bytes').length) =
            summary.written.size + summary.unchanged.size +
              (waiting.toList.length + (pieces blockBytes bytes).length) by omega] at hnext
    · rw [hcount, writeFrom]
      exact follows_end rfl hrun hrun'

theorem run_write_of_layout {controller ready : Controller β} {layout : BlockLayout}
    (hlayout : Controller.blockLayout.run controller = .ok (layout, ready))
    (hbytes : layout.blockBytes = .ok blockBytes) (start : Nat) (source : Source) :
    (write start).run.run (controller, source) =
      (writeFrom blockBytes (layout.blocks - start) start none .empty).run.run (ready, source) := by
  unfold write
  rw [run_attempt_bind (run_perform (run_onFirst hlayout source)),
    run_attempt_bind (run_lift hbytes)]

theorem follows_write {controller ready : Controller β} {layout : BlockLayout}
    (hlayout : Controller.blockLayout.run controller = .ok (layout, ready))
    (hbytes : layout.blockBytes = .ok blockBytes)
    (hsource : source.Hands blockBytes bytes ending)
    (hfront : front.Hands blockBytes bytes (.ok ())) (start : Nat) :
    Follows ((write start).run.run (controller, front))
      (Closes ending (pieces blockBytes bytes).length)
      ((write start).run.run (controller, source)) := by
  rw [run_write_of_layout hlayout hbytes, run_write_of_layout hlayout hbytes]
  have hcount : WriteSummary.empty.written.size + WriteSummary.empty.unchanged.size +
      ((none : Option Bytes).toList.length + (pieces blockBytes bytes).length) =
        (pieces blockBytes bytes).length := by simp [WriteSummary.empty]
  rw [← hcount]
  exact follows_writeFrom hsource hfront (layout.blocks - start) start none .empty ready

/-- Writes on sources that are alike both follow one on a source that lasts. -/
theorem sameEnd_write {other : Source} (h : source.Alike other) (start : Nat)
    (controller : Controller β) :
    SameEnd (fun _ last last' => last.1 = last'.1) ((write start).run.run (controller, source))
      ((write start).run.run (controller, other)) := by
  -- A crash on the way to the first byte has nothing to do with the source.
  rcases hlayout : Controller.blockLayout.run controller with defect | ⟨layout, ready⟩
  · have hcrash : ∀ source, (write start).run.run (controller, source) = .error defect :=
      fun source => run_attempt_bind_crash (run_perform_crash (run_onFirst_crash hlayout source))
    rw [hcrash source, hcrash other]
    exact rfl
  · rcases hbytes : layout.blockBytes with defect | blockBytes
    · have hcrash : ∀ source, (write start).run.run (controller, source) = .error defect := by
        intro source
        unfold write
        rw [run_attempt_bind (run_perform (run_onFirst hlayout source)), hbytes]
        rfl
      rw [hcrash source, hcrash other]
      exact rfl
    · obtain ⟨bytes, ending, front, hsource, hother, hfront⟩ := h.exists_hands blockBytes
      refine (follows_write hlayout hbytes hsource hfront start).sameEnd
        (follows_write hlayout hbytes hother hfront start) ?_
      intro whole outcome outcome' last last' hend hend'
      exact ⟨hend.outcome_eq.trans hend'.outcome_eq.symm, hend.fst_eq.trans hend'.fst_eq.symm⟩

/-! ## A source that breaks -/

/-- The front of a source, as far as it goes in whole blocks. -/
def wholeBlocks (blockBytes : Nat) (source : Source) : Bytes :=
  source.rest.extract 0 (source.rest.size / blockBytes * blockBytes)

theorem size_wholeBlocks (blockBytes : Nat) (source : Source) :
    (wholeBlocks blockBytes source).size = source.rest.size / blockBytes * blockBytes := by
  rw [wholeBlocks, Array.size_extract, Nat.min_eq_left (Nat.div_mul_le_self _ _), Nat.sub_zero]

theorem length_pieces_wholeBlocks (hpos : 0 < blockBytes) (source : Source) :
    (pieces blockBytes (wholeBlocks blockBytes source)).length =
      source.rest.size / blockBytes := by
  rw [length_pieces, size_wholeBlocks]
  exact Nat.div_eq_of_lt_le (by omega) (by rw [Nat.succ_mul]; omega)

omit [Bus β] in
theorem closedBy_error (e : StreamError) (summary : WriteSummary) :
    closedBy (.error e) (.ok summary) = .error (.stream e) := rfl

/-- Contents that come first among whole blocks are the image as far as they go. -/
theorem join_of_wholeBlocks (hpos : 0 < blockBytes) {contents rest : List Bytes}
    (h : pieces blockBytes (wholeBlocks blockBytes source) = contents ++ rest) :
    Bytes.join contents = source.rest.extract 0 (contents.length * blockBytes) := by
  have hlength := length_pieces_wholeBlocks hpos source
  rw [h, List.length_append] at hlength
  have hfront : (wholeBlocks blockBytes source).extract 0 (contents.length * blockBytes) =
      source.rest.extract 0 (contents.length * blockBytes) := by
    have hle : contents.length * blockBytes ≤ source.rest.size / blockBytes * blockBytes :=
      Nat.mul_le_mul_right _ (by omega)
    rw [wholeBlocks, Array.extract_extract, Nat.zero_add, Nat.zero_add, Nat.min_eq_left hle]
  rw [← hfront]
  by_cases hnone : rest = []
  · subst hnone
    rw [List.append_nil] at h
    rw [List.length_nil, Nat.add_zero] at hlength
    rw [← h, join_pieces hpos, h, hlength, size_wholeBlocks, Nat.sub_self, ← size_wholeBlocks,
      Array.extract_size]
    simp [Bytes.erased, Bytes.filled]
  · exact join_of_pieces_eq_append hpos h hnone

/-- What a write has done when its source has broken: it fails, and either all whole blocks of the
image have been stored or the device has been filled with the front of them. -/
def BreaksOff (before after : Controller Device) (start : Nat) (image : Bytes) (failure : Failure) :
    Prop :=
  let blocks := before.channel.bus.chip.blocks
  let blockBytes := before.channel.bus.chip.pagesPerBlock * before.profile.geometry.pageBytes
  ∃ stop summary contents, Lies before after start stop summary contents ∧
    Bytes.join contents = image.extract 0 (contents.length * blockBytes) ∧
    (failure = .stream .broken ∧ stop ≤ max start blocks ∧
        contents.length = image.size / blockBytes ∨
      failure = .refused .imageTooLarge ∧ stop = max start blocks ∧
        contents.length < image.size / blockBytes)

variable {controller : Controller Device}

theorem exists_write_of_breaks (h : controller.Steady) (hready : controller.drive.Ready)
    (hbreaks : source.Breaks) (start : Nat) : ∃ failure after source',
      (write start).run.run (controller, source) = .ok (.error failure, (after, source')) ∧
      BreaksOff controller after start source.rest failure := by
  have hpos : 0 < controller.drive.chip.pagesPerBlock * controller.drive.geometry.pageBytes :=
    Nat.mul_pos hready.genuine.counted.pagesPerBlock_pos (Geometry.pageBytes_pos _)
  have hcount := length_pieces_wholeBlocks hpos source
  -- The whole blocks alone make a write that is known.
  obtain ⟨placements, last, rest, after, front', hrun, hmoves, hlays, hlength, hend⟩ :=
    run_write h hready (Source.lasts_ofBytes (wholeBlocks _ source)) start
  have hfollows := follows_write (Controller.run_blockLayout hready.genuine.laid)
    (Controller.blockBytes_eq hready.genuine _ _) (hbreaks.hands hpos)
    (Source.hands_ofBytes hpos (wholeBlocks _ source)) start
  rw [Source.rest_ofBytes] at hlays
  rw [hrun] at hfollows
  obtain ⟨outcome, ⟨after', source'⟩, hrun', houtcome, rfl, -⟩ := hfollows.exists_of_ok
  obtain ⟨contents, hcontents, hlies⟩ := hlays.lies hready hmoves
    (fun _ => size_of_mem_pieces) (fun k hk => by omega)
  have hjoin := join_of_wholeBlocks hpos hcontents
  rw [hcontents, List.length_append] at hcount
  have hstop : start + placements.length ≤ max start controller.drive.chip.blocks := by omega
  by_cases hnone : rest = []
  · rw [if_pos hnone, closedBy_error] at houtcome
    rw [hnone, List.length_nil, Nat.add_zero] at hcount
    subst houtcome
    exact ⟨_, _, _, hrun', _, _, contents, hlies, hjoin, .inl ⟨rfl, hstop, hcount⟩⟩
  · rw [if_neg hnone] at houtcome
    have hpositive := List.length_pos_iff.2 hnone
    have hfull := hend.resolve_left hnone
    subst houtcome
    refine ⟨_, _, _, hrun', _, _, contents, hlies, hjoin, .inr ⟨rfl, ?_, ?_⟩⟩
    · show start + placements.length = max start controller.drive.chip.blocks
      omega
    · exact Nat.lt_of_lt_of_eq (Nat.lt_add_of_pos_right hpositive) hcount

/-! ## Any delivery -/

/-- How an image arrives does not matter. Writes on two sources with the same bytes to come and the
same end give the same answer and leave the same controller and device behind, on every bus and
whatever becomes of its accesses. A source that breaks stands for its whole blocks: up to its
failure the write is the one of these blocks alone, of which it places all and nothing more, and on
a simulated device that is ready it leaves them stored, or the device filled with the front of
them. -/
theorem delivery_does_not_matter {controller : Controller Device} (h : controller.InUse)
    (hchip : controller.channel.bus.chip.Genuine)
    (hraw : controller.profile.geometry.pageBytes + controller.profile.geometry.spareSize ≤
      controller.channel.bus.chip.rawLen)
    (hhang : controller.channel.bus.engine.hang = false)
    (hpoll : controller.profile.poll.Allows 16) (start : Nat) :
    (∀ {γ : Type} [Bus γ] (any : Controller γ) {source other : Source}, source.Alike other →
      SameEnd (fun _ last last' => last.1 = last'.1) ((write start).run.run (any, source))
        ((write start).run.run (any, other))) ∧
    (∀ {γ : Type} [Bus γ] (any ready : Controller γ) (layout : BlockLayout) (blockBytes : Nat)
      {source : Source}, source.Breaks → Controller.blockLayout.run any = .ok (layout, ready) →
      layout.blockBytes = .ok blockBytes → 0 < blockBytes →
      Follows ((write start).run.run (any, .ofBytes (wholeBlocks blockBytes source)))
        (Closes (.error .broken) (source.rest.size / blockBytes))
        ((write start).run.run (any, source))) ∧
    ∀ {source : Source}, source.Breaks → ∃ failure after source',
      (write start).run.run (controller, source) = .ok (.error failure, (after, source')) ∧
      BreaksOff controller after start source.rest failure := by
  have hready : controller.drive.Ready := ⟨h.steady.genuine hchip, hraw, hhang, hpoll⟩
  refine ⟨fun any _ _ halike => sameEnd_write halike start any,
    fun any ready layout blockBytes source hbreaks hlayout hbytes hpos => ?_,
    fun hbreaks => exists_write_of_breaks h.steady hready hbreaks start⟩
  rw [← length_pieces_wholeBlocks hpos source]
  exact follows_write hlayout hbytes (hbreaks.hands hpos) (Source.hands_ofBytes hpos _) start

/-- A source that delivers its three bytes in two calls, with an interruption between them. -/
def haltingSource : Source := ⟨#[0x4E, 0x46, 0x49], 0, [.upTo 2, .interrupted, .upTo 1], none⟩

/-- A source that breaks one byte behind the first block. -/
def brokenSource : Source :=
  ⟨Bytes.filled 131073 0x4E, 0, [.upTo 1000, .interrupted], some 131073⟩

/-- On a fresh chip the halting source does as well as one that delivers all at once, and a block
is stored before the broken source is given up. -/
theorem delivery_does_not_matter_fresh_chip : ∃ controller : Controller Device,
    controller.InUse ∧ controller.channel.bus.chip.Genuine ∧
    controller.profile.geometry.pageBytes + controller.profile.geometry.spareSize ≤
      controller.channel.bus.chip.rawLen ∧
    controller.channel.bus.engine.hang = false ∧ controller.profile.poll.Allows 16 ∧
    haltingSource.Alike (.ofBytes #[0x4E, 0x46, 0x49]) ∧
    SameEnd (fun _ last last' => last.1 = last'.1)
      ((write 5).run.run (controller, haltingSource))
      ((write 5).run.run (controller, .ofBytes #[0x4E, 0x46, 0x49])) ∧
    brokenSource.Breaks ∧ ∃ layout,
      Controller.blockLayout.run controller = .ok (layout, controller) ∧
      layout.blockBytes = .ok 131072 ∧
      Follows ((write 5).run.run (controller, .ofBytes (wholeBlocks 131072 brokenSource)))
        (Closes (.error .broken) (brokenSource.rest.size / 131072))
        ((write 5).run.run (controller, brokenSource)) ∧
      ∃ failure after source',
        (write 5).run.run (controller, brokenSource) = .ok (.error failure, (after, source')) ∧
        BreaksOff controller after 5 brokenSource.rest failure := by
  obtain ⟨controller, hinUse, hchip, hraw, hhang, hpoll, hdrive⟩ := Controller.exists_fresh
  obtain ⟨hsame, hfollows, hbreaks⟩ := delivery_does_not_matter hinUse hchip hraw hhang hpoll 5
  have halike : haltingSource.Alike (.ofBytes #[0x4E, 0x46, 0x49]) := by
    refine ⟨rfl, .inl ⟨⟨by decide, ?_, nofun⟩, Source.lasts_ofBytes _⟩⟩
    intro limit hlimit
    simp [haltingSource] at hlimit
    omega
  have hbroken : brokenSource.Breaks := by
    refine ⟨Nat.zero_le _, ?_, ?_⟩
    · intro limit hlimit
      simp [brokenSource] at hlimit
      omega
    · rw [brokenSource, Bytes.size_filled]
  have hgenuine := hinUse.steady.genuine hchip
  have hlayout := Controller.run_blockLayout hgenuine.laid
  have hbytes := Controller.blockBytes_eq hgenuine controller.drive.chip.blocks
    controller.profile.geometry.spareSize
  rw [show controller.drive.chip.pagesPerBlock * controller.drive.geometry.pageBytes = 131072 by
    rw [hdrive]
    rfl] at hbytes
  exact ⟨controller, hinUse, hchip, hraw, hhang, hpoll, halike, hsame controller halike, hbroken, _,
    hlayout, hbytes, hfollows controller controller _ _ hbroken hlayout hbytes (by decide),
    hbreaks hbroken⟩

end Image

end NandFlash
