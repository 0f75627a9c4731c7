import NandFlash.Proofs.Image.Writing

/-!
# Writing an image again

A write that has gone through can be repeated at no cost: every block that was passed over or given
up is marked by now, and every other block is found to hold its piece. So the second walk over the
blocks goes the way of the first one, and changes nothing.
-/

namespace NandFlash

open Sim

namespace Placement

/-- How a block takes its piece again. -/
def again : Placement → Placement
  | .written | .unchanged => .unchanged
  | .bad => .bad

theorem again_eq_bad_iff {placement : Placement} : placement.again = .bad ↔ placement = .bad := by
  cases placement <;> decide

theorem blocks_map (accepts : Placement → Bool) (f : Placement → Placement) (index : Nat)
    (placements : List Placement) :
    blocks accepts index (placements.map f) = blocks (accepts ∘ f) index placements := by
  induction placements generalizing index with
  | nil => rfl
  | cons placement placements ih => simp only [List.map_cons, blocks, ih, Function.comp]

theorem blocks_none (index : Nat) (placements : List Placement) :
    blocks (fun _ => false) index placements = [] := by
  induction placements generalizing index with
  | nil => rfl
  | cons placement placements ih => exact ih (index + 1)

end Placement

namespace Image

variable {drive : Drive} {controller : Controller Device} {index start : Nat} {flash last : Flash}
  {todo rest : List Bytes} {placements : List Placement}

/-- A walk over the blocks does not depend on the statistics. -/
theorem Lays.of_reads {next : Drive} (hreads : ∀ flash, (drive.on flash).Reads (next.on flash))
    (h : Lays next index flash todo placements last rest) :
    Lays drive index flash todo placements last rest := by
  induction h with
  | stop => exact .stop _ _ _
  | step htakes _ ih => exact .step ((hreads _).takes htakes) ih

/-- The second walk goes the way of the first, by induction on the first. -/
theorem Lays.again (h : Lays drive index flash todo placements last [])
    (hready : (drive.on flash).Ready) {placements' : List Placement} {last' : Flash}
    (h' : Lays drive index last todo placements' last' rest)
    (hend : rest = [] ∨ placements.length ≤ placements'.length) :
    placements' = placements.map Placement.again ∧ last' = last ∧ rest = [] := by
  generalize hnone : ([] : List Bytes) = waiting at h
  induction h generalizing placements' with
  | stop =>
    subst hnone
    cases h'
    exact ⟨rfl, rfl, rfl⟩
  | @step index flash mid last piece pieces waiting placement placements htakes hrest ih =>
    -- What the first walk has made of this block is still there when the walk is over.
    have hfirst := Lays.settles_first htakes hready hrest
    cases h' with
    | stop => simp at hend
    | @step _ _ mid' _ _ _ _ placement' placements' htakes' hrest' =>
      have hagain : placement' = placement.again ∧ mid' = last := by
        -- A bad block is marked, and any other holds its piece: there is nothing left to do.
        by_cases hbad : placement = .bad
        · subst hbad
          exact htakes'.eq_of_isMarked hfirst
        · rw [if_neg hbad] at hfirst
          obtain ⟨hplacement, hmid⟩ := htakes'.eq_of_holds hfirst.1 hfirst.2
          refine ⟨hplacement.trans ?_, hmid⟩
          cases placement <;> first | rfl | exact absurd rfl hbad
      obtain ⟨rfl, rfl⟩ := hagain
      simp only [Placement.again_eq_bad_iff] at hrest'
      obtain ⟨hplacements, hlast, hrest⟩ := ih (htakes.ready hready) hrest'
        (hend.imp_right Nat.le_of_succ_le_succ) hnone
      exact ⟨congrArg (List.cons _) hplacements, hlast, hrest⟩

/-- An image that has been written is written again: no block is rewritten, those that hold the
image are found unchanged, the bad ones are passed over, and the flash stays as it is. -/
theorem write_idempotent (h : controller.InUse) (hchip : controller.channel.bus.chip.Genuine)
    (hraw : controller.profile.geometry.pageBytes + controller.profile.geometry.spareSize ≤
      controller.channel.bus.chip.rawLen)
    (hhang : controller.channel.bus.engine.hang = false)
    (hpoll : controller.profile.poll.Allows 16) {source again : Source} (hlasts : source.Lasts)
    (hagain : again.Lasts) (hsame : again.rest = source.rest) {start : Nat} {first : WriteSummary}
    {after : Controller Device} {source' : Source}
    (hwrite : (write start).run.run (controller, source) = .ok (.ok first, (after, source'))) :
    ∃ second final again',
      (write start).run.run (after, again) = .ok (.ok second, (final, again')) ∧
      second.written = #[] ∧
      second.unchanged.toList = first.written.toList.merge first.unchanged.toList ∧
      second.bad = first.bad ∧
      ∀ page, final.channel.bus.rawPage page = after.channel.bus.rawPage page := by
  have hready : controller.drive.Ready := ⟨h.steady.genuine hchip, hraw, hhang, hpoll⟩
  obtain ⟨placements, last, rfl, hmoves, hlays, hlength⟩ :=
    exists_lays_of_write h.steady hready hlasts hwrite
  -- The second write sets out from where the first one has come to.
  obtain ⟨placements', last', rest', final, again', hrun', hmoves', hlays', -, hend'⟩ :=
    run_write hmoves.steady (hmoves.ready hready) hagain start
  have hchip' : after.drive.chip = controller.drive.chip := hmoves.reads.chip_eq
  have hgeometry : after.drive.geometry = controller.drive.geometry :=
    congrArg Profile.geometry hmoves.reads.profile_eq
  have hflash : after.drive.flash = last := hmoves.reads.flash_eq
  have hflash' : final.drive.flash = last' := hmoves'.reads.flash_eq
  rw [hchip', hgeometry, hflash, hsame] at hlays'
  rw [hchip'] at hend'
  have hroom : rest' = [] ∨ placements.length ≤ placements'.length :=
    hend'.imp_right fun hcount => by rw [hcount]; exact hlength
  obtain ⟨rfl, rfl, rfl⟩ := hlays.again hready
    (hlays'.of_reads fun flash => hmoves.reads.on flash) hroom
  have hkinds := WriteSummary.of_addAll_empty start (placements.map Placement.again)
  simp only [Placement.blocks_map] at hkinds
  refine ⟨_, final, again', hrun', ?_, ?_, ?_, fun page => ?_⟩
  · -- No block is rewritten.
    refine (hkinds .written).trans ?_
    rw [show (· == Placement.written) ∘ Placement.again = fun _ => false from
      funext fun placement => by cases placement <;> rfl, Placement.blocks_none]
  · refine (congrArg Array.toList (hkinds .unchanged)).trans ?_
    rw [show (· == Placement.unchanged) ∘ Placement.again = (· != .bad) from
      funext fun placement => by cases placement <;> rfl]
    exact (WriteSummary.holders_addAll start placements).symm
  · refine (hkinds .bad).trans ?_
    rw [show (· == Placement.bad) ∘ Placement.again = (· == .bad) from
      funext fun placement => by cases placement <;> rfl]
    exact (WriteSummary.of_addAll_empty start placements .bad).symm
  · show final.drive.flash.content page = after.drive.flash.content page
    rw [hflash, hflash']

/-- Three bytes are written twice past a marked block and one that fails. The second write passes
both of them over, and finds the bytes in the block behind them. -/
theorem write_idempotent_worn_block : ∃ controller : Controller Device,
    controller.InUse ∧ controller.channel.bus.chip.Genuine ∧
    controller.profile.geometry.pageBytes + controller.profile.geometry.spareSize ≤
      controller.channel.bus.chip.rawLen ∧
    controller.channel.bus.engine.hang = false ∧ controller.profile.poll.Allows 16 ∧
    let source := Source.ofBytes #[0x4E, 0x46, 0x49]
    source.Lasts ∧ ∃ after source',
      (write 5).run.run (controller, source) = .ok (.ok ⟨#[7], #[], #[5, 6]⟩, (after, source')) ∧
      ∃ final again',
        (write 5).run.run (after, source) = .ok (.ok ⟨#[], #[7], #[5, 6]⟩, (final, again')) ∧
        ∀ page, final.channel.bus.rawPage page = after.channel.bus.rawPage page := by
  obtain ⟨controller, hinUse, hgenuine, hraw, hhang, hpoll, after, source', hwrite⟩ := exists_write
  have hlasts := Source.lasts_ofBytes #[0x4E, 0x46, 0x49]
  obtain ⟨⟨written, unchanged, bad⟩, final, again', hrun, hwritten, hunchanged, hbad, hpages⟩ :=
    write_idempotent hinUse hgenuine hraw hhang hpoll hlasts hlasts rfl hwrite
  obtain rfl : written = #[] := hwritten
  obtain rfl : unchanged = #[7] := Array.toList_inj.1 (hunchanged.trans (by simp))
  obtain rfl : bad = #[5, 6] := hbad
  exact ⟨controller, hinUse, hgenuine, hraw, hhang, hpoll, hlasts, after, source', hwrite, final,
    again', hrun, hpages⟩

end Image

end NandFlash
