import NandFlash.Geometry.Basic
import NandFlash.Geometry.PowerOn
import NandFlash.Geometry.SpareLayout

/-!
# Choosing a geometry

The probed page size has a default strength. The power-on setting may override the strength, the
page size, or both. Everything here is a table, so no hardware is needed to see what will be
chosen.
-/

namespace NandFlash

/-- The asked strength's parity did not fit the probed spare area, and the default was kept. -/
structure EccDoesNotFit where
  requested : Strength
  kept : Strength
  spareSize : Nat
deriving DecidableEq, Repr

/-- The text of the warning. -/
def EccDoesNotFit.message (warning : EccDoesNotFit) : String :=
  "EccDoesNotFit \x7b requested: " ++ warning.requested.name ++ ", kept: " ++ warning.kept.name ++
    ", oob_size: " ++ toString warning.spareSize ++ " \x7d"

/-- A chosen geometry. -/
structure Selection where
  geometry : Geometry
  layout : SpareLayout
  warnings : List EccDoesNotFit
deriving DecidableEq, Repr

namespace Selection

/-- Spare bytes granted beyond the parity when the setting dictates the page size. -/
def overrideSlack : Nat := 8

/-- Dimensions before they are checked against the layout and the window. -/
structure Draft where
  page : PageSize
  spareSize : Nat
  strength : Strength
  warnings : List EccDoesNotFit

/-- The setting dictates the page: the spare size follows from the parity. -/
def draftForPage (probed : Option PageSize) (page : PageSize) (asked : Option Strength) : Draft :=
  let strength := asked.getD (probed.getD page).defaultStrength
  let parity := (parityBudget page strength).getD 0
  ⟨page, parity + overrideSlack, strength, []⟩

/-- The probed page stands: an asked strength is taken only if its parity fits. -/
def draftForProbed (page : PageSize) (spareSize : Nat) (asked : Option Strength) : Draft :=
  let kept := page.defaultStrength
  let strength := asked.getD kept
  let fits := ((parityBudget page strength).bind (SpareLayout.fit? spareSize)).isSome
  if strength != kept && !fits then
    ⟨page, spareSize, kept, [⟨strength, kept, spareSize⟩]⟩
  else
    ⟨page, spareSize, strength, []⟩

/-- The probed page size, if devices with it can be driven. -/
def probedPage? (pageSize : Nat) : Option PageSize :=
  (PageSize.ofBytes? pageSize).filter (·.isSelectable)

/-- The dimensions asked for by the probed device and the power-on setting together. -/
def draft (pageSize spareSize : Nat) (setting : PowerOn) : Except GeometryError Draft :=
  match setting.page?, probedPage? pageSize with
  | some page, probed => .ok (draftForPage probed page setting.strength?)
  | none, some page => .ok (draftForProbed page spareSize setting.strength?)
  | none, none => .error (.unsupportedPage pageSize spareSize)

/-- Check a draft: the parity must fit the spare area and the spare area the window. -/
def ofDraft (d : Draft) : Except GeometryError Selection := do
  let parity := (parityBudget d.page d.strength).getD 0
  let some layout := SpareLayout.fit? d.spareSize parity
    | .error (.spareTooSmall d.spareSize parity)
  if d.spareSize > windowLen then
    .error (.spareTooLarge d.spareSize)
  let geometry ← Geometry.make d.page d.spareSize d.strength
  return ⟨geometry, layout, d.warnings⟩

/-- Settle on a geometry for a probed device. -/
def choose (pageSize spareSize : Nat) (setting : PowerOn) : Except GeometryError Selection := do
  ofDraft (← draft pageSize spareSize setting)

end Selection

end NandFlash
