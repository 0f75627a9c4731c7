import NandFlash.Geometry.Strength

/-!
# Transfer geometry

The page size, spare size and strength that every transfer is performed with. A page is a whole
number of fields; `Geometry` carries that fact, so that no later computation has to ask again.
-/

namespace NandFlash

/-- Bytes of the controller's window on the spare area. -/
def windowLen : Nat := 472

/-- Why no geometry can be settled on. -/
inductive GeometryError where
  /-- The probed page size is not one the selector handles. -/
  | unsupportedPage (pageSize spareSize : Nat)
  /-- A page is not a whole number of fields. -/
  | fieldMismatch (pageSize fieldLen : Nat)
  /-- The spare area cannot hold the parity. -/
  | spareTooSmall (spareSize parity : Nat)
  /-- The spare area does not fit the window. -/
  | spareTooLarge (spareSize : Nat)
deriving DecidableEq, Repr

/-- The text of a geometry error. -/
def GeometryError.message : GeometryError → String
  | unsupportedPage pageSize spareSize =>
    s!"the controller does not support {pageSize}-byte pages (oob {spareSize})"
  | fieldMismatch pageSize fieldLen =>
    s!"{pageSize}-byte pages are not a whole number of {fieldLen}-byte ECC fields"
  | spareTooSmall spareSize parity =>
    s!"{spareSize}-byte OOB cannot hold {parity} parity bytes and the bad block marker"
  | spareTooLarge spareSize =>
    s!"{spareSize}-byte OOB does not fit the {windowLen}-byte redundant area window"

/-- What a transfer is performed with. -/
structure Geometry where
  /-- Size of a page's data area. -/
  page : PageSize
  /-- Spare bytes per page that take part in a transfer. -/
  spareSize : Nat
  /-- Correction strength. -/
  strength : Strength
  /-- A page is a whole number of fields. -/
  whole : page.bytes % strength.codeword.fieldLen = 0
deriving DecidableEq, Repr

namespace Geometry

/-- The geometry with these dimensions, if a page is a whole number of fields. -/
def make (page : PageSize) (spareSize : Nat) (strength : Strength) :
    Except GeometryError Geometry :=
  if whole : page.bytes % strength.codeword.fieldLen = 0 then
    .ok ⟨page, spareSize, strength, whole⟩
  else
    .error (.fieldMismatch page.bytes strength.codeword.fieldLen)

/-- Data bytes of a page. -/
def pageBytes (g : Geometry) : Nat := g.page.bytes

/-- Shape of a field's codeword. -/
def codeword (g : Geometry) : Codeword := g.strength.codeword

/-- Data bytes of a field. -/
def fieldLen (g : Geometry) : Nat := g.codeword.fieldLen

/-- Bytes the engine reserves behind a field's data. -/
def paddingLen (g : Geometry) : Nat := g.codeword.paddingLen

/-- Parity bytes of a field. -/
def parityLen (g : Geometry) : Nat := g.codeword.parityLen

/-- Byte errors of a field that are always repaired. -/
def correctable (g : Geometry) : Nat := g.codeword.correctable

/-- Number of fields of a page. -/
def fieldCount (g : Geometry) : Nat := g.pageBytes / g.fieldLen

/-- Parity bytes of a whole page. -/
def parityBytes (g : Geometry) : Nat := g.parityLen * g.fieldCount

/-- Is the page protected at all? -/
def eccEnabled (g : Geometry) : Bool := g.strength != .none

theorem fieldLen_pos (g : Geometry) : 0 < g.fieldLen := g.strength.fieldLen_pos

/-- The fields tile the page. -/
theorem fieldLen_mul_fieldCount (g : Geometry) : g.fieldLen * g.fieldCount = g.pageBytes :=
  Nat.mul_div_cancel' (Nat.dvd_of_mod_eq_zero g.whole)

/-- The table of parity costs agrees with the codeword shapes. -/
theorem parityBudget_eq (g : Geometry) (h : g.page.isSelectable) :
    parityBudget g.page g.strength = some g.parityBytes :=
  parityBudget_of_isSelectable g.page g.strength h

end Geometry

end NandFlash
