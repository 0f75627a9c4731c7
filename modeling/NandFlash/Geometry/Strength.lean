/-!
# Correction strengths and page sizes

The ECC engine knows three BCH strengths and four page sizes. A page is cut into fields, each
protected by a codeword of its own; the strength fixes the codeword's shape, and a table fixes
how many parity bytes a whole page costs.
-/

namespace NandFlash

/-- Correction strength of the BCH engine; `none` switches ECC off. -/
inductive Strength where
  | none
  | t8
  | t12
  | t24
deriving DecidableEq, Repr, Inhabited

/-- Shape of the codeword that protects one field. -/
structure Codeword where
  /-- User data bytes of a field. -/
  fieldLen : Nat
  /-- Bytes the engine reserves behind the data for metadata and parity. -/
  paddingLen : Nat
  /-- Parity bytes, at the very end of the padding. -/
  parityLen : Nat
  /-- Byte errors that are always repaired. -/
  correctable : Nat
deriving DecidableEq, Repr

namespace Strength

/-- Every strength, in table order. -/
def all : List Strength := [none, t8, t12, t24]

/-- Position in the tables. -/
def index : Strength → Nat
  | none => 0
  | t8 => 1
  | t12 => 2
  | t24 => 3

/-- The name used in messages. -/
def name : Strength → String
  | none => "None"
  | t8 => "T8"
  | t12 => "T12"
  | t24 => "T24"

/-- The codeword of a field, if ECC is on. -/
def codeword? : Strength → Option Codeword
  | none => Option.none
  | t8 => some ⟨512, 32, 15, 8⟩
  | t12 => some ⟨512, 32, 23, 12⟩
  | t24 => some ⟨1024, 64, 45, 24⟩

/-- The codeword of a field; without ECC a field is 512 bytes and has no parity. -/
def codeword (strength : Strength) : Codeword :=
  strength.codeword?.getD ⟨512, 32, 0, 0⟩

/-- The strength as select bits of the control register, if ECC is on. -/
def selectBits? : Strength → Option UInt32
  | none => Option.none
  | t8 => some 0x00100000
  | t12 => some 0x00200000
  | t24 => some 0x00040000

theorem selectBits?_eq_none_iff (strength : Strength) :
    strength.selectBits? = Option.none ↔ strength = none := by
  cases strength <;> decide

theorem fieldLen_pos (strength : Strength) : 0 < strength.codeword.fieldLen := by
  cases strength <;> decide

end Strength

/-- Page size of the ECC engine. -/
inductive PageSize where
  | p512
  | p2048
  | p4096
  | p8192
deriving DecidableEq, Repr, Inhabited

namespace PageSize

/-- Data bytes of a page. -/
def bytes : PageSize → Nat
  | p512 => 512
  | p2048 => 2048
  | p4096 => 4096
  | p8192 => 8192

/-- Any page size the engine understands. -/
def ofBytes? : Nat → Option PageSize
  | 512 => some p512
  | 2048 => some p2048
  | 4096 => some p4096
  | 8192 => some p8192
  | _ => none

/-- The name used in answers. -/
def name : PageSize → String
  | p512 => "P512"
  | p2048 => "P2048"
  | p4096 => "P4096"
  | p8192 => "P8192"

/-- The page size as bits of the control register. -/
def selectBits : PageSize → UInt32
  | p512 => 0x00000
  | p2048 => 0x10000
  | p4096 => 0x20000
  | p8192 => 0x30000

/-- Small pages are understood by the engine but never selected for a device. -/
def isSelectable : PageSize → Bool
  | p512 => false
  | p2048 | p4096 | p8192 => true

/-- The strength used when nothing overrides it. -/
def defaultStrength : PageSize → Strength
  | p8192 => .t12
  | p512 | p2048 | p4096 => .t8

theorem ofBytes?_bytes (page : PageSize) : ofBytes? page.bytes = some page := by
  cases page <;> rfl

/-- A recognised number of bytes is the page's own. -/
theorem bytes_of_ofBytes? {n : Nat} {page : PageSize} (h : ofBytes? n = some page) :
    page.bytes = n := by
  unfold ofBytes? at h
  split at h <;> first | (cases h; rfl) | cases h

end PageSize

/-- Parity bytes of a whole page, for the page sizes that can be selected. -/
def parityBudget : PageSize → Strength → Option Nat
  | .p512, _ => none
  | .p2048, .none => some 0
  | .p2048, .t8 => some 60
  | .p2048, .t12 => some 92
  | .p2048, .t24 => some 90
  | .p4096, .none => some 0
  | .p4096, .t8 => some 120
  | .p4096, .t12 => some 184
  | .p4096, .t24 => some 180
  | .p8192, .none => some 0
  | .p8192, .t8 => some 240
  | .p8192, .t12 => some 368
  | .p8192, .t24 => some 360

/-- The table agrees with the codeword shapes: every field costs its parity. -/
theorem parityBudget_of_isSelectable (page : PageSize) (strength : Strength)
    (h : page.isSelectable) :
    parityBudget page strength =
      some (strength.codeword.parityLen * (page.bytes / strength.codeword.fieldLen)) := by
  revert h
  cases page <;> cases strength <;> decide

end NandFlash
