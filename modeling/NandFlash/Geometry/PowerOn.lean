import NandFlash.Bus
import NandFlash.Geometry.Strength

/-!
# The power-on setting

One word, programmed into non-volatile memory or set by strap pins, may ask for a page size and
for a correction strength. Either field may also be left unset.
-/

namespace NandFlash

/-- The power-on setting, in the bit positions of the non-volatile word. -/
structure PowerOn where
  word : UInt32
deriving DecidableEq, Repr

namespace PowerOn

/-- The strength the setting asks for, if it asks for one. -/
def strength? (setting : PowerOn) : Option Strength :=
  match setting.word &&& 0xC000 with
  | 0x0000 => some .none
  | 0x4000 => some .t12
  | 0x8000 => some .t24
  | _ => none

/-- The page size the setting asks for, if it asks for one. -/
def page? (setting : PowerOn) : Option PageSize :=
  match setting.word &&& 0x3000 with
  | 0x0000 => some .p2048
  | 0x1000 => some .p4096
  | 0x2000 => some .p8192
  | _ => none

/-- The field of two bits that begins at bit `k` of the word. -/
def field (setting : PowerOn) (k : UInt32) : UInt32 := (setting.word >>> k) &&& 3

/-- The setting that leaves the probed geometry alone. -/
def unset : PowerOn := ⟨0xF000⟩

/-- The non-volatile word counts once its lowest bit is set; until then the strap pins do, moved
into the positions of the word. -/
def read {σ : Type} [PowerOnSource σ] : Action σ PowerOn := do
  let word ← PowerOnSource.nonvolatile
  if word &&& 1 != 0 then
    return ⟨word⟩
  else
    return ⟨(← PowerOnSource.pins) <<< 8⟩

theorem strength?_unset : unset.strength? = none := by decide

theorem page?_unset : unset.page? = none := by decide

end PowerOn

/-- The two words a setting is read from. -/
structure PowerOnWords where
  nonvolatile : UInt32
  pins : UInt32
deriving DecidableEq, Repr

instance : PowerOnSource PowerOnWords where
  nonvolatile := return (← get).nonvolatile
  pins := return (← get).pins

end NandFlash
