import Mathlib.Data.List.TakeWhile

/-!
# Texts as bytes
-/

namespace KnitOS.Lib

def ascii (text : String) : List UInt8 :=
  text.toList.map fun char => UInt8.ofNat char.toNat

abbrev carriageReturn : UInt8 := 13
abbrev lineFeed : UInt8 := 10
abbrev colon : UInt8 := 58
abbrev bar : UInt8 := 124

/-- The C string at the start of a buffer: the bytes before the first NUL. -/
def cString (buffer : List UInt8) : List UInt8 :=
  buffer.takeWhile (· ≠ 0)

theorem cString_initial (buffer : List UInt8) : cString buffer <+: buffer :=
  List.takeWhile_prefix _

theorem cString_eq_self_iff {text : List UInt8} : cString text = text ↔ 0 ∉ text := by
  unfold cString
  rw [List.takeWhile_eq_self_iff]
  constructor
  · intro nonzero isThere
    simpa using nonzero 0 isThere
  · intro noNul byte member
    have nonzero : byte ≠ 0 := fun isNul => noNul (isNul ▸ member)
    simpa using nonzero

end KnitOS.Lib
