import ChipEight.Keypad.Layout

namespace ChipEight.Layout

/-- The character, in either case, is the one typed for the key. -/
def StandsFor (c : Char) (key : UInt8) : Prop := typed[key.toNat]? = some c.toLower

theorem StandsFor.le {c : Char} {key : UInt8} (h : StandsFor c key) : key ≤ 0xF := by
  have hlt : key.toNat < typed.length := (List.getElem?_eq_some_iff.1 h).1
  exact UInt8.le_iff_toNat_le.2 (Nat.le_of_lt_succ hlt)

section Read

variable {script : List Char} {pressed : List UInt8} (h : keys script = .ok pressed)

include h

end Read

end ChipEight.Layout
