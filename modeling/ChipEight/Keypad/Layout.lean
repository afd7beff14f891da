import ChipEight.Keypad.Script

namespace ChipEight.Layout

def typed : List Char := "x123qweasdzc4rfv".toList

/-- The key that a character stands for. Only the case of the letters A to Z is ignored. -/
def key? (c : Char) : Option UInt8 :=
  (typed.findIdx? (· = c.toLower)).map UInt8.ofNat

def keys : List Char → Except Char (List UInt8)
  | [] => .ok []
  | c :: rest =>
    match key? c with
    | none => .error c
    | some key => (keys rest).map (key :: ·)

def refusal (c : Char) : String := "'" ++ c.toString ++ "' is not on the keypad"

end ChipEight.Layout
