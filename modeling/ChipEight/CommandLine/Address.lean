import ChipEight.Text.Numeral

namespace ChipEight.Address

def radix : List Char → Nat × List Char
  | '0' :: 'x' :: digits => (16, digits)
  | '0' :: 'X' :: digits => (16, digits)
  | digits => (10, digits)

def read (text : String) : Except Numeral.Malformed UInt16 :=
  let (base, digits) := radix text.toList
  (Numeral.read base 0xFFFF digits).map UInt16.ofNat

def refusal (text : String) (reason : Numeral.Malformed) : String :=
  "invalid address '" ++ text ++ "': " ++ reason.message

end ChipEight.Address
