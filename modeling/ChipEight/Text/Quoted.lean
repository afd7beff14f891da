import ChipEight.Text.Combining
import ChipEight.Text.Numeral
import ChipEight.Text.Unprinted

namespace ChipEight.Quoted

def number (c : Char) : List Char :=
  "\\u\x7b".toList ++ (Numeral.padded 16 1 c.toNat).map Char.toLower ++ ['\x7d']

def escape (c : Char) : List Char :=
  if c = '"' then ['\\', '"']
  else if c = '\\' then ['\\', '\\']
  else if c = '\n' then ['\\', 'n']
  else if c = '\r' then ['\\', 'r']
  else if c = '\t' then ['\\', 't']
  else if c = '\x00' then ['\\', '0']
  else if Unprinted.ranges.contains c || Combining.ranges.contains c then number c
  else [c]

def encode (s : String) : String :=
  .ofList ('"' :: s.toList.flatMap escape ++ ['"'])

end ChipEight.Quoted
