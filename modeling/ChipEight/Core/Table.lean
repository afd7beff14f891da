import ChipEight.Core.Basic

namespace ChipEight.Core

/-- A row of the table. `referenced` is what the value points at, where it points at something. -/
structure Row where
  subject : String
  value : Nat
  referenced : Option Nat
  deriving DecidableEq

namespace Row

def absent : String := "---"

def cells (r : Row) : List String :=
  [r.subject, Numeral.address 2 r.value, Numeral.decimal r.value,
    (r.referenced.map (Numeral.address 2)).getD absent,
    (r.referenced.map Numeral.decimal).getD absent]

end Row

def header : List String :=
  ["Subject", "Value(Hex)", "Value(int)", "RValue(Hex)", "RValue(int)"]

def cellText (width : Nat) (cell : String) : String :=
  " " ++ cell ++ "".pushn ' ' (width - cell.length) ++ " "

def lineText (cells : List String) : String :=
  let texts := header.zipWith (fun title cell => cellText title.length cell) cells
  "|" ++ "|".intercalate texts ++ "|"

def border : String :=
  "+" ++ "+".intercalate (header.map fun title => "".pushn '-' (title.length + 2)) ++ "+"

def divider : String :=
  "+" ++ "".pushn '=' (border.length - 2) ++ "+"

def byteAt (c : Core) (address : UInt16) : Option Nat :=
  (c.memory.byte? address.toNat).map UInt8.toNat

def rows (c : Core) : List Row :=
  (List.finRange 16).map (fun r => ⟨"V" ++ Numeral.hex 1 r, (c.getV r).toNat, none⟩) ++
    [⟨"I", c.i.toNat, c.byteAt c.i⟩,
      ⟨"DT", c.delay.toNat, none⟩,
      ⟨"ST", c.sound.toNat, none⟩,
      ⟨"PC", c.pc.toNat, c.byteAt c.pc⟩,
      ⟨"PC+1", (c.pc + 1).toNat, c.byteAt (c.pc + 1)⟩,
      ⟨"SP", c.sp.toNat, c.slot?.map UInt16.toNat⟩]

def tableLines (c : Core) : List String :=
  border :: lineText header :: divider :: c.rows.map (fun r => lineText r.cells) ++ [border]

def table (c : Core) : String := "\n".intercalate c.tableLines

end ChipEight.Core
