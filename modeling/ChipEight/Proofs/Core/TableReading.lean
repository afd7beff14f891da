import Mathlib.Data.List.Forall2
import ChipEight.Proofs.Core.Table
import ChipEight.Proofs.Memory.Access

namespace ChipEight.Core

open Numeral (Denotes)

/-- There is a cell for each title, and it is no wider. -/
def Fits (titles cells : List String) : Prop :=
  List.Forall₂ (fun title cell => cell.length ≤ title.length) titles cells

section Columns

variable {titles cells cells' : List String}

def texts (titles cells : List String) : List String :=
  titles.zipWith (fun title cell => cellText title.length cell) cells

end Columns

namespace Row

end Row

section Rows

variable {c c' : Core}

end Rows

end ChipEight.Core
