namespace ChipEight

/-- Closed ranges of the numbers of characters. -/
abbrev CharRanges := List (Nat × Nat)

namespace CharRanges

def contains (rs : CharRanges) (c : Char) : Bool :=
  rs.any fun r => r.1 ≤ c.toNat && c.toNat ≤ r.2

end CharRanges

end ChipEight
