namespace ChipEight.Numeral

def digitsWithin (base : Nat) : Nat → Nat → List Nat
  | 0, _ => []
  | fuel + 1, n => n % base :: if n < base then [] else digitsWithin base fuel (n / base)

def digits (base n : Nat) : List Nat :=
  (digitsWithin base (n + 1) n).reverse

def value (base : Nat) (ds : List Nat) : Nat :=
  ds.foldl (fun n d => n * base + d) 0

@[simp] theorem value_concat (base : Nat) (ds : List Nat) (d : Nat) :
    value base (ds ++ [d]) = value base ds * base + d := by
  simp [value]

theorem value_digitsWithin {base : Nat} (hb : 1 < base) {fuel n : Nat} (h : n < fuel) :
    value base (digitsWithin base fuel n).reverse = n := by
  induction fuel generalizing n with
  | zero => omega
  | succ fuel ih =>
    by_cases hn : n < base
    · simp [digitsWithin, hn, value, Nat.mod_eq_of_lt hn]
    · have hlt : n / base < fuel :=
        Nat.lt_of_lt_of_le (Nat.div_lt_self (by omega) hb) (by omega)
      simp only [digitsWithin, if_neg hn, List.reverse_cons, value_concat, ih hlt]
      rw [Nat.mul_comm]
      exact Nat.div_add_mod n base

theorem value_digits {base : Nat} (hb : 1 < base) (n : Nat) : value base (digits base n) = n :=
  value_digitsWithin hb (Nat.lt_succ_self n)

theorem lt_of_mem_digitsWithin {base : Nat} (hb : 0 < base) {fuel n d : Nat}
    (h : d ∈ digitsWithin base fuel n) : d < base := by
  induction fuel generalizing n with
  | zero => simp [digitsWithin] at h
  | succ fuel ih =>
    rw [digitsWithin, List.mem_cons] at h
    rcases h with rfl | h
    · exact Nat.mod_lt n hb
    · split at h
      · simp at h
      · exact ih h

theorem lt_of_mem_digits {base n d : Nat} (hb : 0 < base) (h : d ∈ digits base n) : d < base :=
  lt_of_mem_digitsWithin hb (List.mem_reverse.1 h)

def digitChar (d : Nat) : Char :=
  if d < 10 then Char.ofNat ('0'.toNat + d) else Char.ofNat ('A'.toNat + (d - 10))

def charValue? (c : Char) : Option Nat :=
  if '0' ≤ c ∧ c ≤ '9' then some (c.toNat - '0'.toNat)
  else if 'a' ≤ c ∧ c ≤ 'z' then some (c.toNat - 'a'.toNat + 10)
  else if 'A' ≤ c ∧ c ≤ 'Z' then some (c.toNat - 'A'.toNat + 10)
  else none

def digitValue? (base : Nat) (c : Char) : Option Nat :=
  (charValue? c).filter (· < base)

theorem charValue?_digitChar {d : Nat} (h : d < 36) : charValue? (digitChar d) = some d := by
  have all : ∀ d : Fin 36, charValue? (digitChar d) = some d.val := by decide
  exact all ⟨d, h⟩

theorem digitValue?_digitChar {base d : Nat} (hb : base ≤ 36) (h : d < base) :
    digitValue? base (digitChar d) = some d := by
  simp [digitValue?, charValue?_digitChar (Nat.lt_of_lt_of_le h hb), h]

def padded (base width n : Nat) : List Char :=
  let cs := (digits base n).map digitChar
  List.replicate (width - cs.length) '0' ++ cs

def decimal (n : Nat) : String :=
  .ofList (padded 10 1 n)

def hex (width n : Nat) : String :=
  .ofList (padded 16 width n)

/-- Hexadecimal marked with `0x`, which does not count towards the width. -/
def address (width n : Nat) : String :=
  "0x" ++ hex width n

inductive Malformed
  | empty
  | invalidDigit
  | tooLarge
  deriving DecidableEq

def Malformed.message : Malformed → String
  | .empty => "cannot parse integer from empty string"
  | .invalidDigit => "invalid digit found in string"
  | .tooLarge => "number too large to fit in target type"

/-- Digits are taken in from left to right; the first that is none, or that lifts the number above
`bound`, decides. -/
def readDigits (base bound : Nat) : Nat → List Char → Except Malformed Nat
  | n, [] => .ok n
  | n, c :: cs =>
    match digitValue? base c with
    | none => .error .invalidDigit
    | some d =>
      if bound < n * base + d then .error .tooLarge else readDigits base bound (n * base + d) cs

/-- Reads a number up to `bound`. One plus sign in front is dropped, unless it stands alone. -/
def read (base bound : Nat) : List Char → Except Malformed Nat
  | [] => .error .empty
  | ['+'] => .error .invalidDigit
  | '+' :: cs => readDigits base bound 0 cs
  | cs => readDigits base bound 0 cs

end ChipEight.Numeral
