import ChipEight.Proofs.Text.Numeral
import ChipEight.Proofs.Text.Separated

namespace ChipEight.Text

/-- Without escape sequences. -/
def Plain (text : List Char) : Prop := '\x1b' ∉ text

instance (text : List Char) : Decidable (Plain text) := inferInstanceAs (Decidable (_ ∉ _))

/-- At how many places of a text the pattern, which is not empty, stands. -/
def occurrences (pattern : List Char) : List Char → Nat
  | [] => 0
  | c :: rest => occurrences pattern rest + if pattern.isPrefixOf (c :: rest) then 1 else 0

/-- The pattern starts nowhere in the text, whatever follows it. -/
def Skips (pattern text : List Char) : Prop :=
  ∀ rest, occurrences pattern (text ++ rest) = occurrences pattern rest

namespace Plain

theorem nil : Plain [] := nofun

theorem append {first second : List Char} (h : Plain first) (h' : Plain second) :
    Plain (first ++ second) := by
  intro hmem
  rcases List.mem_append.1 hmem with hfirst | hsecond
  · exact h hfirst
  · exact h' hsecond

theorem map {α : Type} {xs : List α} {f : α → Char} (h : ∀ a ∈ xs, f a ≠ '\x1b') :
    Plain (xs.map f) := by
  intro hmem
  obtain ⟨a, ha, heq⟩ := List.mem_map.1 hmem
  exact h a ha heq

theorem flatMap {α : Type} {xs : List α} {f : α → List Char} (h : ∀ a ∈ xs, Plain (f a)) :
    Plain (xs.flatMap f) := by
  intro hmem
  obtain ⟨a, ha, hin⟩ := List.mem_flatMap.1 hmem
  exact h a ha hin

theorem padded {base : Nat} (hpos : 0 < base) (hle : base ≤ 36) (width n : Nat) :
    Plain (Numeral.padded base width n) :=
  Numeral.not_mem_padded hpos hle rfl width n

end Plain

namespace Skips

variable {pattern : List Char}

theorem nil : Skips pattern [] := fun _ => rfl

theorem append {first second : List Char} (h : Skips pattern first) (h' : Skips pattern second) :
    Skips pattern (first ++ second) := by
  intro rest
  rw [List.append_assoc, h, h']

theorem flatMap {α : Type} {xs : List α} {f : α → List Char} (h : ∀ a, Skips pattern (f a)) :
    Skips pattern (xs.flatMap f) := by
  induction xs with
  | nil => exact nil
  | cons a xs ih =>
    rw [List.flatMap_cons]
    exact (h a).append ih

theorem of_plain {text sequence : List Char} (h : Plain text) : Skips ('\x1b' :: sequence) text := by
  intro rest
  induction text with
  | nil => rfl
  | cons c text ih =>
    obtain ⟨hc, htext⟩ := not_or.1 fun hmem => h (List.mem_cons.2 hmem)
    have hne : ('\x1b' == c) = false := beq_false_of_ne hc
    rw [List.cons_append, occurrences, ih htext, List.isPrefixOf, hne]
    rfl

end Skips

end ChipEight.Text
