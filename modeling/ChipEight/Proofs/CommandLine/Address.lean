import ChipEight.CommandLine.Address
import ChipEight.Proofs.Machine.Step
import ChipEight.Proofs.Text.Numeral

namespace ChipEight.Address

open Numeral (Accepts Denotes Refuses Spells Writes)

/-- The base that the mark in front announces, and what follows it. -/
inductive Marked : List Char → Nat → List Char → Prop
  | lower (rest : List Char) : Marked ('0' :: 'x' :: rest) 16 rest
  | upper (rest : List Char) : Marked ('0' :: 'X' :: rest) 16 rest
  | decimal {cs : List Char} : (∀ rest, cs ≠ '0' :: 'x' :: rest) →
      (∀ rest, cs ≠ '0' :: 'X' :: rest) → Marked cs 10 cs

theorem marked_radix (cs : List Char) : Marked cs (radix cs).1 (radix cs).2 := by
  unfold radix
  split
  next rest => exact .lower rest
  next rest => exact .upper rest
  next hlower hupper => exact .decimal hlower hupper

namespace Marked

variable {text : String} {base : Nat} {cs rest : List Char}

theorem radix_eq (h : Marked cs base rest) : radix cs = (base, rest) := by
  cases h with
  | lower => rfl
  | upper => rfl
  | decimal hlower hupper =>
    unfold radix
    split
    next rest => exact absurd rfl (hlower rest)
    next rest => exact absurd rfl (hupper rest)
    next => rfl

theorem one_lt (h : Marked cs base rest) : 1 < base := by
  cases h <;> decide

theorem base_le (h : Marked cs base rest) : base ≤ 36 := by
  cases h <;> decide

theorem read_eq (h : Marked text.toList base rest) :
    read text = (Numeral.read base 0xFFFF rest).map UInt16.ofNat := by
  rw [read, h.radix_eq]

theorem read_eq_ok_iff (h : Marked text.toList base rest) {v : UInt16} :
    read text = .ok v ↔ Accepts base 0xFFFF rest v.toNat := by
  rw [h.read_eq, ← Numeral.read_eq_ok_iff (Nat.zero_lt_of_lt h.one_lt) h.base_le]
  cases hr : Numeral.read base 0xFFFF rest with
  | error reason => exact ⟨nofun, nofun⟩
  | ok n =>
    have hn := (Numeral.read_eq_ok_iff (Nat.zero_lt_of_lt h.one_lt) h.base_le).1 hr
    constructor
    · intro hv
      rw [← Except.ok.inj hv, UInt16.toNat_ofNat_of_lt' (Nat.lt_succ_of_le hn.1)]
    · intro hv
      rw [Except.ok.inj hv]
      exact congrArg Except.ok UInt16.ofNat_toNat

theorem read_eq_error_iff (h : Marked text.toList base rest) {reason : Numeral.Malformed} :
    read text = .error reason ↔ Refuses base 0xFFFF rest reason := by
  rw [h.read_eq, ← Numeral.read_eq_error_iff (Nat.zero_lt_of_lt h.one_lt) h.base_le]
  cases hr : Numeral.read base 0xFFFF rest with
  | error why =>
    constructor
    · intro hreason
      rw [Except.error.inj hreason]
    · intro hreason
      rw [Except.error.inj hreason]
      rfl
  | ok n => exact ⟨nofun, nofun⟩

theorem accepts_or_refuses (h : Marked text.toList base rest) :
    (∃ v : UInt16, Accepts base 0xFFFF rest v.toNat) ∨
      ∃ reason, Refuses base 0xFFFF rest reason := by
  cases hr : read text with
  | ok v => exact .inl ⟨v, h.read_eq_ok_iff.1 hr⟩
  | error reason => exact .inr ⟨reason, h.read_eq_error_iff.1 hr⟩

theorem read_ofList {sign typed : List Char} {v : UInt16} (h : Marked cs base (sign ++ typed))
    (hsign : sign = [] ∨ sign = ['+']) (htyped : Writes base typed v.toNat) :
    read (.ofList cs) = .ok v := by
  have hdenotes := htyped.denotes h.one_lt h.base_le
  rw [← String.toList_ofList (l := cs)] at h
  apply h.read_eq_ok_iff.2
  apply And.intro (Nat.le_of_lt_succ v.toNat_lt)
  rcases hsign with rfl | rfl
  · exact ⟨typed, htyped.ne_nil, .inl rfl, hdenotes⟩
  · exact ⟨typed, htyped.ne_nil, .inr rfl, hdenotes⟩

end Marked

theorem not_mem_of_denotes {sign typed : List Char} {n : Nat} {c : Char}
    (hsign : sign = [] ∨ sign = ['+']) (htyped : Denotes 10 typed n)
    (hc : Numeral.digitValue? 10 c = none) (hplus : c ≠ '+') : c ∉ sign ++ typed := by
  intro hmem
  rcases List.mem_append.1 hmem with hmem | hmem
  · rcases hsign with rfl | rfl
    · cases hmem
    · exact hplus (List.mem_singleton.1 hmem)
  · obtain ⟨d, hd⟩ := htyped.spells_of_mem hmem
    exact (Numeral.digitValue?_eq_none_iff (by decide)).1 hc d hd

theorem marked_of_denotes {sign typed : List Char} {n : Nat}
    (hsign : sign = [] ∨ sign = ['+']) (htyped : Denotes 10 typed n) :
    Marked (sign ++ typed) 10 (sign ++ typed) := by
  apply Marked.decimal
  · intro rest heq
    apply not_mem_of_denotes (c := 'x') hsign htyped rfl (by decide)
    rw [heq]
    exact List.mem_cons_of_mem '0' List.mem_cons_self
  · intro rest heq
    apply not_mem_of_denotes (c := 'X') hsign htyped rfl (by decide)
    rw [heq]
    exact List.mem_cons_of_mem '0' List.mem_cons_self

theorem refusal_inj {text : String} {reason reason' : Numeral.Malformed}
    (h : refusal text reason = refusal text reason') : reason = reason' := by
  have hmessage : reason.message = reason'.message := (String.append_right_inj _).1 h
  cases reason <;> cases reason' <;> first | rfl | exact absurd hmessage (by decide)

/-- For every text, after the mark in front: what it is taken for, with which words it is refused,
and that it is one or the other. Every number is read back from its decimal digits, and from its
hexadecimal ones behind either mark, with a plus sign and zeros in front or without. -/
theorem address_grammar :
    (∀ text : String, ∃ base rest, Marked text.toList base rest ∧
      (∀ v : UInt16, read text = .ok v ↔ Accepts base 0xFFFF rest v.toNat) ∧
      (∀ reason, (read text).mapError (refusal text) =
          .error ("invalid address '" ++ text ++ "': " ++ reason.message) ↔
        Refuses base 0xFFFF rest reason) ∧
      ((∃ v : UInt16, Accepts base 0xFFFF rest v.toNat) ∨
        ∃ reason, Refuses base 0xFFFF rest reason)) ∧
    ∀ (v : UInt16) (sign typed : List Char), sign = [] ∨ sign = ['+'] →
      (Writes 10 typed v.toNat → read (.ofList (sign ++ typed)) = .ok v) ∧
      (Writes 16 typed v.toNat →
        read (.ofList ('0' :: 'x' :: (sign ++ typed))) = .ok v ∧
        read (.ofList ('0' :: 'X' :: (sign ++ typed))) = .ok v) := by
  constructor
  · intro text
    have h := marked_radix text.toList
    refine ⟨_, _, h, fun v => h.read_eq_ok_iff, ?_, h.accepts_or_refuses⟩
    intro reason
    rw [mapError_eq_error_iff, ← h.read_eq_error_iff]
    constructor
    · rintro ⟨reason', hread, hmessage⟩
      rw [refusal_inj hmessage]
      exact hread
    · intro hread
      exact ⟨reason, hread, rfl⟩
  · intro v sign typed hsign
    constructor
    · intro htyped
      have hmarked := marked_of_denotes hsign (htyped.denotes (by decide) (by decide))
      exact hmarked.read_ofList hsign htyped
    · intro htyped
      exact ⟨(Marked.lower _).read_ofList hsign htyped, (Marked.upper _).read_ofList hsign htyped⟩

theorem address_grammar_mixed_case :
    Writes 16 ['0', '0', 'a', 'F'] (0xAF : UInt16).toNat ∧
      read (.ofList ['0', 'x', '+', '0', '0', 'a', 'F']) = .ok 0xAF := by
  have hwrites : Writes 16 ['0', '0', 'a', 'F'] (0xAF : UInt16).toNat := ⟨4, by decide⟩
  exact ⟨hwrites, ((address_grammar.2 0xAF ['+'] _ (.inr rfl)).2 hwrites).1⟩

end ChipEight.Address
