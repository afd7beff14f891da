import ChipEight.Text.Numeral

namespace ChipEight.Numeral

/-- The character is the digit `d` of the base; letters count in either case. -/
def Spells (base : Nat) (c : Char) (d : Nat) : Prop :=
  d < base ∧ (c = digitChar d ∨ c = (digitChar d).toLower)

/-- The characters are digits of the base, and stand for the number. -/
inductive Denotes (base : Nat) : List Char → Nat → Prop
  | nil : Denotes base [] 0
  | concat {cs : List Char} {c : Char} {n d : Nat} : Denotes base cs n → Spells base c d →
      Denotes base (cs ++ [c]) (n * base + d)

/-- The digits of the number, with any number of zeros in front, and letters in either case. -/
def Writes (base : Nat) (typed : List Char) (n : Nat) : Prop :=
  ∃ width, typed.map Char.toUpper = padded base width n

def unsigned : List Char → List Char
  | '+' :: cs => cs
  | cs => cs

/-- At least one digit, perhaps behind a plus sign, which stand for a number up to `bound`. -/
def Accepts (base bound : Nat) (cs : List Char) (n : Nat) : Prop :=
  n ≤ bound ∧ ∃ digits, digits ≠ [] ∧ (cs = digits ∨ cs = '+' :: digits) ∧ Denotes base digits n

/-- The characters are no numeral up to `bound`, and the first reason for it, from the left. -/
inductive Refuses (base bound : Nat) : List Char → Malformed → Prop
  | empty : Refuses base bound [] .empty
  | plus : Refuses base bound ['+'] .invalidDigit
  | minus : Refuses base bound ['-'] .invalidDigit
  | badDigit {cs before after : List Char} {c : Char} {n : Nat} :
      unsigned cs = before ++ c :: after → Denotes base before n → n ≤ bound →
      (∀ d, ¬ Spells base c d) → Refuses base bound cs .invalidDigit
  | tooLarge {cs before after : List Char} {n : Nat} :
      unsigned cs = before ++ after → Denotes base before n → bound < n →
      Refuses base bound cs .tooLarge

theorem charValue?_toLower_digitChar {d : Nat} (h : d < 36) :
    charValue? (digitChar d).toLower = some d := by
  have all : ∀ d : Fin 36, charValue? (digitChar d).toLower = some d.val := by decide
  exact all ⟨d, h⟩

theorem toNat_lt_of_charValue? {c : Char} {d : Nat} (h : charValue? c = some d) :
    c.toNat < 128 := by
  have hle : c ≤ 'z' := by
    unfold charValue? at h
    split at h
    next hdigit => exact Char.le_trans hdigit.2 (by decide)
    split at h
    next hlower => exact hlower.2
    split at h
    next hupper => exact Char.le_trans hupper.2 (by decide)
    cases h
  exact Nat.lt_of_le_of_lt (UInt32.le_iff_toNat_le.1 hle) (by decide)

theorem eq_digitChar_of_charValue? {c : Char} {d : Nat} (h : charValue? c = some d) :
    c = digitChar d ∨ c = (digitChar d).toLower := by
  have all : ∀ n : Fin 128, ∀ d ∈ charValue? (Char.ofNat n),
      Char.ofNat n = digitChar d ∨ Char.ofNat n = (digitChar d).toLower := by decide
  have hc := all ⟨c.toNat, toNat_lt_of_charValue? h⟩
  rw [Char.ofNat_toNat] at hc
  exact hc d h

theorem digitValue?_eq_some_iff {base : Nat} (hb : base ≤ 36) {c : Char} {d : Nat} :
    digitValue? base c = some d ↔ Spells base c d := by
  simp only [digitValue?, Option.filter_eq_some_iff, decide_eq_true_eq]
  constructor
  · rintro ⟨hvalue, hlt⟩
    exact ⟨hlt, eq_digitChar_of_charValue? hvalue⟩
  · rintro ⟨hlt, rfl | rfl⟩
    · exact ⟨charValue?_digitChar (Nat.lt_of_lt_of_le hlt hb), hlt⟩
    · exact ⟨charValue?_toLower_digitChar (Nat.lt_of_lt_of_le hlt hb), hlt⟩

theorem digitValue?_eq_none_iff {base : Nat} (hb : base ≤ 36) {c : Char} :
    digitValue? base c = none ↔ ∀ d, ¬ Spells base c d := by
  rw [Option.eq_none_iff_forall_ne_some]
  exact forall_congr' fun d => not_congr (digitValue?_eq_some_iff hb)

section Reading

variable {base bound : Nat} {cs before after : List Char} {c : Char} {n d : Nat}

theorem readDigits_of_bad (hb : base ≤ 36) (h : ∀ d, ¬ Spells base c d) :
    readDigits base bound n (c :: cs) = .error .invalidDigit := by
  rw [readDigits, (digitValue?_eq_none_iff hb).2 h]

theorem readDigits_of_spells (hb : base ≤ 36) (h : Spells base c d) :
    readDigits base bound n (c :: cs) =
      if bound < n * base + d then .error .tooLarge
      else readDigits base bound (n * base + d) cs := by
  rw [readDigits, (digitValue?_eq_some_iff hb).2 h]

theorem readDigits_of_denotes (hpos : 0 < base) (hb : base ≤ 36) (h : Denotes base before n)
    (hle : n ≤ bound) (rest : List Char) :
    readDigits base bound 0 (before ++ rest) = readDigits base bound n rest := by
  induction h generalizing rest with
  | nil => rfl
  | @concat cs c n d _ hc ih =>
    have hn : n ≤ bound :=
      Nat.le_trans (Nat.le_mul_of_pos_right n hpos) (Nat.le_trans (Nat.le_add_right _ d) hle)
    rw [List.append_assoc, ih hn, List.singleton_append, readDigits_of_spells hb hc,
      if_neg (Nat.not_lt.2 hle)]

theorem readDigits_of_lt (hpos : 0 < base) (hb : base ≤ 36) (h : Denotes base before n)
    (hlt : bound < n) (rest : List Char) :
    readDigits base bound 0 (before ++ rest) = .error .tooLarge := by
  induction h generalizing rest with
  | nil => exact absurd hlt (Nat.not_lt_zero _)
  | @concat cs c n d hcs hc ih =>
    rw [List.append_assoc]
    rcases Nat.lt_or_ge bound n with hn | hn
    · exact ih hn _
    · rw [readDigits_of_denotes hpos hb hcs hn, List.singleton_append, readDigits_of_spells hb hc,
        if_pos hlt]

/-- What there is to find from left to right: a number, a character that is no digit, or digits that
stand for too much. -/
inductive Reading (base bound : Nat) : List Char → Except Malformed Nat → Prop
  | number {cs : List Char} {n : Nat} : Denotes base cs n → n ≤ bound →
      Reading base bound cs (.ok n)
  | badDigit {before after : List Char} {c : Char} {n : Nat} : Denotes base before n → n ≤ bound →
      (∀ d, ¬ Spells base c d) →
      Reading base bound (before ++ c :: after) (.error .invalidDigit)
  | tooLarge {before after : List Char} {n : Nat} : Denotes base before n → bound < n →
      Reading base bound (before ++ after) (.error .tooLarge)

theorem Reading.readDigits_eq (hpos : 0 < base) (hb : base ≤ 36) {result : Except Malformed Nat}
    (h : Reading base bound cs result) : readDigits base bound 0 cs = result := by
  cases h with
  | number hcs hle =>
    have hread := readDigits_of_denotes hpos hb hcs hle []
    rw [List.append_nil] at hread
    exact hread
  | badDigit hbefore hle hc =>
    rw [readDigits_of_denotes hpos hb hbefore hle, readDigits_of_bad hb hc]
  | tooLarge hbefore hlt => exact readDigits_of_lt hpos hb hbefore hlt _

theorem reading_readDigits (hb : base ≤ 36) (h : Denotes base before n) (hle : n ≤ bound) :
    Reading base bound (before ++ cs) (readDigits base bound n cs) := by
  induction cs generalizing before n with
  | nil =>
    rw [List.append_nil]
    exact .number h hle
  | cons c cs ih =>
    cases hc : digitValue? base c with
    | none =>
      have hbad := (digitValue?_eq_none_iff hb).1 hc
      rw [readDigits_of_bad hb hbad]
      exact .badDigit h hle hbad
    | some d =>
      have hd := (digitValue?_eq_some_iff hb).1 hc
      rw [readDigits_of_spells hb hd, List.append_cons]
      split
      next hlt => exact .tooLarge (h.concat hd) hlt
      next hlt => exact ih (h.concat hd) (Nat.not_lt.1 hlt)

theorem readDigits_eq_iff (hpos : 0 < base) (hb : base ≤ 36) {result : Except Malformed Nat} :
    readDigits base bound 0 cs = result ↔ Reading base bound cs result := by
  apply Iff.intro _ (Reading.readDigits_eq hpos hb)
  intro h
  rw [← h]
  exact reading_readDigits hb .nil (Nat.zero_le bound)

theorem readDigits_eq_ok_iff (hpos : 0 < base) (hb : base ≤ 36) :
    readDigits base bound 0 cs = .ok n ↔ Denotes base cs n ∧ n ≤ bound := by
  rw [readDigits_eq_iff hpos hb]
  apply Iff.intro _ fun h => .number h.1 h.2
  intro h
  cases h with
  | number hcs hle => exact ⟨hcs, hle⟩

end Reading

section Signed

variable {base bound : Nat} {cs : List Char} {n : Nat}

theorem unsigned_eq_self (h : ∀ rest, cs ≠ '+' :: rest) : unsigned cs = cs := by
  unfold unsigned
  split
  next rest => exact absurd rfl (h rest)
  next => rfl

theorem unsigned_eq_nil_iff : unsigned cs = [] ↔ cs = [] ∨ cs = ['+'] := by
  unfold unsigned
  split
  next => simp
  next hplus =>
    apply Iff.intro .inl
    rintro (hnil | hsign)
    · exact hnil
    · exact absurd hsign (hplus [])

theorem read_eq_readDigits (h : unsigned cs ≠ []) :
    read base bound cs = readDigits base bound 0 (unsigned cs) := by
  unfold read
  split
  next => exact absurd rfl h
  next => exact absurd rfl h
  next => rfl
  next hplus =>
    rw [unsigned_eq_self]
    intro rest heq
    exact hplus rest heq

theorem not_spells_plus (hb : base ≤ 36) (d : Nat) : ¬ Spells base '+' d := by
  have hnone : digitValue? base '+' = none := rfl
  exact (digitValue?_eq_none_iff hb).1 hnone d

theorem not_spells_minus (hb : base ≤ 36) (d : Nat) : ¬ Spells base '-' d := by
  have hnone : digitValue? base '-' = none := rfl
  exact (digitValue?_eq_none_iff hb).1 hnone d

theorem Denotes.spells_of_mem (h : Denotes base cs n) {c : Char} (hc : c ∈ cs) :
    ∃ d, Spells base c d := by
  induction h with
  | nil => cases hc
  | concat _ hd ih =>
    rcases List.mem_append.1 hc with hc | hc
    · exact ih hc
    · rw [List.mem_singleton.1 hc]
      exact ⟨_, hd⟩

theorem accepts_iff (hb : base ≤ 36) :
    Accepts base bound cs n ↔
      unsigned cs ≠ [] ∧ Denotes base (unsigned cs) n ∧ n ≤ bound := by
  constructor
  · rintro ⟨hle, digits, hne, rfl | rfl, hdigits⟩
    · rw [unsigned_eq_self]
      · exact ⟨hne, hdigits, hle⟩
      · rintro rest rfl
        obtain ⟨d, hd⟩ := hdigits.spells_of_mem List.mem_cons_self
        exact not_spells_plus hb d hd
    · exact ⟨hne, hdigits, hle⟩
  · rintro ⟨hne, hdigits, hle⟩
    refine ⟨hle, unsigned cs, hne, ?_, hdigits⟩
    unfold unsigned
    split
    · exact .inr rfl
    · exact .inl rfl

theorem read_eq_ok_iff (hpos : 0 < base) (hb : base ≤ 36) :
    read base bound cs = .ok n ↔ Accepts base bound cs n := by
  rw [accepts_iff hb]
  by_cases h : unsigned cs = []
  · rcases unsigned_eq_nil_iff.1 h with rfl | rfl
    · exact ⟨nofun, fun hne => absurd h hne.1⟩
    · exact ⟨nofun, fun hne => absurd h hne.1⟩
  · rw [read_eq_readDigits h, readDigits_eq_ok_iff hpos hb]
    exact (and_iff_right h).symm

theorem Denotes.ne_nil (h : Denotes base cs n) (hn : 0 < n) : cs ≠ [] := by
  cases h with
  | nil => exact absurd hn (Nat.lt_irrefl 0)
  | concat => exact List.append_ne_nil_of_right_ne_nil _ (List.cons_ne_nil _ _)

theorem Refuses.read_eq (hpos : 0 < base) (hb : base ≤ 36) {reason : Malformed}
    (h : Refuses base bound cs reason) : read base bound cs = .error reason := by
  cases h with
  | empty => rfl
  | plus => rfl
  | minus =>
    have hne : unsigned ['-'] ≠ [] := List.cons_ne_nil '-' []
    rw [read_eq_readDigits hne, readDigits_eq_iff hpos hb]
    exact .badDigit .nil (Nat.zero_le bound) (not_spells_minus hb)
  | badDigit hcs hbefore hle hc =>
    have hne : unsigned cs ≠ [] := by
      rw [hcs]
      exact List.append_ne_nil_of_right_ne_nil _ (List.cons_ne_nil _ _)
    rw [read_eq_readDigits hne, readDigits_eq_iff hpos hb, hcs]
    exact .badDigit hbefore hle hc
  | tooLarge hcs hbefore hlt =>
    have hne : unsigned cs ≠ [] := by
      rw [hcs]
      exact List.append_ne_nil_of_left_ne_nil (hbefore.ne_nil (Nat.zero_lt_of_lt hlt)) _
    rw [read_eq_readDigits hne, readDigits_eq_iff hpos hb, hcs]
    exact .tooLarge hbefore hlt

theorem read_eq_error_iff (hpos : 0 < base) (hb : base ≤ 36) {reason : Malformed} :
    read base bound cs = .error reason ↔ Refuses base bound cs reason := by
  apply Iff.intro _ (Refuses.read_eq hpos hb)
  intro h
  by_cases hnil : unsigned cs = []
  · rcases unsigned_eq_nil_iff.1 hnil with rfl | rfl
    · cases h
      exact .empty
    · cases h
      exact .plus
  · rw [read_eq_readDigits hnil, readDigits_eq_iff hpos hb] at h
    generalize hcs : unsigned cs = digits at h
    cases h with
    | badDigit hbefore hle hc => exact .badDigit hcs hbefore hle hc
    | tooLarge hbefore hlt => exact .tooLarge hcs hbefore hlt

end Signed

section Written

variable {base : Nat} {cs : List Char} {n : Nat}

theorem charValue?_toUpper (c : Char) : charValue? c.toUpper = charValue? c := by
  have all : ∀ n : Fin 128, charValue? (Char.ofNat n).toUpper = charValue? (Char.ofNat n) := by
    decide
  rcases Nat.lt_or_ge c.toNat 128 with hlt | hge
  · have hc := all ⟨c.toNat, hlt⟩
    rw [Char.ofNat_toNat] at hc
    exact hc
  · have hsame : c.toUpper = c := by
      apply dif_neg
      intro hlower
      have hle := UInt32.le_iff_toNat_le.1 hlower.2
      exact absurd (Nat.le_trans hge hle) (by decide)
    rw [hsame]

theorem spells_of_toUpper (hb : base ≤ 36) {c : Char} {d : Nat} (hd : d < base)
    (h : c.toUpper = digitChar d) : Spells base c d := by
  have hvalue : charValue? c = some d := by
    rw [← charValue?_toUpper, h]
    exact charValue?_digitChar (Nat.lt_of_lt_of_le hd hb)
  exact ⟨hd, eq_digitChar_of_charValue? hvalue⟩

theorem Denotes.append_digits (hb : base ≤ 36) {ds : List Nat} {typed : List Char}
    (h : Denotes base cs n) (hds : ∀ d ∈ ds, d < base)
    (htyped : typed.map Char.toUpper = ds.map digitChar) :
    Denotes base (cs ++ typed) (ds.foldl (fun n d => n * base + d) n) := by
  induction ds generalizing cs n typed with
  | nil =>
    rw [List.map_eq_nil_iff.1 htyped, List.append_nil]
    exact h
  | cons d ds ih =>
    obtain ⟨hd, hds⟩ := List.forall_mem_cons.1 hds
    obtain ⟨c, rest, rfl, hc, hrest⟩ := List.map_eq_cons_iff.1 htyped
    rw [List.append_cons]
    exact ih (h.concat (spells_of_toUpper hb hd hc)) hds hrest

def paddedDigits (base width n : Nat) : List Nat :=
  .replicate (width - (digits base n).length) 0 ++ digits base n

theorem padded_eq_map_digitChar (base width n : Nat) :
    padded base width n = (paddedDigits base width n).map digitChar := by
  rw [padded, paddedDigits, List.length_map, List.map_append, List.map_replicate]
  rfl

theorem lt_of_mem_paddedDigits (hpos : 0 < base) {width d : Nat}
    (hd : d ∈ paddedDigits base width n) : d < base := by
  rcases List.mem_append.1 hd with hzero | hdigit
  · rw [List.eq_of_mem_replicate hzero]
    exact hpos
  · exact lt_of_mem_digits hpos hdigit

theorem value_paddedDigits (hlt : 1 < base) (width n : Nat) :
    value base (paddedDigits base width n) = n := by
  unfold paddedDigits
  induction width - (digits base n).length with
  | zero => exact value_digits hlt n
  | succ k ih =>
    rw [List.replicate_succ, List.cons_append, value, List.foldl_cons, Nat.zero_mul]
    exact ih

theorem Writes.denotes (hlt : 1 < base) (hb : base ≤ 36) (h : Writes base cs n) :
    Denotes base cs n := by
  obtain ⟨width, htyped⟩ := h
  rw [padded_eq_map_digitChar] at htyped
  have hread := Denotes.append_digits hb .nil
    (fun _ => lt_of_mem_paddedDigits (Nat.zero_lt_of_lt hlt)) htyped
  rw [List.nil_append, ← value, value_paddedDigits hlt] at hread
  exact hread

theorem Writes.ne_nil (h : Writes base cs n) : cs ≠ [] := by
  obtain ⟨width, htyped⟩ := h
  rintro rfl
  have hdigits : digits base n = [] :=
    List.map_eq_nil_iff.1 (List.append_eq_nil_iff.1 htyped.symm).2
  rw [digits, List.reverse_eq_nil_iff] at hdigits
  exact absurd hdigits (List.cons_ne_nil _ _)

theorem toUpper_digitChar {d : Nat} (h : d < 36) : (digitChar d).toUpper = digitChar d := by
  have all : ∀ d : Fin 36, (digitChar d).toUpper = digitChar d := by decide
  exact all ⟨d, h⟩

theorem denotes_padded (hlt : 1 < base) (hb : base ≤ 36) (width n : Nat) :
    Denotes base (padded base width n) n := by
  have hpadded : (padded base width n).map Char.toUpper = padded base width n := by
    rw [padded_eq_map_digitChar, List.map_map]
    apply List.map_congr_left
    intro d hd
    exact toUpper_digitChar
      (Nat.lt_of_lt_of_le (lt_of_mem_paddedDigits (Nat.zero_lt_of_lt hlt) hd) hb)
  exact Writes.denotes hlt hb ⟨width, hpadded⟩

theorem toList_hex (width n : Nat) : (hex width n).toList = padded 16 width n :=
  String.toList_ofList

theorem toList_decimal (n : Nat) : (decimal n).toList = padded 10 1 n :=
  String.toList_ofList

theorem toList_address (width n : Nat) :
    (address width n).toList = '0' :: 'x' :: padded 16 width n := by
  rw [address, String.toList_append, toList_hex]
  rfl

theorem length_padded (base width n : Nat) :
    (padded base width n).length = max width (digits base n).length := by
  rw [padded, List.length_append, List.length_replicate, List.length_map, Nat.sub_add_eq_max]

theorem le_length_padded (base width n : Nat) : width ≤ (padded base width n).length := by
  rw [length_padded]
  exact Nat.le_max_left _ _

theorem length_digitsWithin_le {fuel k : Nat} (hk : 0 < k) (h : n < base.pow k) :
    (digitsWithin base fuel n).length ≤ k := by
  induction fuel generalizing n k with
  | zero => exact Nat.zero_le k
  | succ fuel ih =>
    rw [digitsWithin]
    split
    next => exact hk
    next hn =>
      obtain ⟨k, rfl⟩ := Nat.exists_eq_succ_of_ne_zero (Nat.ne_of_gt hk)
      change n < base.pow k * base at h
      have hpos : 0 < k := by
        apply Nat.pos_of_ne_zero
        rintro rfl
        change n < 1 * base at h
        rw [Nat.one_mul] at h
        exact hn h
      rw [Nat.mul_comm] at h
      exact Nat.succ_le_succ (ih hpos (Nat.div_lt_of_lt_mul h))

theorem length_digits_le {k : Nat} (hk : 0 < k) (h : n < base.pow k) :
    (digits base n).length ≤ k := by
  rw [digits, List.length_reverse]
  exact length_digitsWithin_le hk h

theorem length_padded_le {k width : Nat} (hk : 0 < k) (h : n < base.pow k) (hwidth : width ≤ k) :
    (padded base width n).length ≤ k := by
  rw [length_padded]
  exact Nat.max_le.2 ⟨hwidth, length_digits_le hk h⟩

theorem length_padded_of_lt {width : Nat} (hwidth : 0 < width) (h : n < base.pow width) :
    (padded base width n).length = width :=
  Nat.le_antisymm (length_padded_le hwidth h (Nat.le_refl width)) (le_length_padded base width n)

theorem not_mem_padded (hpos : 0 < base) (hb : base ≤ 36) {c : Char}
    (hc : digitValue? base c = none) (width n : Nat) : c ∉ padded base width n := by
  intro hmem
  rw [padded_eq_map_digitChar] at hmem
  obtain ⟨d, hd, rfl⟩ := List.mem_map.1 hmem
  rw [digitValue?_digitChar hb (lt_of_mem_paddedDigits hpos hd)] at hc
  cases hc

theorem not_mem_address {c : Char} (hc : charValue? c = none) (width n : Nat) :
    c ∉ (address width n).toList := by
  have hdigit : digitValue? 16 c = none := by rw [digitValue?, hc]; rfl
  have hzero : c ≠ '0' := by
    rintro rfl
    cases hc
  have hmark : c ≠ 'x' := by
    rintro rfl
    cases hc
  rw [toList_address]
  exact List.not_mem_cons_of_ne_of_not_mem hzero (List.not_mem_cons_of_ne_of_not_mem hmark
    (not_mem_padded (by decide) (by decide) hdigit width n))

theorem not_mem_decimal {c : Char} (hc : charValue? c = none) (n : Nat) :
    c ∉ (decimal n).toList := by
  have hdigit : digitValue? 10 c = none := by rw [digitValue?, hc]; rfl
  rw [toList_decimal]
  exact not_mem_padded (by decide) (by decide) hdigit 1 n

def valueOf (base : Nat) (cs : List Char) : Nat := value base (cs.filterMap charValue?)

theorem filterMap_charValue?_digitChar {ds : List Nat} (h : ∀ d ∈ ds, d < 36) :
    (ds.map digitChar).filterMap charValue? = ds := by
  induction ds with
  | nil => rfl
  | cons d ds ih =>
    obtain ⟨hd, hds⟩ := List.forall_mem_cons.1 h
    rw [List.map_cons, List.filterMap_cons_some (charValue?_digitChar hd), ih hds]

theorem valueOf_padded (hlt : 1 < base) (hb : base ≤ 36) (width n : Nat) :
    valueOf base (padded base width n) = n := by
  rw [valueOf, padded_eq_map_digitChar, filterMap_charValue?_digitChar,
    value_paddedDigits hlt]
  intro d hd
  exact Nat.lt_of_lt_of_le (lt_of_mem_paddedDigits (Nat.zero_lt_of_lt hlt) hd) hb

end Written

end ChipEight.Numeral
