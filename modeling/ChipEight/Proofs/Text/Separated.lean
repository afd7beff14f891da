namespace ChipEight.Text

theorem toList_intercalate_cons (separator text : String) (texts : List String) :
    (separator.intercalate (text :: texts)).toList =
      text.toList ++ texts.flatMap fun next => separator.toList ++ next.toList := by
  induction texts generalizing text with
  | nil => rw [String.intercalate_singleton, List.flatMap_nil, List.append_nil]
  | cons next texts ih =>
    rw [String.intercalate_cons_cons, String.toList_append, String.toList_append, ih,
      List.flatMap_cons, List.append_assoc, List.append_assoc]

theorem toList_pushn (s : String) (c : Char) (count : Nat) :
    (s.pushn c count).toList = s.toList ++ .replicate count c := by
  rw [String.pushn_eq_repeat_push]
  induction count with
  | zero => exact (List.append_nil _).symm
  | succ count ih =>
    rw [Nat.repeat, String.toList_push, ih, List.append_assoc, List.replicate_succ']

section Separator

variable {separator : String} {texts texts' : List String}

theorem toList_intercalate_eq_drop (separator : String) (texts : List String) :
    (separator.intercalate texts).toList =
      (texts.flatMap fun next => separator.toList ++ next.toList).drop separator.length := by
  cases texts with
  | nil => rw [String.intercalate_nil, List.flatMap_nil, List.drop_nil, String.toList_empty]
  | cons text texts =>
    rw [toList_intercalate_cons, List.flatMap_cons, List.append_assoc,
      List.drop_left' String.length_toList]

theorem not_mem_intercalate {c : Char} (hs : c ∉ separator.toList)
    (h : ∀ text ∈ texts, c ∉ text.toList) : c ∉ (separator.intercalate texts).toList := by
  rw [toList_intercalate_eq_drop]
  intro hmem
  obtain ⟨next, hnext, hin⟩ := List.mem_flatMap.1 (List.mem_of_mem_drop hmem)
  rcases List.mem_append.1 hin with hin | hin
  · exact hs hin
  · exact h next hnext hin

end Separator

variable {α : Type} {c : Char} {first first' rest rest' : List Char}

/-- Up to the first `c`, equal texts are equal, and so are they behind it. -/
theorem append_cons_inj (h : c ∉ first) (h' : c ∉ first')
    (heq : first ++ c :: rest = first' ++ c :: rest') : first = first' ∧ rest = rest' := by
  induction first generalizing first' with
  | nil =>
    cases first' with
    | nil => exact ⟨rfl, (List.cons.inj heq).2⟩
    | cons d first' =>
      obtain ⟨rfl, _⟩ := List.cons.inj heq
      exact absurd List.mem_cons_self h'
  | cons d first ih =>
    cases first' with
    | nil =>
      obtain ⟨rfl, _⟩ := List.cons.inj heq
      exact absurd List.mem_cons_self h
    | cons e first' =>
      obtain ⟨rfl, htail⟩ := List.cons.inj heq
      obtain ⟨rfl, hrest⟩ := ih (fun hmem => h (List.mem_cons_of_mem d hmem))
        (fun hmem => h' (List.mem_cons_of_mem d hmem)) htail
      exact ⟨rfl, hrest⟩

theorem ne_append_cons (h : c ∉ first) : first ≠ first' ++ c :: rest := by
  rintro rfl
  exact h (List.mem_append_right first' List.mem_cons_self)

/-- Parts without a `c` are told apart when each but the first has a `c` before it. -/
theorem separated_inj {part : α → List Char} (gap : List Char) (hpart : ∀ a, c ∉ part a)
    (hinj : ∀ a b, part a = part b → a = b) {a b : α} {as bs : List α}
    (heq : part a ++ as.flatMap (fun u => c :: (gap ++ part u)) =
      part b ++ bs.flatMap (fun u => c :: (gap ++ part u))) : a = b ∧ as = bs := by
  induction as generalizing a b bs with
  | nil =>
    rw [List.flatMap_nil, List.append_nil] at heq
    cases bs with
    | nil =>
      rw [List.flatMap_nil, List.append_nil] at heq
      exact ⟨hinj a b heq, rfl⟩
    | cons b' bs => exact absurd heq (ne_append_cons (hpart a))
  | cons a' as ih =>
    cases bs with
    | nil =>
      rw [List.flatMap_nil, List.append_nil] at heq
      exact absurd heq.symm (ne_append_cons (hpart b))
    | cons b' bs =>
      rw [List.flatMap_cons, List.flatMap_cons, List.cons_append, List.cons_append,
        List.append_assoc, List.append_assoc] at heq
      obtain ⟨hpart', htail⟩ := append_cons_inj (hpart a) (hpart b) heq
      obtain ⟨rfl, rfl⟩ := ih (List.append_cancel_left htail)
      exact ⟨hinj a b hpart', rfl⟩

end ChipEight.Text
