import ChipEight.Proofs.Instruction.Fields
import ChipEight.Proofs.Machine.Action

namespace ChipEight

/-- A word that a step came upon, and where. -/
structure Encounter where
  address : UInt16
  word : Word
  deriving DecidableEq

namespace Encounter

def notice (e : Encounter) : Notice :=
  match Instruction.decode e.word with
  | some instruction => .executing e.address e.word instruction
  | none => .skipped e.address e.word

def line (e : Encounter) : String :=
  match Instruction.decode e.word with
  | some instruction =>
    "TRACE " ++ (Numeral.address 3 e.address.toNat ++ "  " ++ e.word.text ++ "  " ++
      instruction.text)
  | none =>
    "WARN " ++ ("skipping unknown opcode " ++ e.word.text ++ " at " ++
      Numeral.address 3 e.address.toNat)

theorem line_notice (e : Encounter) : e.notice.line = e.line := by
  have htrace : "TRACE" ++ " " = "TRACE " := rfl
  have hwarn : "WARN" ++ " " = "WARN " := rfl
  unfold notice line
  cases Instruction.decode e.word with
  | some instruction => rw [← htrace]; rfl
  | none => rw [← hwarn]; rfl

/-- The encounter that a line tells of. An address may have more than three digits, and the blank
after it shows where it ends. -/
def read? (line : String) : Option Encounter :=
  match line.toList with
  | 'T' :: 'R' :: 'A' :: 'C' :: 'E' :: ' ' :: '0' :: 'x' :: cs =>
    some ⟨.ofNat (Numeral.valueOf 16 (cs.takeWhile (· ≠ ' '))),
      ⟨.ofNat (Numeral.valueOf 16 (((cs.dropWhile (· ≠ ' ')).drop 2).take 4))⟩⟩
  | 'W' :: cs =>
    -- The word is behind "ARN skipping unknown opcode ", the address behind " at 0x".
    let told := cs.drop 28
    some ⟨.ofNat (Numeral.valueOf 16 ((told.drop 4).drop 6)),
      ⟨.ofNat (Numeral.valueOf 16 (told.take 4))⟩⟩
  | _ => none

theorem toList_line_of_some {e : Encounter} {instruction : Instruction}
    (h : Instruction.decode e.word = some instruction) :
    e.line.toList =
      'T' :: 'R' :: 'A' :: 'C' :: 'E' :: ' ' :: '0' :: 'x' ::
        (Numeral.padded 16 3 e.address.toNat ++
          ' ' :: ' ' :: (Numeral.padded 16 4 e.word.bits.toNat ++
            ' ' :: ' ' :: instruction.text.toList)) := by
  simp only [line, h, String.toList_append, Numeral.toList_address, Word.toList_text,
    List.append_assoc]
  rfl

theorem toList_line_of_none {e : Encounter} (h : Instruction.decode e.word = none) :
    e.line.toList =
      'W' :: ("ARN skipping unknown opcode ".toList ++ (Numeral.padded 16 4 e.word.bits.toNat ++
        (" at 0x".toList ++ Numeral.padded 16 3 e.address.toNat))) := by
  simp only [line, h, String.toList_append, Numeral.toList_address, Word.toList_text,
    List.append_assoc]
  rfl

theorem read?_line (e : Encounter) : read? e.line = some e := by
  have hword : (Numeral.padded 16 4 e.word.bits.toNat).length = 4 :=
    Numeral.length_padded_of_lt (by decide) e.word.bits.toNat_lt
  have hvalue (width n : Nat) : Numeral.valueOf 16 (Numeral.padded 16 width n) = n :=
    Numeral.valueOf_padded (by decide) (by decide) width n
  cases h : Instruction.decode e.word with
  | some instruction =>
    have haddress : ∀ c ∈ Numeral.padded 16 3 e.address.toNat, decide (c ≠ ' ') = true := by
      intro c hc
      apply decide_eq_true
      rintro rfl
      exact Numeral.not_mem_padded (by decide) (by decide) rfl 3 e.address.toNat hc
    simp only [read?, toList_line_of_some h]
    rw [List.takeWhile_append_of_pos haddress, List.dropWhile_append_of_pos haddress,
      List.takeWhile_cons_of_neg (by decide), List.dropWhile_cons_of_neg (by decide),
      List.append_nil]
    simp only [List.drop_succ_cons, List.drop_zero]
    rw [List.take_left' hword, hvalue, hvalue, UInt16.ofNat_toNat, UInt16.ofNat_toNat]
  | none =>
    have hfront : "ARN skipping unknown opcode ".toList.length = 28 := rfl
    have hat : " at 0x".toList.length = 6 := rfl
    simp only [read?, toList_line_of_none h]
    rw [List.drop_left' hfront, List.drop_left' hword, List.drop_left' hat,
      List.take_left' hword, hvalue, hvalue, UInt16.ofNat_toNat, UInt16.ofNat_toNat]

theorem filterMap_read?_map_line (es : List Encounter) : (es.map line).filterMap read? = es := by
  induction es with
  | nil => rfl
  | cons e es ih => rw [List.map_cons, List.filterMap_cons_some (read?_line e), ih]

theorem level_notice (e : Encounter) : e.notice.level = .trace ∨ e.notice.level = .warn := by
  unfold notice
  cases Instruction.decode e.word with
  | some instruction => exact .inl rfl
  | none => exact .inr rfl

end Encounter

namespace Journal

/-- The trace and the warn lines, which tell of words. -/
def records (j : Journal) : List String :=
  (j.notices.toList.filter fun n => n.level = .trace ∨ n.level = .warn).map Notice.line

theorem threshold_note (j : Journal) (n : Notice) : (j.note n).threshold = j.threshold := by
  unfold note
  split
  · rfl
  · rfl

theorem keeps_of_trace {j : Journal} (h : j.threshold = some .trace) (level : Level) :
    j.Keeps level := by
  have hrank : level.rank ≤ Level.trace.rank := by
    cases level <;> decide
  exact ⟨.trace, h, hrank⟩

theorem records_note {j : Journal} (h : j.threshold = some .trace) (e : Encounter) :
    (j.note e.notice).records = j.records ++ [e.line] := by
  have hkept : [e.notice].filter (fun n => n.level = .trace ∨ n.level = .warn) = [e.notice] := by
    rw [List.filter_eq_self]
    intro n hn
    rw [List.mem_singleton.1 hn]
    exact decide_eq_true e.level_notice
  rw [note, if_pos (keeps_of_trace h _), records, Array.toList_push, List.filter_append, hkept,
    List.map_append, List.map_singleton, e.line_notice]
  rfl

theorem records_note_loaded (j : Journal) (count offset : Nat) :
    (j.note (.loaded count offset)).records = j.records := by
  unfold note
  split
  · rw [records, Array.toList_push, List.filter_append]
    exact congrArg _ (List.append_nil _)
  · rfl

end Journal

namespace Machine

variable {δ κ ρ : Type}

/-- What the next step comes upon: the word at `pc`, if it is an instruction or if words that are
none are passed over. -/
def encounter? (m : Machine δ κ ρ) : Option Encounter :=
  match m.core.fetch with
  | .ok word =>
    if (Instruction.decode word).isSome ∨ m.config.strict = false then some ⟨m.core.pc, word⟩
    else none
  | .error _ => none

theorem records_load (m : Machine δ κ ρ) (source : ByteSource) (offset : UInt16) :
    (m.load source offset).2.journal.records = m.journal.records := by
  unfold load
  cases m.core.memory.load source offset.toNat with
  | error fault => rfl
  | ok loaded => exact Journal.records_note_loaded m.journal loaded.1 offset.toNat

theorem threshold_load (m : Machine δ κ ρ) (source : ByteSource) (offset : UInt16) :
    (m.load source offset).2.journal.threshold = m.journal.threshold := by
  unfold load
  cases m.core.memory.load source offset.toNat with
  | error fault => rfl
  | ok loaded => exact Journal.threshold_note m.journal (.loaded loaded.1 offset.toNat)

variable [Display δ] [Keypad κ] [RandomSource ρ]

/-- What an action comes upon. A step counts whether or not it succeeds. -/
def met (m : Machine δ κ ρ) : Action δ κ → List Encounter
  | .step => m.encounter?.toList
  | _ => []

def encounters (m : Machine δ κ ρ) : List (Action δ κ) → List Encounter
  | [] => []
  | action :: actions => m.met action ++ (m.act action).encounters actions

theorem journal_step (m : Machine δ κ ρ) :
    m.step.2.journal =
      match m.encounter? with
      | some e => m.journal.note e.notice
      | none => m.journal := by
  unfold encounter?
  cases hf : m.core.fetch with
  | error fault => rw [step_of_fetch_error hf]
  | ok word =>
    cases hd : Instruction.decode word with
    | none =>
      rw [step_of_unknown hf hd]
      cases hs : m.config.strict with
      | false => simp [hd, Encounter.notice, note]
      | true => simp [hd]
    | some instruction =>
      rw [step_of_decode hf hd]
      obtain ⟨core, display, keypad, random, hserve⟩ := exists_serve_eq
        (m.enter word instruction) (m.core.advance.execute instruction)
      simp only [served, hserve]
      simp [hd, Encounter.notice, enter, note]

theorem threshold_act (m : Machine δ κ ρ) (action : Action δ κ) :
    (m.act action).journal.threshold = m.journal.threshold := by
  cases action with
  | step =>
    rw [act, journal_step]
    cases m.encounter? with
    | none => rfl
    | some e => exact Journal.threshold_note m.journal e.notice
  | load source offset => exact threshold_load m source offset
  | _ => rfl

theorem records_act {m : Machine δ κ ρ} (h : m.journal.threshold = some .trace)
    (action : Action δ κ) :
    (m.act action).journal.records =
      m.journal.records ++ (m.met action).map Encounter.line := by
  cases action with
  | step =>
    rw [act, met, journal_step]
    cases m.encounter? with
    | none => exact (List.append_nil _).symm
    | some e => exact Journal.records_note h e
  | load source offset => exact (records_load m source offset).trans (List.append_nil _).symm
  | _ => exact (List.append_nil _).symm

theorem records_perform {m : Machine δ κ ρ} (h : m.journal.threshold = some .trace)
    (actions : List (Action δ κ)) :
    (m.perform actions).journal.records =
      m.journal.records ++ (m.encounters actions).map Encounter.line := by
  induction actions generalizing m with
  | nil => exact (List.append_nil _).symm
  | cons action actions ih =>
    have hrest := ih ((threshold_act m action).trans h)
    rw [records_act h] at hrest
    rw [encounters, List.map_append, ← List.append_assoc]
    exact hrest

/-- Where everything is noted down, the trace and warn lines that a history adds are, in order and
without others, one for each step that came upon a word which it executed, or tried to, or passed
over. The lines tell which words these were and where they stood. -/
theorem trace_complete (m : Machine δ κ ρ) (h : m.journal.threshold = some .trace)
    (actions : List (Action δ κ)) :
    (m.perform actions).journal.records =
        m.journal.records ++ (m.encounters actions).map Encounter.line ∧
      ((m.encounters actions).map Encounter.line).filterMap Encounter.read? =
        m.encounters actions ∧
      (∀ others : List Encounter,
        others.map Encounter.line = (m.encounters actions).map Encounter.line →
          others = m.encounters actions) ∧
      ∀ e ∈ m.encounters actions, e.word.text.length = 4 := by
  refine ⟨records_perform h actions, Encounter.filterMap_read?_map_line _, ?_, ?_⟩
  · intro others heq
    have hread := Encounter.filterMap_read?_map_line others
    rw [heq, Encounter.filterMap_read?_map_line] at hread
    exact hread.symm
  · intro e _
    exact e.word.length_text

/-- A load, a return with no call open and a word that is no instruction; the memory ends there. -/
def tracing : Machine Picture NoKeypad ByteTape :=
  { ofBytes [0x60, 0x05, 0x00, 0xEE, 0x51, 0x21] with
    config := ⟨6, 0, false⟩
    journal := .start (some .trace) }

/-- The second step and the fourth fail, and only the fourth leaves no line. -/
theorem trace_complete_failing :
    tracing.journal.threshold = some .trace ∧
      (tracing.perform [.step]).step.1 = .error (.instruction 2 ⟨0x00EE⟩ .stackUnderflow) ∧
      (tracing.perform [.step, .step, .step]).step.1 = .error (.outOfBounds 6 2 6) ∧
      (tracing.perform [.step, .step, .step, .step]).journal.records =
        ["TRACE 0x000  6005  LD V0, 0x05", "TRACE 0x002  00EE  RET",
          "WARN skipping unknown opcode 5121 at 0x004"] ∧
      (tracing.perform [.step, .step, .step, .step]).journal.records.filterMap Encounter.read? =
        [⟨0, ⟨0x6005⟩⟩, ⟨2, ⟨0x00EE⟩⟩, ⟨4, ⟨0x5121⟩⟩] := by
  have hmet : tracing.encounters [.step, .step, .step, .step] =
      [⟨0, ⟨0x6005⟩⟩, ⟨2, ⟨0x00EE⟩⟩, ⟨4, ⟨0x5121⟩⟩] := by decide +kernel
  obtain ⟨hrecords, hread, _⟩ := trace_complete tracing rfl [.step, .step, .step, .step]
  rw [hrecords, hmet]
  rw [hmet] at hread
  exact ⟨rfl, rfl, rfl, by decide +kernel, hread⟩

end Machine

end ChipEight
