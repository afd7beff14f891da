import ChipEight.Proofs.Instruction.Assembly
import ChipEight.Proofs.Machine.Action
import ChipEight.Proofs.Machine.Recast

namespace ChipEight.Machine

section Execution

variable {δ κ ρ : Type} [Display δ] [Keypad κ] [RandomSource ρ]

theorem serve_journal (m : Machine δ κ ρ) (journal : Journal) (r : Request) :
    { m with journal }.serve r = ((m.serve r).1, { (m.serve r).2 with journal }) := by
  have hserve := serve_recast m.config id journal (r.mirrored_id m.display)
  have hsame : (m.serve r).2.recast m.config id id journal = { (m.serve r).2 with journal } := by
    obtain ⟨core, display, keypad, random, hleft⟩ := m.exists_serve_eq r
    rw [hleft]
    rfl
  rw [Request.map_id] at hserve
  exact hserve.trans (congrArg (Prod.mk (m.serve r).1) hsame)

theorem execute_of_decode (m : Machine δ κ ρ) (pc : UInt16) {word : Word}
    {instruction : Instruction} (hd : Instruction.decode word = some instruction) :
    m.execute pc word = ((m.serve (m.core.execute instruction)).1,
      { (m.serve (m.core.execute instruction)).2 with
        journal := m.journal.note (.executing pc word instruction) }) := by
  rw [execute, hd]
  exact m.serve_journal _ _

theorem exists_execute_eq_of_text {word word' : Word} {instruction instruction' : Instruction}
    (hd : Instruction.decode word = some instruction)
    (hd' : Instruction.decode word' = some instruction') (h : instruction.text = instruction'.text)
    (m : Machine δ κ ρ) (pc : UInt16) :
    ∃ journal, m.execute pc word' =
      ((m.execute pc word).1, { (m.execute pc word).2 with journal }) := by
  obtain rfl := Instruction.eq_of_text h
  rw [m.execute_of_decode pc hd, m.execute_of_decode pc hd']
  exact ⟨m.journal.note (.executing pc word' instruction), rfl⟩

end Execution

/-- Instructions over any registers, as long as these have numbers of their own, are the same if
their texts are. So words that are disassembled to the same text have the same result on every
machine, and leave it the same but for the journal. -/
theorem disassembly_lossless :
    (∀ {R : Type} (number : R → Nat), (∀ x y, number x = number y → x = y) →
      ∀ i j : InstructionOver R, (i.assembly number).text = (j.assembly number).text → i = j) ∧
    ∀ {δ κ ρ : Type} [Display δ] [Keypad κ] [RandomSource ρ] (word word' : Word)
      (instruction instruction' : Instruction),
      Instruction.decode word = some instruction → Instruction.decode word' = some instruction' →
      instruction.text = instruction'.text →
      ∀ (m : Machine δ κ ρ) (pc : UInt16), ∃ journal,
        m.execute pc word' = ((m.execute pc word).1, { (m.execute pc word).2 with journal }) := by
  constructor
  · intro R number hnumber i j h
    exact InstructionOver.eq_of_text hnumber h
  · intro δ κ ρ _ _ _ word word' instruction instruction' hd hd' h
    exact exists_execute_eq_of_text hd hd' h

/-- Two words for one shift: neither the text nor the machine tells the second register. -/
theorem disassembly_lossless_shift :
    Instruction.decode ⟨0x8126⟩ = some (.shiftRight (Word.x ⟨0x8126⟩)) ∧
      Instruction.decode ⟨0x8136⟩ = some (.shiftRight (Word.x ⟨0x8136⟩)) ∧
      Instruction.text (.shiftRight (Word.x ⟨0x8126⟩)) = "SHR V1" ∧
      InstructionOver.shiftRight (Word.x ⟨0x8126⟩) = .shiftRight (Word.x ⟨0x8136⟩) ∧
      ∃ journal, (fresh Picture.blank NoKeypad.mk (ByteTape.ofBytes [])).execute 0x50 ⟨0x8136⟩ =
        (((fresh Picture.blank NoKeypad.mk (ByteTape.ofBytes [])).execute 0x50 ⟨0x8126⟩).1,
          { ((fresh Picture.blank NoKeypad.mk (ByteTape.ofBytes [])).execute 0x50 ⟨0x8126⟩).2 with
            journal }) := by
  have hd : Instruction.decode ⟨0x8126⟩ = some (.shiftRight (Word.x ⟨0x8126⟩)) := by decide
  have hd' : Instruction.decode ⟨0x8136⟩ = some (.shiftRight (Word.x ⟨0x8136⟩)) := by decide
  have htext : Instruction.text (.shiftRight (Word.x ⟨0x8126⟩)) =
      Instruction.text (.shiftRight (Word.x ⟨0x8136⟩)) := by decide
  exact ⟨hd, hd', by decide, disassembly_lossless.1 Fin.val (fun _ _ => Fin.ext) _ _ htext,
    disassembly_lossless.2 _ _ _ _ hd hd' htext _ _⟩

end ChipEight.Machine
