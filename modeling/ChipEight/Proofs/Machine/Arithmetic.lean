import ChipEight.Proofs.Core.Arithmetic
import ChipEight.Proofs.Instruction.Fields
import ChipEight.Proofs.Machine.Failure

namespace ChipEight.Machine

variable {δ κ ρ : Type} [Display δ] [Keypad κ] [RandomSource ρ]

/-- The next step succeeds. It moves past the word, puts a value into Vx and perhaps a flag into VF,
and leaves all else as it is. -/
structure StepPuts (m : Machine δ κ ρ) (x : Register) (value : Nat) (flag : Option Nat) :
    Prop where
  succeeds : m.step.1 = .ok ()
  puts : Core.Puts { m.core with pc := m.core.pc + 2 } m.step.2.core x value flag
  rest : ∃ journal, m.step.2 = { m with core := m.step.2.core, journal }

theorem stepPuts_of_execute {m : Machine δ κ ρ} {word : Word} {instruction : Instruction}
    (hp : m.core.PointsAt word) (hd : Instruction.decode word = some instruction) {c : Core}
    (hc : m.core.advance.execute instruction = .done c) {x : Register} {value : Nat}
    {flag : Option Nat} (hputs : m.core.advance.Puts c x value flag) :
    m.StepPuts x value flag := by
  have hstep := step_of_done (Core.fetch_eq_ok_iff.2 hp) hd hc
  constructor
  · rw [hstep]
  · rw [hstep]
    exact hputs
  · rw [hstep]
    exact ⟨_, rfl⟩

def arithmeticNibbles : List Nat := [0x0, 0x1, 0x2, 0x3, 0x4, 0x5, 0x6, 0x7, 0xE]

theorem exists_decodeArithmetic {n : Nat} (hn : n ∈ arithmeticNibbles) (x y : Register) :
    n < 16 ∧ ∃ instruction, Instruction.decodeArithmetic x y n = some instruction := by
  simp only [arithmeticNibbles, List.mem_cons, List.not_mem_nil, or_false] at hn
  rcases hn with rfl | rfl | rfl | rfl | rfl | rfl | rfl | rfl | rfl <;>
    exact ⟨by decide, _, rfl⟩

/-- The word 8xyn, for `n` up to 7 and for E, computes exactly what the numbers in Vx and Vy
before the step come to, also if `x` and `y` are the same or one of them is F: the value goes into
Vx, and the flag, where the instruction has one, into VF unless VF is Vx. The word 7xkk adds to Vx
without a flag. Nothing else changes but `pc`, which moves past the word. -/
theorem arithmetic_exact (m : Machine δ κ ρ) (x y : Register) (word : Word)
    (hp : m.core.PointsAt word) :
    (∀ n ∈ arithmeticNibbles,
      word.bits.toNat = 0x8000 + 0x100 * x.val + 0x10 * y.val + n →
      ∃ value flag, Computes (m.core.getV x).toNat (m.core.getV y).toNat n value flag ∧
        m.StepPuts x value flag) ∧
    ∀ kk : UInt8, word.bits.toNat = 0x7000 + 0x100 * x.val + kk.toNat →
      m.StepPuts x (((m.core.getV x).toNat + kk.toNat) % 256) none := by
  constructor
  · intro n hn hbits
    obtain ⟨hlt, instruction, hinstruction⟩ := exists_decodeArithmetic hn x y
    have hd : Instruction.decode word = some instruction :=
      (Instruction.decode_of_arithmetic hlt hbits).trans hinstruction
    obtain ⟨c, value, flag, hc, hcomputes, hputs⟩ :=
      m.core.advance.exists_puts_of_decodeArithmetic hinstruction
    exact ⟨value, flag, hcomputes, stepPuts_of_execute hp hd hc hputs⟩
  · intro kk hbits
    obtain ⟨c, hc, hputs⟩ := m.core.advance.exists_puts_addByte x kk
    exact stepPuts_of_execute hp (Instruction.decode_of_addByte hbits) hc hputs

/-- VF holds 200 and V1 holds 100, and the next word adds the one to the other. -/
def adding : Machine Picture NoKeypad ByteTape :=
  (ofBytes [0x6F, 0xC8, 0x61, 0x64, 0x8F, 0x14]).step.2.step.2

/-- The sum stays in VF, and not the carry. -/
theorem arithmetic_exact_in_flag :
    adding.core.PointsAt ⟨0x8F14⟩ ∧ 0x4 ∈ arithmeticNibbles ∧ adding.step.1 = .ok () ∧
      (adding.step.2.core.getV .flag).toNat = 44 := by
  have hp : adding.core.PointsAt ⟨0x8F14⟩ :=
    ⟨0x8F, 0x14, by decide +kernel, by decide +kernel, by decide⟩
  have hn : 0x4 ∈ arithmeticNibbles := by decide
  have ha : (adding.core.getV .flag).toNat = 200 := by decide +kernel
  have hb : (adding.core.getV 1).toNat = 100 := by decide +kernel
  obtain ⟨value, flag, hcomputes, hstep⟩ :=
    (arithmetic_exact adding .flag 1 ⟨0x8F14⟩ hp).1 0x4 hn (by decide)
  rw [ha, hb] at hcomputes
  have hvalue : (adding.step.2.core.getV .flag).toNat = value := hstep.puts.value_eq
  have hlt := (adding.step.2.core.getV .flag).toNat_lt
  cases hcomputes with
  | add hflag hsum => exact ⟨hp, hn, hstep.succeeds, by omega⟩

end ChipEight.Machine
