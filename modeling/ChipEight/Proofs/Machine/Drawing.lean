import ChipEight.Proofs.Display.Blit
import ChipEight.Proofs.Instruction.Fields
import ChipEight.Proofs.Machine.Failure

namespace ChipEight.Machine

open Display (drawSprite)
open Sprite (Blits blits_drawSprite drawSprite_twice drawSprite_comm)

section Step

variable {δ κ ρ : Type} [Display δ] [Keypad κ] [RandomSource ρ]

/-- The next step draws `sprite`, the `n` bytes of memory from the index on, at `(Vx, Vy)`. It moves
past the word and sets VF, which may be Vx or Vy, only then; all else stays as it is. -/
structure StepDraws (m : Machine δ κ ρ) (x y : Register) (n : Nat) (sprite : List UInt8) :
    Prop where
  length_eq : sprite.length = n
  getElem?_eq : ∀ k < n, sprite[k]? = m.core.memory.byte? (m.core.i.toNat + k)
  step_eq : ∃ hit display journal,
    drawSprite m.display (m.core.getV x).toNat (m.core.getV y).toNat sprite = (hit, display) ∧
      m.step.2 =
        { m with
          core := { m.core with pc := m.core.pc + 2 }.setV .flag (if hit then 1 else 0)
          display, journal }

theorem step_draw_eq_ok_iff {m : Machine δ κ ρ} {word : Word} {x y : Register} {n : UInt8}
    (hp : m.core.PointsAt word) (hd : Instruction.decode word = some (.draw x y n)) :
    m.step.1 = .ok () ↔ m.core.i.toNat + n.toNat ≤ m.core.memory.size := by
  have hfits : (m.served word (.draw x y n)).1 = .ok () ↔
      m.core.advance.memory.Fits m.core.advance.i.toNat n.toNat := by
    rw [served, Core.execute, Memory.slice]
    by_cases h : m.core.advance.memory.Fits m.core.advance.i.toNat n.toNat <;> simp [h, serve]
  exact ((step_eq_ok_iff_of_decode (Core.fetch_eq_ok_iff.2 hp) hd).trans hfits).trans
    Memory.fits_iff

theorem exists_stepDraws {m : Machine δ κ ρ} {word : Word} {x y : Register} {n : UInt8}
    (hp : m.core.PointsAt word) (hd : Instruction.decode word = some (.draw x y n))
    (h : m.step.1 = .ok ()) : ∃ sprite, m.StepDraws x y n.toNat sprite := by
  have hf := Core.fetch_eq_ok_iff.2 hp
  have hserved := (step_eq_ok_iff_of_decode hf hd).1 h
  cases hs : m.core.advance.memory.slice m.core.advance.i.toNat n.toNat with
  | error fault => simp [served, Core.execute, hs, serve] at hserved
  | ok sprite =>
    have hstep : m.step.2 = (m.served word (.draw x y n)).2 := by rw [step_of_decode hf hd]
    exists sprite
    constructor
    case length_eq => exact Memory.length_of_slice hs
    case getElem?_eq => exact fun k hk => Memory.getElem?_of_slice hs hk
    case step_eq =>
      rw [hstep, served, Core.execute, hs]
      exact ⟨_, _, (m.enter word (.draw x y n)).journal, rfl, rfl⟩

end Step

/-- Drawing a sprite flips each pixel once for each mark of the sprite that falls on it, around the
edges, and reports a hit if a mark fell on a pixel that was lit at its turn. So a sprite drawn twice
leaves no trace, and the order of two draws does not matter. The word Dxyn draws so the `n` bytes at
the index, which have to be in memory, at the place in Vx and Vy. It puts the hit into VF and changes
nothing else but `pc`, which moves past the word. -/
theorem drawing_exact {δ κ ρ : Type} [Display δ] [Keypad κ] [RandomSource ρ] :
    (∀ (p : Picture) (x y : Nat) (rows : List UInt8),
      Blits p x y rows (drawSprite p x y rows).1 (drawSprite p x y rows).2 ∧
        (drawSprite (drawSprite p x y rows).2 x y rows).2 = p ∧
        ∀ (x' y' : Nat) (rows' : List UInt8),
          (drawSprite (drawSprite p x y rows).2 x' y' rows').2 =
            (drawSprite (drawSprite p x' y' rows').2 x y rows).2) ∧
    ∀ (m : Machine δ κ ρ) (x y : Register) (n : UInt8) (word : Word), n.toNat < 16 →
      m.core.PointsAt word →
      word.bits.toNat = 0xD000 + 0x100 * x.val + 0x10 * y.val + n.toNat →
      (m.step.1 = .ok () ↔ m.core.i.toNat + n.toNat ≤ m.core.memory.size) ∧
        (m.step.1 = .ok () → ∃ sprite, m.StepDraws x y n.toNat sprite) := by
  constructor
  · intro p x y rows
    exact ⟨blits_drawSprite p x y rows, drawSprite_twice p x y rows,
      fun x' y' rows' => drawSprite_comm p x y x' y' rows rows'⟩
  · intro m x y n word hn hp hbits
    have hd := Instruction.decode_of_draw hn hbits
    exact ⟨step_draw_eq_ok_iff hp hd, exists_stepDraws hp hd⟩

/-- VF holds 5, and the next word draws one row at (VF, VF). -/
def drawingAtFlag : Machine Picture NoKeypad ByteTape := (ofBytes [0x6F, 0x05, 0xDF, 0xF1]).step.2

/-- The row is drawn where VF said before the step, which hit nothing. -/
theorem drawing_exact_at_flag :
    drawingAtFlag.core.PointsAt ⟨0xDFF1⟩ ∧ drawingAtFlag.step.1 = .ok () ∧
      drawingAtFlag.step.2.core.getV .flag = 0 ∧
      drawingAtFlag.step.2.display = (drawSprite Picture.blank 5 5 [0x6F]).2 ∧
      drawingAtFlag.step.2.display.lit = 6 := by
  have hp : drawingAtFlag.core.PointsAt ⟨0xDFF1⟩ :=
    ⟨0xDF, 0xF1, by decide +kernel, by decide +kernel, by decide⟩
  obtain ⟨hdraws, hsteps⟩ := @drawing_exact Picture NoKeypad ByteTape _ _ _
  obtain ⟨hiff, hstepDraws⟩ :=
    hsteps drawingAtFlag .flag .flag 1 ⟨0xDFF1⟩ (by decide) hp (by decide)
  have hok : drawingAtFlag.step.1 = .ok () := hiff.2 (by decide +kernel)
  obtain ⟨sprite, hlength, hsprite, hit, display, journal, hdraw, hstep⟩ := hstepDraws hok
  obtain ⟨byte, rfl⟩ := List.length_eq_one_iff.1 hlength
  have hbyte : drawingAtFlag.core.memory.byte? (drawingAtFlag.core.i.toNat + 0) = some 0x6F := by
    decide +kernel
  obtain rfl : byte = 0x6F := Option.some.inj ((hsprite 0 (by decide)).trans hbyte)
  have hblank : drawingAtFlag.display = Picture.blank := rfl
  have hflag : (drawingAtFlag.core.getV .flag).toNat = 5 := by decide +kernel
  rw [hblank, hflag] at hdraw
  have hblits := (hdraws Picture.blank 5 5 [0x6F]).1
  rw [hdraw] at hblits
  have hmiss : hit = false := by
    rw [Bool.eq_false_iff]
    intro hhit
    obtain ⟨mark, _, hlit⟩ := (hblits.hit_iff_of_le (by decide)).1 hhit
    rw [Picture.pixel_blank] at hlit
    cases hlit
  refine ⟨hp, hok, ?_, ?_, ?_⟩
  · rw [hstep, hmiss]
    exact Core.getV_setV_self _ _ _
  · rw [hstep, hdraw]
  · rw [hstep]
    have hmarks : (Sprite.marks [0x6F]).length = 6 := by decide +kernel
    have hzero : Picture.blank.lit = 0 := by decide +kernel
    simpa [hmarks, hzero] using hblits.lit_of_le (by decide)

end ChipEight.Machine
