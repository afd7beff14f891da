import ChipEight.Proofs.Machine.Recast

namespace ChipEight

open Display (AlwaysRenders draw)
open Stroke (unrendered)

namespace Machine

variable {δ κ ρ : Type}

def untimed (m : Machine δ κ ρ) : Machine δ κ ρ := { m with core := m.core.untimed }

section Untimed

variable [Display δ] [Keypad κ] [RandomSource ρ]

theorem serve_untimed (m : Machine δ κ ρ) (r : Request) :
    m.untimed.serve (r.map Core.untimed) = ((m.serve r).1, (m.serve r).2.untimed) := by
  have hserve := serve_recast m.config Core.untimed m.journal (r.mirrored_id m.display)
  obtain ⟨core, display, keypad, random, hleft⟩ := m.exists_serve_eq r
  refine hserve.trans (Prod.ext rfl ?_)
  simp only [Prod.map, hleft]
  rfl

theorem step_untimed {m : Machine δ κ ρ} (h : ∀ x, m.next? ≠ some (.readDelay x)) :
    m.untimed.step.1 = m.step.1 ∧ m.untimed.step.2.untimed = m.step.2.untimed := by
  cases hf : m.core.fetch with
  | error fault =>
    have hfu : m.untimed.core.fetch = .error fault := hf
    rw [step_of_fetch_error hf, step_of_fetch_error hfu]
    exact ⟨rfl, rfl⟩
  | ok word =>
    have hfu : m.untimed.core.fetch = .ok word := hf
    cases hd : Instruction.decode word with
    | none =>
      have hconfig : m.untimed.config = m.config := rfl
      rw [step_of_unknown hf hd, step_of_unknown hfu hd, hconfig]
      cases m.config.strict with
      | false => exact ⟨rfl, rfl⟩
      | true => exact ⟨rfl, rfl⟩
    | some instruction =>
      have hne : ∀ x, instruction ≠ .readDelay x := by
        rintro x rfl
        exact h x (next?_eq_some_iff.2 ⟨word, hf, hd⟩)
      have hcore := m.core.advance.untimed_execute hne
      have hserve := serve_untimed (m.enter word instruction) (m.core.advance.execute instruction)
      have hserve' := serve_untimed (m.untimed.enter word instruction)
        (m.untimed.core.advance.execute instruction)
      rw [← hcore] at hserve
      obtain ⟨hresult, hleft⟩ := Prod.ext_iff.1 (hserve'.symm.trans hserve)
      rw [step_of_decode hf hd, step_of_decode hfu hd]
      exact ⟨congrArg (Except.mapError _) hresult, hleft⟩

end Untimed

def shownOn (m : Machine δ κ ρ) (display : δ) (frames : Nat) : Machine δ κ ρ :=
  { m with display, frames }

section Redraw

variable [Display δ] [LawfulDisplay δ] [Keypad κ] [RandomSource ρ]

theorem serve_redraw {d : δ} (h : AlwaysRenders d) {m : Machine δ κ ρ} {strokes : List Stroke}
    (hm : m.display = draw d strokes) (frames : Nat) (r : Request) :
    ∃ more, (m.serve r).2.display = draw d more ∧
      (m.shownOn (draw d (unrendered strokes)) frames).serve r =
        ((m.serve r).1, (m.serve r).2.shownOn (draw d (unrendered more)) frames) := by
  cases r with
  | done core => exact ⟨strokes, hm, rfl⟩
  | fail fault => exact ⟨strokes, hm, rfl⟩
  | clearScreen core =>
    refine ⟨strokes ++ [.clear], ?_⟩
    have hclear := LawfulDisplay.clear_draw h strokes
    rcases hd : Display.clear (draw d strokes) with ⟨result, left⟩
    rcases hd' : Display.clear (draw d (unrendered strokes)) with ⟨result', left'⟩
    obtain rfl : result = result' := by rwa [hd, hd'] at hclear
    cases result <;>
      simp [serve, shownOn, hm, hd, hd', Display.draw_append, Display.apply,
        Stroke.unrendered_cons]
  | draw x y sprite resume =>
    have hhit := LawfulDisplay.drawDots_draw h strokes (Sprite.dots x y sprite)
    refine ⟨strokes ++ Display.strokes (Sprite.dots x y sprite), ?_, ?_⟩
    · rw [Display.draw_append, ← Display.snd_drawDots, ← hm]
      rfl
    · simp [serve, shownOn, Display.drawSprite, hm, hhit, Display.snd_drawDots, Display.draw_append]
  | testKey key resume => exact ⟨strokes, hm, rfl⟩
  | awaitKey resume =>
    refine ⟨strokes, ?_⟩
    rcases hk : Keypad.awaitPress m.keypad with ⟨_ | key, k⟩
    · simp [serve, shownOn, hk, hm]
    · cases hc : resume key <;> simp [serve, shownOn, hk, hc, hm]
  | randomByte resume => exact ⟨strokes, hm, rfl⟩

theorem step_redraw {d : δ} (h : AlwaysRenders d) {m : Machine δ κ ρ} {strokes : List Stroke}
    (hm : m.display = draw d strokes) (frames : Nat) :
    ∃ more, m.step.2.display = draw d more ∧
      (m.shownOn (draw d (unrendered strokes)) frames).step =
        (m.step.1, m.step.2.shownOn (draw d (unrendered more)) frames) := by
  cases hf : m.core.fetch with
  | error fault =>
    rw [step_of_fetch_error hf]
    exact ⟨strokes, hm, step_of_fetch_error hf⟩
  | ok word =>
    cases hd : Instruction.decode word with
    | none =>
      rw [step_of_unknown hf hd, step_of_unknown (m := m.shownOn _ frames) hf hd]
      have hconfig : (m.shownOn (draw d (unrendered strokes)) frames).config = m.config := rfl
      rw [hconfig]
      cases m.config.strict with
      | false => exact ⟨strokes, hm, rfl⟩
      | true => exact ⟨strokes, hm, rfl⟩
    | some instruction =>
      obtain ⟨more, hmore, hserve⟩ := serve_redraw h (m := m.enter word instruction) hm frames
        (m.core.advance.execute instruction)
      rw [step_of_decode hf hd, step_of_decode (m := m.shownOn _ frames) hf hd]
      refine ⟨more, hmore, ?_⟩
      obtain ⟨hresult, hleft⟩ := Prod.ext_iff.1 hserve
      exact Prod.ext (congrArg (Except.mapError _) hresult) hleft

end Redraw

/-- One machine follows another that is never rendered. -/
def Follows [Display δ] (d : δ) (m x : Machine δ κ ρ) : Prop :=
  ∃ strokes frames, m.display = draw d strokes ∧
    x.untimed = m.untimed.shownOn (draw d (unrendered strokes)) frames

namespace Follows

variable [Display δ] {d : δ} {m x : Machine δ κ ρ}

theorem refl (m : Machine δ κ ρ) : Follows m.display m m := ⟨[], m.frames, rfl, rfl⟩

theorem tick (h : Follows d m x) : Follows d m.tick x := h

theorem render (h : Follows d m x) : Follows d m.render.2 x := by
  obtain ⟨strokes, frames, hm, hx⟩ := h
  refine ⟨strokes ++ [.render], frames, ?_, ?_⟩
  · rw [Display.draw_append, ← hm]
    rfl
  · rw [Stroke.unrendered_append, Stroke.unrendered_render, Stroke.unrendered_nil, List.append_nil]
    exact hx

theorem note (h : Follows d m x) (n : Notice) : Follows d (m.note n) (x.note n) := by
  obtain ⟨strokes, frames, hm, hx⟩ := h
  exact ⟨strokes, frames, hm, congrArg (·.note n) hx⟩

theorem core (h : Follows d m x) : m.core.untimed = x.core.untimed := by
  obtain ⟨_, _, _, hx⟩ := h
  exact (congrArg Machine.core hx).symm

theorem pc (h : Follows d m x) : m.core.pc = x.core.pc := by
  change m.core.untimed.pc = x.core.untimed.pc
  rw [h.core]

theorem next? (h : Follows d m x) : m.next? = x.next? := by
  obtain ⟨_, _, _, hx⟩ := h
  exact (congrArg Machine.next? hx).symm

variable [LawfulDisplay δ] [Keypad κ] [RandomSource ρ]

theorem step (h : Follows d m x) (hd : AlwaysRenders d)
    (hne : ∀ i, x.next? ≠ some (.readDelay i)) :
    m.step.1 = x.step.1 ∧ Follows d m.step.2 x.step.2 := by
  have hm := step_untimed fun i => h.next?.symm ▸ hne i
  have hx := step_untimed hne
  obtain ⟨strokes, frames, hdisplay, heq⟩ := h
  obtain ⟨more, hmore, hstep⟩ := step_redraw hd (m := m.untimed) hdisplay frames
  rw [← heq] at hstep
  obtain ⟨hresult, hleft⟩ := Prod.ext_iff.1 hstep
  refine ⟨?_, more, frames, ?_, ?_⟩
  · rw [← hm.1, ← hx.1, hresult]
  · exact (congrArg Machine.display hm.2).symm.trans hmore
  · rw [← hx.2, hleft]
    exact congrArg (shownOn · (draw d (unrendered more)) frames) hm.2

end Follows

end Machine

end ChipEight
