import ChipEight.Proofs.Run.Reach

namespace ChipEight.Machine

variable {δ ν κ ρ : Type} [Display δ] [Display ν]

/-- A relation between machines that all but the steps of a run respects: notes, ticks, frames and
the test whether `pc` has moved. -/
structure Correspondence (R : Machine δ κ ρ → Machine ν κ ρ → Prop) : Prop where
  pc {x : Machine δ κ ρ} {y : Machine ν κ ρ} (h : R x y) : y.core.pc = x.core.pc
  note {x : Machine δ κ ρ} {y : Machine ν κ ρ} (h : R x y) (n : Notice) : R (x.note n) (y.note n)
  tick {x : Machine δ κ ρ} {y : Machine ν κ ρ} (h : R x y) : R x.tick y.tick
  render {x : Machine δ κ ρ} {y : Machine ν κ ρ} (h : R x y) :
    y.render.1 = x.render.1 ∧ R x.render.2 y.render.2

/-- The steps of two machines answer alike and leave machines behind that correspond. -/
def StepsAlike [Keypad κ] [RandomSource ρ] (R : Machine δ κ ρ → Machine ν κ ρ → Prop)
    (x : Machine δ κ ρ) (y : Machine ν κ ρ) : Prop :=
  y.step.1 = x.step.1 ∧ R x.step.2 y.step.2

namespace Correspondence

variable {R : Machine δ κ ρ → Machine ν κ ρ → Prop} {x : Machine δ κ ρ} {y : Machine ν κ ρ}
  {p : Pacing} {clock : Nat → Nat}

theorem finish (hR : Correspondence R) (h : R x y) (outcome : Outcome) :
    (y.finish outcome).1 = (x.finish outcome).1 ∧
      R (x.finish outcome).2 (y.finish outcome).2 := by
  obtain ⟨hresult, hleft⟩ := hR.render h
  exact ⟨congrArg (Except.map _) hresult, hleft⟩

theorem frame (hR : Correspondence R) (h : R x y) :
    y.frame.1 = x.frame.1 ∧ R x.frame.2 y.frame.2 :=
  hR.render (hR.tick h)

variable [Keypad κ] [RandomSource ρ]

theorem turn (hR : Correspondence R) (h : R x y) {steps : Nat}
    (hstep : ¬ p.Exhausted steps → StepsAlike R x y) :
    (y.turn p steps).1 = (x.turn p steps).1 ∧ R (x.turn p steps).2 (y.turn p steps).2 := by
  unfold Machine.turn
  by_cases hlimit : p.Exhausted steps
  · obtain ⟨hresult, hleft⟩ := hR.finish h (.stepLimit steps)
    simp only [if_pos hlimit]
    exact ⟨congrArg some hresult, hleft⟩
  · obtain ⟨hresult, hleft⟩ := hstep hlimit
    simp only [if_neg hlimit, hR.pc h]
    rcases hx : x.step with ⟨result, x'⟩
    rcases hy : y.step with ⟨result', y'⟩
    rw [hx, hy] at hresult hleft
    obtain rfl : result' = result := hresult
    change R x' y' at hleft
    have hmoved : y'.core.pc = x'.core.pc := hR.pc hleft
    cases result' with
    | error fault => exact ⟨rfl, hleft⟩
    | ok _ =>
      simp only [hmoved]
      by_cases hpc : x'.core.pc = x.core.pc
      · obtain ⟨hended, hlast⟩ :=
          hR.finish (hR.note hleft (.halted x.core.pc (steps + 1))) (.halted (steps + 1))
        simp only [if_pos hpc]
        exact ⟨congrArg some hended, hlast⟩
      · simp only [if_neg hpc]
        exact ⟨trivial, hleft⟩

theorem runWithin (hR : Correspondence R) {m : Machine δ κ ρ}
    (hstep : ∀ steps x y, m.Reaches p clock steps x → ¬ p.Exhausted steps → R x y →
      StepsAlike R x y)
    (fuel : Nat) {steps : Nat} (hx : m.Reaches p clock steps x) (h : R x y) :
    (Machine.runWithin p clock fuel steps y).1 = (Machine.runWithin p clock fuel steps x).1 ∧
      R (Machine.runWithin p clock fuel steps x).2 (Machine.runWithin p clock fuel steps y).2 := by
  induction fuel generalizing steps x y with
  | zero => exact ⟨rfl, h⟩
  | succ fuel ih =>
    obtain ⟨hresult, hleft⟩ := hR.turn h fun hlimit => hstep steps x y hx hlimit h
    rcases hxturn : x.turn p steps with ⟨result, x'⟩
    rcases hyturn : y.turn p steps with ⟨result', y'⟩
    rw [hxturn, hyturn] at hresult hleft
    obtain rfl : result' = result := hresult
    cases result' with
    | some ended =>
      simp only [Machine.runWithin, hxturn, hyturn]
      exact ⟨trivial, hleft⟩
    | none =>
      by_cases hdue : p.FrameDue clock (steps + 1)
      · obtain ⟨hshown, hlater⟩ := hR.frame hleft
        rcases hxframe : x'.frame with ⟨shown, x''⟩
        rcases hyframe : y'.frame with ⟨shown', y''⟩
        rw [hxframe, hyframe] at hshown hlater
        obtain rfl : shown' = shown := hshown
        simp only [Machine.runWithin, hxturn, hyturn, hdue, if_true, hxframe, hyframe]
        cases shown' with
        | error fault => exact ⟨rfl, hlater⟩
        | ok _ => exact ih (hx.frame hxturn hdue hxframe) hlater
      · simp only [Machine.runWithin, hxturn, hyturn, hdue, if_false]
        exact ih (hx.turn hxturn hdue) hleft

theorem run (hR : Correspondence R) (p : Pacing) (clock : Nat → Nat) (h : R x y)
    (hstep : ∀ steps x' y', x.Reaches p clock steps x' → ¬ p.Exhausted steps → R x' y' →
      StepsAlike R x' y') :
    (y.run p clock).1 = (x.run p clock).1 ∧ R (x.run p clock).2 (y.run p clock).2 :=
  hR.runWithin hstep longestRun .start h

end Correspondence

end ChipEight.Machine
