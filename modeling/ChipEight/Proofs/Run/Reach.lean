import ChipEight.Proofs.Machine.Step
import ChipEight.Run

namespace ChipEight.Machine

variable {δ κ ρ : Type} [Display δ] [Keypad κ] [RandomSource ρ]

/-- The run comes to this machine with `steps` instructions behind it, frames included. -/
inductive Reaches (m : Machine δ κ ρ) (p : Pacing) (clock : Nat → Nat) :
    Nat → Machine δ κ ρ → Prop
  | start : Reaches m p clock 0 m
  | turn {steps : Nat} {x x' : Machine δ κ ρ} (hx : Reaches m p clock steps x)
      (hturn : x.turn p steps = (none, x')) (hdue : ¬ p.FrameDue clock (steps + 1)) :
      Reaches m p clock (steps + 1) x'
  | frame {steps : Nat} {x x' x'' : Machine δ κ ρ} (hx : Reaches m p clock steps x)
      (hturn : x.turn p steps = (none, x')) (hdue : p.FrameDue clock (steps + 1))
      (hframe : x'.frame = (.ok (), x'')) : Reaches m p clock (steps + 1) x''

/-- How the run of a machine that has come to `steps` instructions can end. -/
inductive Ends (x : Machine δ κ ρ) (p : Pacing) (clock : Nat → Nat) (steps : Nat) :
    Except Fault Outcome → Machine δ κ ρ → Prop
  | turn {result : Except Fault Outcome} {m' : Machine δ κ ρ}
      (hturn : x.turn p steps = (some result, m')) : Ends x p clock steps result m'
  | frame {x' m' : Machine δ κ ρ} {fault : Fault} (hturn : x.turn p steps = (none, x'))
      (hdue : p.FrameDue clock (steps + 1)) (hframe : x'.frame = (.error fault, m')) :
      Ends x p clock steps (.error fault) m'

variable {m m' : Machine δ κ ρ} {p : Pacing} {clock : Nat → Nat}

theorem turn_eq_none {steps : Nat} {x : Machine δ κ ρ} (h : m.turn p steps = (none, x)) :
    ¬ p.Exhausted steps ∧ m.step = (.ok (), x) ∧ x.core.pc ≠ m.core.pc := by
  unfold turn at h
  split at h
  next => cases h
  next hlimit =>
    rcases hstep : m.step with ⟨fault | _, x'⟩
    · simp [hstep] at h
    · simp only [hstep] at h
      split at h
      next => cases h
      next hpc =>
        cases h
        exact ⟨hlimit, rfl, hpc⟩

omit [Keypad κ] [RandomSource ρ] in
theorem render_eq_error {fault : Fault} (h : m.render.1 = .error fault) :
    ∃ error, fault = .io error := by
  obtain ⟨error, _, hfault⟩ := mapError_eq_error_iff.1 h
  exact ⟨error, hfault⟩

omit [Keypad κ] [RandomSource ρ] in
theorem finish_eq_error {outcome : Outcome} {fault : Fault}
    (h : (m.finish outcome).1 = .error fault) : ∃ error, fault = .io error := by
  unfold finish at h
  cases hr : m.render.1 with
  | ok _ => simp [hr, Except.map] at h
  | error reason =>
    simp only [hr, Except.map, Except.error.injEq] at h
    exact render_eq_error (h ▸ hr)

theorem turn_eq_error {steps : Nat} {fault : Fault}
    (h : m.turn p steps = (some (.error fault), m')) :
    m.step.1 = .error fault ∨ ∃ error, fault = .io error := by
  unfold turn at h
  split at h
  next =>
    simp only [Prod.mk.injEq, Option.some.injEq] at h
    exact .inr (finish_eq_error h.1)
  next =>
    rcases hstep : m.step with ⟨reason | _, x⟩
    · simp only [hstep, Prod.mk.injEq, Option.some.injEq, Except.error.injEq] at h
      exact .inl (congrArg Except.error h.1)
    · simp only [hstep] at h
      split at h
      next =>
        simp only [Prod.mk.injEq, Option.some.injEq] at h
        exact .inr (finish_eq_error h.1)
      next => simp at h

theorem Ends.eq_error {steps : Nat} {fault : Fault}
    (h : m.Ends p clock steps (.error fault) m') :
    m.step.1 = .error fault ∨ ∃ error, fault = .io error := by
  cases h with
  | turn hturn => exact turn_eq_error hturn
  | frame _ _ hframe => exact .inr (render_eq_error (congrArg Prod.fst hframe))

/-- What steps and frames keep is kept wherever the run comes to. -/
theorem Reaches.keeps {P : Machine δ κ ρ → Prop} (hstep : ∀ x, P x → P x.step.2)
    (hframe : ∀ x, P x → P x.frame.2) (h : P m) {steps : Nat} {x : Machine δ κ ρ}
    (hx : m.Reaches p clock steps x) : P x := by
  have hturn {before : Nat} {x x' : Machine δ κ ρ} (hbefore : P x)
      (he : x.turn p before = (none, x')) : P x' := by
    obtain ⟨_, hmoved, _⟩ := turn_eq_none he
    have hleft := hstep x hbefore
    rwa [hmoved] at hleft
  induction hx with
  | start => exact h
  | turn _ he _ ih => exact hturn ih he
  | frame _ he _ hshown ih =>
    have hleft := hframe _ (hturn ih he)
    rwa [hshown] at hleft

theorem Reaches.eq_of_pc_eq (h : m.step.2.core.pc = m.core.pc) {steps : Nat} {x : Machine δ κ ρ}
    (hx : m.Reaches p clock steps x) : x = m := by
  have hmoved {before : Nat} {x' : Machine δ κ ρ} (he : m.turn p before = (none, x')) : False := by
    obtain ⟨_, hstep, hpc⟩ := turn_eq_none he
    rw [hstep] at h
    exact hpc h
  induction hx with
  | start => rfl
  | turn _ he _ ih => exact (hmoved (ih ▸ he)).elim
  | frame _ he _ _ ih => exact (hmoved (ih ▸ he)).elim

theorem exists_ends_of_runWithin {fuel steps : Nat} {x : Machine δ κ ρ}
    {result : Except Fault Outcome} (hx : m.Reaches p clock steps x)
    (h : runWithin p clock fuel steps x = (some result, m')) :
    ∃ count last, m.Reaches p clock count last ∧ last.Ends p clock count result m' := by
  induction fuel generalizing steps x with
  | zero => cases h
  | succ fuel ih =>
    rcases hturn : x.turn p steps with ⟨_ | ended, x'⟩
    · by_cases hdue : p.FrameDue clock (steps + 1)
      · rcases hframe : x'.frame with ⟨fault | _, x''⟩
        · simp only [runWithin, hturn, hdue, hframe, if_true, Prod.mk.injEq, Option.some.injEq] at h
          obtain ⟨rfl, rfl⟩ := h
          exact ⟨steps, x, hx, .frame hturn hdue hframe⟩
        · simp only [runWithin, hturn, hdue, hframe, if_true] at h
          exact ih (hx.frame hturn hdue hframe) h
      · simp only [runWithin, hturn, hdue, if_false] at h
        exact ih (hx.turn hturn hdue) h
    · simp only [runWithin, hturn, Prod.mk.injEq, Option.some.injEq] at h
      obtain ⟨rfl, rfl⟩ := h
      exact ⟨steps, x, hx, .turn hturn⟩

theorem exists_ends_of_run {result : Except Fault Outcome}
    (h : m.run p clock = (some result, m')) :
    ∃ count last, m.Reaches p clock count last ∧ last.Ends p clock count result m' :=
  exists_ends_of_runWithin .start h

end ChipEight.Machine
