import ChipEight.Proofs.Machine.Action
import ChipEight.Proofs.Machine.Step
import ChipEight.Run

namespace ChipEight

open Display (AlwaysRenders)

namespace Pacing

def limit (p : Pacing) : Nat := (p.maxSteps.map UInt64.toNat).getD Machine.longestRun

theorem limit_of_none {p : Pacing} (h : p.maxSteps = none) : p.limit = Machine.longestRun := by
  simp [limit, h]

theorem limit_of_some {p : Pacing} {max : UInt64} (h : p.maxSteps = some max) :
    p.limit = max.toNat := by
  simp [limit, h]

theorem limit_le (p : Pacing) : p.limit ≤ Machine.longestRun := by
  cases h : p.maxSteps with
  | none => exact Nat.le_of_eq (limit_of_none h)
  | some max =>
    rw [limit_of_some h]
    exact Nat.le_of_lt max.toNat_lt

theorem not_exhausted {p : Pacing} {steps : Nat} (h : steps < p.limit) : ¬ p.Exhausted steps := by
  rintro ⟨max, hmax, hle⟩
  rw [limit_of_some hmax] at h
  exact absurd h (Nat.not_lt.2 hle)

end Pacing

/-- The first `count` instructions of a run, each with the frame that may be due after it. -/
def schedule {δ κ : Type} (due : Nat → Prop) [DecidablePred due] : Nat → List (Action δ κ)
  | 0 => []
  | count + 1 =>
    schedule due count ++ .step :: if due (count + 1) then [.tick, .render] else []

namespace Machine

section Renders

variable {δ κ ρ : Type} [Display δ] {m : Machine δ κ ρ}

theorem alwaysRenders_render (h : AlwaysRenders m.display) : AlwaysRenders m.render.2.display :=
  h.draw [.render]

theorem render_of_alwaysRenders (h : AlwaysRenders m.display) :
    m.render = (.ok (), m.render.2) := by
  have hok : (Display.render m.display).1 = .ok () := h []
  exact Prod.ext (mapError_eq_ok_iff.2 hok) rfl

theorem finish_of_alwaysRenders (h : AlwaysRenders m.display) (outcome : Outcome) :
    m.finish outcome = (.ok outcome, m.render.2) := by
  rw [finish, render_of_alwaysRenders h]
  rfl

end Renders

variable {δ κ ρ : Type} [Display δ] [Keypad κ] [RandomSource ρ]

/-- The next step succeeds and leads elsewhere. -/
def Moves (m : Machine δ κ ρ) : Prop := m.step.1 = .ok () ∧ m.step.2.core.pc ≠ m.core.pc

/-- The next step succeeds and leads nowhere. -/
def Stays (m : Machine δ κ ρ) : Prop := m.step.1 = .ok () ∧ m.step.2.core.pc = m.core.pc

instance (m : Machine δ κ ρ) : Decidable m.Moves :=
  decidable_of_iff (m.step.1.isOk = true ∧ _) (and_congr_left' isOk_step_iff)

instance (m : Machine δ κ ρ) : Decidable m.Stays :=
  decidable_of_iff (m.step.1.isOk = true ∧ _) (and_congr_left' isOk_step_iff)

theorem stays_or_fails {m : Machine δ κ ρ} (h : ¬ m.Moves) :
    m.Stays ∨ ∃ fault, m.step.1 = .error fault := by
  cases hs : m.step.1 with
  | error fault => exact .inr ⟨fault, rfl⟩
  | ok _ => exact .inl ⟨hs, Decidable.byContradiction fun hpc => h ⟨hs, hpc⟩⟩

section After

variable (m : Machine δ κ ρ) (due : Nat → Prop) [DecidablePred due]

/-- The machine after `count` instructions. -/
def after (count : Nat) : Machine δ κ ρ := m.perform (schedule due count)

/-- Each of the first `count` instructions moves on. -/
def Proceeds (count : Nat) : Prop := ∀ steps < count, (m.after due steps).Moves

/-- Each frame that is due after one of the first `count` instructions is shown. -/
def Shows (count : Nat) : Prop :=
  ∀ steps < count, due (steps + 1) → (m.after due steps).step.2.frame.1 = .ok ()

instance (count : Nat) : Decidable (m.Proceeds due count) :=
  inferInstanceAs (Decidable (∀ steps < count, (m.after due steps).Moves))

theorem after_succ (count : Nat) :
    m.after due (count + 1) =
      if due (count + 1) then (m.after due count).step.2.frame.2
      else (m.after due count).step.2 := by
  unfold after
  rw [schedule, perform_append]
  split <;> rfl

theorem Proceeds.le {m : Machine δ κ ρ} {due : Nat → Prop} [DecidablePred due] {count less : Nat}
    (h : m.Proceeds due count) (hle : less ≤ count) : m.Proceeds due less :=
  fun steps hlt => h steps (Nat.lt_of_lt_of_le hlt hle)

theorem Shows.le {m : Machine δ κ ρ} {due : Nat → Prop} [DecidablePred due] {count less : Nat}
    (h : m.Shows due count) (hle : less ≤ count) : m.Shows due less :=
  fun steps hlt => h steps (Nat.lt_of_lt_of_le hlt hle)

theorem Proceeds.not_lt {m : Machine δ κ ρ} {due : Nat → Prop} [DecidablePred due]
    {count steps : Nat} (h : m.Proceeds due count) (hstop : ¬ (m.after due steps).Moves) :
    count ≤ steps :=
  Nat.not_lt.1 fun hlt => hstop (h steps hlt)

theorem proceeds_or_stops (count : Nat) :
    m.Proceeds due count ∨
      ∃ steps < count, m.Proceeds due steps ∧ ¬ (m.after due steps).Moves := by
  induction count with
  | zero => exact .inl fun _ hlt => absurd hlt (Nat.not_lt_zero _)
  | succ count ih =>
    obtain hall | ⟨steps, hlt, hstop⟩ := ih
    · by_cases hmoves : (m.after due count).Moves
      · refine .inl fun steps hlt => ?_
        obtain hlt | rfl := Nat.lt_succ_iff_lt_or_eq.1 hlt
        · exact hall steps hlt
        · exact hmoves
      · exact .inr ⟨count, Nat.lt_succ_self _, hall, hmoves⟩
    · exact .inr ⟨steps, Nat.lt_succ_of_lt hlt, hstop⟩

end After

section Turns

variable {m : Machine δ κ ρ} {p : Pacing} {clock : Nat → Nat}

theorem alwaysRenders_step (h : AlwaysRenders m.display) : AlwaysRenders m.step.2.display := by
  obtain ⟨strokes, hd⟩ := m.exists_display_step
  rw [hd]
  exact h.draw strokes

theorem alwaysRenders_after (h : AlwaysRenders m.display) (due : Nat → Prop) [DecidablePred due]
    (count : Nat) : AlwaysRenders (m.after due count).display := by
  induction count with
  | zero => exact h
  | succ count ih =>
    rw [after_succ]
    split
    · exact alwaysRenders_render (alwaysRenders_step ih)
    · exact alwaysRenders_step ih

theorem turn_of_exhausted {steps : Nat} (h : AlwaysRenders m.display) (hlimit : p.Exhausted steps) :
    m.turn p steps = (some (.ok (.stepLimit steps)), m.render.2) := by
  rw [turn, if_pos hlimit, finish_of_alwaysRenders h]

theorem turn_of_moves {steps : Nat} (hlimit : ¬ p.Exhausted steps) (h : m.Moves) :
    m.turn p steps = (none, m.step.2) := by
  have hstep : m.step = (.ok (), m.step.2) := Prod.ext h.1 rfl
  rw [turn, if_neg hlimit, hstep]
  exact if_neg h.2

theorem turn_of_stays {steps : Nat} (hd : AlwaysRenders m.display) (hlimit : ¬ p.Exhausted steps)
    (h : m.Stays) :
    m.turn p steps =
      (some (.ok (.halted (steps + 1))),
        (m.step.2.note (.halted m.core.pc (steps + 1))).render.2) := by
  have hstep : m.step = (.ok (), m.step.2) := Prod.ext h.1 rfl
  have hnoted : AlwaysRenders (m.step.2.note (.halted m.core.pc (steps + 1))).display :=
    alwaysRenders_step hd
  rw [turn, if_neg hlimit, hstep]
  simp only [h.2, if_true, finish_of_alwaysRenders hnoted]

theorem turn_of_error {steps : Nat} {fault : Fault} (hlimit : ¬ p.Exhausted steps)
    (h : m.step.1 = .error fault) : m.turn p steps = (some (.error fault), m.step.2) := by
  have hstep : m.step = (.error fault, m.step.2) := Prod.ext h rfl
  rw [turn, if_neg hlimit, hstep]

theorem runWithin_of_turn {steps fuel : Nat} {result : Except Fault Outcome}
    {m' : Machine δ κ ρ} (h : m.turn p steps = (some result, m')) :
    runWithin p clock (fuel + 1) steps m = (some result, m') := by
  rw [runWithin, h]

theorem runWithin_of_moves {steps : Nat} (hlimit : ¬ p.Exhausted steps) (h : m.Moves)
    (hframe : p.FrameDue clock (steps + 1) → m.step.2.frame.1 = .ok ()) (fuel : Nat) :
    runWithin p clock (fuel + 1) steps m =
      runWithin p clock fuel (steps + 1)
        (if p.FrameDue clock (steps + 1) then m.step.2.frame.2 else m.step.2) := by
  rw [runWithin, turn_of_moves hlimit h]
  by_cases hdue : p.FrameDue clock (steps + 1)
  · have hshown : m.step.2.frame = (.ok (), m.step.2.frame.2) := Prod.ext (hframe hdue) rfl
    simp only [if_pos hdue]
    rw [hshown]
  · simp only [if_neg hdue]

theorem shows_of_alwaysRenders (h : AlwaysRenders m.display) (due : Nat → Prop) [DecidablePred due]
    (count : Nat) : m.Shows due count := by
  intro steps _ _
  have hrenders := alwaysRenders_step (alwaysRenders_after h due steps)
  exact congrArg Prod.fst (render_of_alwaysRenders (m := (m.after due steps).step.2.tick) hrenders)

/-- As long as the instructions move on and the frames are shown, a run follows the schedule. -/
theorem runWithin_after {count : Nat} (hlimit : count ≤ p.limit)
    (h : m.Proceeds (p.FrameDue clock) count) (hshows : m.Shows (p.FrameDue clock) count)
    (fuel : Nat) :
    runWithin p clock (fuel + count) 0 m =
      runWithin p clock fuel count (m.after (p.FrameDue clock) count) := by
  induction count generalizing fuel with
  | zero => rfl
  | succ count ih =>
    have hmoves := h count (Nat.lt_succ_self count)
    have hframe := hshows count (Nat.lt_succ_self count)
    calc
      runWithin p clock (fuel + (count + 1)) 0 m = runWithin p clock (fuel + 1 + count) 0 m := by
        rw [Nat.add_right_comm, Nat.add_assoc]
      _ = runWithin p clock (fuel + 1) count (m.after (p.FrameDue clock) count) :=
        ih (Nat.le_of_succ_le hlimit) (h.le (Nat.le_succ count)) (hshows.le (Nat.le_succ count))
          (fuel + 1)
      _ = runWithin p clock fuel (count + 1) (m.after (p.FrameDue clock) (count + 1)) := by
        rw [runWithin_of_moves (Pacing.not_exhausted hlimit) hmoves hframe, after_succ]

end Turns

/-- How a run can go whose frames are due at certain counts of instructions, and the machine that it
leaves behind. -/
inductive Course (m : Machine δ κ ρ) (p : Pacing) (due : Nat → Prop) [DecidablePred due] :
    Option (Except Fault Outcome) × Machine δ κ ρ → Prop
  | halted {steps : Nat} (hlimit : steps < p.limit) (hmoves : m.Proceeds due steps)
      (hstays : (m.after due steps).Stays) :
      Course m p due (some (.ok (.halted (steps + 1))),
        (m.perform (schedule due steps ++ [.step, .render])).note
          (.halted (m.after due steps).core.pc (steps + 1)))
  | failed {steps : Nat} {fault : Fault} (hlimit : steps < p.limit) (hmoves : m.Proceeds due steps)
      (hfails : (m.after due steps).step.1 = .error fault) :
      Course m p due (some (.error fault), m.perform (schedule due steps ++ [.step]))
  | stepLimit {max : UInt64} (hmax : p.maxSteps = some max) (hmoves : m.Proceeds due max.toNat) :
      Course m p due (some (.ok (.stepLimit max.toNat)),
        m.perform (schedule due max.toNat ++ [.render]))
  -- The machine is named here so that no unifier runs into a schedule of that length.
  | endless {m' : Machine δ κ ρ} (hmax : p.maxSteps = none) (hmoves : m.Proceeds due longestRun)
      (hleft : m' = m.after due longestRun) : Course m p due (none, m')

theorem exists_course (m : Machine δ κ ρ) (p : Pacing) (due : Nat → Prop) [DecidablePred due] :
    ∃ r, m.Course p due r := by
  obtain hmoves | ⟨steps, hlimit, hmoves, hstop⟩ := m.proceeds_or_stops due p.limit
  · cases hmax : p.maxSteps with
    | none =>
      rw [Pacing.limit_of_none hmax] at hmoves
      exact ⟨_, .endless hmax hmoves rfl⟩
    | some max =>
      rw [Pacing.limit_of_some hmax] at hmoves
      exact ⟨_, .stepLimit hmax hmoves⟩
  · obtain hstays | ⟨fault, hfails⟩ := stays_or_fails hstop
    · exact ⟨_, .halted hlimit hmoves hstays⟩
    · exact ⟨_, .failed hlimit hmoves hfails⟩

theorem Course.congr {m : Machine δ κ ρ} {p : Pacing} {due due' : Nat → Prop}
    [inst : DecidablePred due] [inst' : DecidablePred due'] (h : ∀ steps, due steps ↔ due' steps)
    {r : Option (Except Fault Outcome) × Machine δ κ ρ} (hcourse : m.Course p due r) :
    m.Course p due' r := by
  obtain rfl : due = due' := funext fun steps => propext (h steps)
  obtain rfl : inst = inst' := Subsingleton.elim _ _
  exact hcourse

variable {m : Machine δ κ ρ} {p : Pacing} {clock : Nat → Nat}

theorem run_of_turn (hd : AlwaysRenders m.display) {steps : Nat} {result : Except Fault Outcome}
    {m' : Machine δ κ ρ} (hlt : steps < longestRun) (hlimit : steps ≤ p.limit)
    (hmoves : m.Proceeds (p.FrameDue clock) steps)
    (h : (m.after (p.FrameDue clock) steps).turn p steps = (some result, m')) :
    m.run p clock = (some result, m') := by
  obtain ⟨fuel, hfuel⟩ := Nat.exists_eq_add_of_lt hlt
  have hsplit : longestRun = fuel + 1 + steps := by omega
  rw [run, hsplit, runWithin_after hlimit hmoves (shows_of_alwaysRenders hd _ steps)]
  exact runWithin_of_turn h

theorem Course.run_eq (hd : AlwaysRenders m.display)
    {r : Option (Except Fault Outcome) × Machine δ κ ρ} (h : m.Course p (p.FrameDue clock) r) :
    m.run p clock = r := by
  cases h with
  | @halted steps hlimit hmoves hstays =>
    refine run_of_turn hd (Nat.lt_of_lt_of_le hlimit p.limit_le) (Nat.le_of_lt hlimit) hmoves ?_
    rw [turn_of_stays (alwaysRenders_after hd _ steps) (Pacing.not_exhausted hlimit) hstays,
      perform_append]
    rfl
  | @failed steps fault hlimit hmoves hfails =>
    refine run_of_turn hd (Nat.lt_of_lt_of_le hlimit p.limit_le) (Nat.le_of_lt hlimit) hmoves ?_
    rw [turn_of_error (Pacing.not_exhausted hlimit) hfails, perform_append]
    rfl
  | @stepLimit max hmax hmoves =>
    refine run_of_turn hd max.toNat_lt (Nat.le_of_eq (Pacing.limit_of_some hmax).symm) hmoves ?_
    rw [turn_of_exhausted (alwaysRenders_after hd _ _) ⟨max, hmax, Nat.le_refl _⟩, perform_append]
    rfl
  | endless hmax hmoves hleft =>
    have hrun := runWithin_after (Nat.le_of_eq (Pacing.limit_of_none hmax).symm) hmoves
      (shows_of_alwaysRenders hd _ longestRun) 0
    rwa [Nat.zero_add, ← hleft] at hrun

/-- A run takes the one course that there is, whichever way it is said when frames are due. -/
theorem run_eq_iff (hd : AlwaysRenders m.display) {due : Nat → Prop} [DecidablePred due]
    (hdue : ∀ steps, p.FrameDue clock steps ↔ due steps)
    {r : Option (Except Fault Outcome) × Machine δ κ ρ} :
    m.run p clock = r ↔ m.Course p due r := by
  constructor
  · intro h
    obtain ⟨r', hcourse⟩ := m.exists_course p due
    rwa [← h, (hcourse.congr fun steps => (hdue steps).symm).run_eq hd]
  · intro hcourse
    exact (hcourse.congr fun steps => (hdue steps).symm).run_eq hd

section Endings

variable {due : Nat → Prop} [DecidablePred due] {m' : Machine δ κ ρ}

theorem run_eq_halted_iff (hd : AlwaysRenders m.display)
    (hdue : ∀ steps, p.FrameDue clock steps ↔ due steps) {k : Nat} :
    m.run p clock = (some (.ok (.halted k)), m') ↔
      0 < k ∧ k ≤ p.limit ∧ m.Proceeds due (k - 1) ∧ (m.after due (k - 1)).Stays ∧
        m' = (m.perform (schedule due (k - 1) ++ [.step, .render])).note
          (.halted (m.after due (k - 1)).core.pc k) := by
  rw [run_eq_iff hd hdue]
  constructor
  · rintro (@⟨steps, hlimit, hmoves, hstays⟩ | _ | _ | _)
    exact ⟨Nat.succ_pos steps, hlimit, hmoves, hstays, rfl⟩
  · rintro ⟨hpos, hlimit, hmoves, hstays, rfl⟩
    obtain ⟨steps, rfl⟩ := Nat.exists_eq_add_one_of_ne_zero (Nat.ne_of_gt hpos)
    exact .halted hlimit hmoves hstays

theorem run_eq_stepLimit_iff (hd : AlwaysRenders m.display)
    (hdue : ∀ steps, p.FrameDue clock steps ↔ due steps) {n : Nat} :
    m.run p clock = (some (.ok (.stepLimit n)), m') ↔
      p.maxSteps.map UInt64.toNat = some n ∧ m.Proceeds due n ∧
        m' = m.perform (schedule due n ++ [.render]) := by
  rw [run_eq_iff hd hdue]
  constructor
  · rintro (_ | _ | ⟨hmax, hmoves⟩ | _)
    exact ⟨by rw [hmax, Option.map_some], hmoves, rfl⟩
  · rintro ⟨hn, hmoves, rfl⟩
    obtain ⟨max, hmax, rfl⟩ := Option.map_eq_some_iff.1 hn
    exact .stepLimit hmax hmoves

theorem run_eq_error_iff (hd : AlwaysRenders m.display)
    (hdue : ∀ steps, p.FrameDue clock steps ↔ due steps) {fault : Fault} :
    m.run p clock = (some (.error fault), m') ↔
      ∃ k, 0 < k ∧ k ≤ p.limit ∧ m.Proceeds due (k - 1) ∧
        (m.after due (k - 1)).step.1 = .error fault ∧
        m' = m.perform (schedule due (k - 1) ++ [.step]) := by
  rw [run_eq_iff hd hdue]
  constructor
  · rintro (_ | @⟨steps, _, hlimit, hmoves, hfails⟩ | _ | _)
    exact ⟨steps + 1, Nat.succ_pos steps, hlimit, hmoves, hfails, rfl⟩
  · rintro ⟨k, hpos, hlimit, hmoves, hfails, rfl⟩
    obtain ⟨steps, rfl⟩ := Nat.exists_eq_add_one_of_ne_zero (Nat.ne_of_gt hpos)
    exact .failed hlimit hmoves hfails

theorem run_eq_none_iff (hd : AlwaysRenders m.display)
    (hdue : ∀ steps, p.FrameDue clock steps ↔ due steps) :
    m.run p clock = (none, m') ↔
      p.maxSteps = none ∧ m.Proceeds due longestRun ∧ m' = m.after due longestRun := by
  rw [run_eq_iff hd hdue]
  constructor
  · rintro (_ | _ | _ | ⟨hmax, hmoves, hleft⟩)
    exact ⟨hmax, hmoves, hleft⟩
  · rintro ⟨hmax, hmoves, hleft⟩
    exact .endless hmax hmoves hleft

end Endings

end Machine

end ChipEight
