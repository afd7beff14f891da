import ChipEight.Proofs.Machine.Recast
import ChipEight.Proofs.Run.Course
import ChipEight.Proofs.Run.Simulation

namespace ChipEight

/-- What is done to a machine from outside, runs among it. -/
inductive Deed (δ κ : Type)
  | act (action : Action δ κ)
  | run (p : Pacing) (clock : Nat → Nat)

namespace Machine

variable {δ κ ρ : Type}

/-- Two machines that differ at most in what they have noted down. -/
def SameButJournal (m m' : Machine δ κ ρ) : Prop := ∃ journal, m' = { m with journal }

namespace SameButJournal

variable {m m' m'' : Machine δ κ ρ}

theorem refl (m : Machine δ κ ρ) : SameButJournal m m := ⟨m.journal, rfl⟩

theorem trans (h : SameButJournal m m') (h' : SameButJournal m' m'') : SameButJournal m m'' := by
  obtain ⟨_, rfl⟩ := h
  obtain ⟨journal, rfl⟩ := h'
  exact ⟨journal, rfl⟩

theorem core (h : SameButJournal m m') : m'.core = m.core := by
  obtain ⟨_, rfl⟩ := h
  rfl

variable [Display δ] [Keypad κ] [RandomSource ρ]

theorem step (h : SameButJournal m m') : StepsAlike SameButJournal m m' := by
  obtain ⟨journal, rfl⟩ := h
  obtain ⟨journal', hstep, _⟩ := exists_step_recast m.config journal
    m.core.seenThrough_id (fun _ _ => Request.mirrored_id _ _) fun _ _ _ => rfl
  have hmapped : { m with journal }.step = m.step.map id (·.recast m.config id id journal') := hstep
  rw [StepsAlike, hmapped]
  refine ⟨rfl, journal', ?_⟩
  simp only [Prod.map, recast, id, config_step]

theorem act (h : SameButJournal m m') (action : Action δ κ) :
    SameButJournal (m.act action) (m'.act action) := by
  cases action with
  | step => exact h.step.2
  | load source offset =>
    obtain ⟨journal, rfl⟩ := h
    obtain ⟨journal', hload, _⟩ := m.exists_load_recast m.config id journal source offset
    obtain ⟨memory, _, hleft⟩ := m.exists_load_eq source offset
    refine ⟨journal', (congrArg Prod.snd hload).trans ?_⟩
    simp only [Machine.act, Prod.map, recast, id, hleft]
  | _ =>
    obtain ⟨journal, rfl⟩ := h
    exact ⟨journal, rfl⟩

theorem perform (h : SameButJournal m m') (actions : List (Action δ κ)) :
    SameButJournal (m.perform actions) (m'.perform actions) := by
  induction actions generalizing m m' with
  | nil => exact h
  | cons action actions ih => exact ih (h.act action)

end SameButJournal

variable [Display δ] [Keypad κ] [RandomSource ρ]

def turnActions (m : Machine δ κ ρ) (p : Pacing) (steps : Nat) : List (Action δ κ) :=
  if p.Exhausted steps then [.render] else if m.Stays then [.step, .render] else [.step]

def actionsWithin (p : Pacing) (clock : Nat → Nat) :
    Nat → Nat → Machine δ κ ρ → List (Action δ κ)
  | 0, _, _ => []
  | fuel + 1, steps, m =>
    m.turnActions p steps ++
      match m.turn p steps with
      | (some _, _) => []
      | (none, x) =>
        if p.FrameDue clock (steps + 1) then
          [.tick, .render] ++
            match x.frame with
            | (.error _, _) => []
            | (.ok (), y) => actionsWithin p clock fuel (steps + 1) y
        else actionsWithin p clock fuel (steps + 1) x

/-- The actions of a run, up to the one at which it ends. -/
def runActions (m : Machine δ κ ρ) (p : Pacing) (clock : Nat → Nat) : List (Action δ κ) :=
  actionsWithin p clock longestRun 0 m

def carryOut (m : Machine δ κ ρ) : Deed δ κ → Machine δ κ ρ
  | .act action => m.act action
  | .run p clock => (m.run p clock).2

def pursue (m : Machine δ κ ρ) (deeds : List (Deed δ κ)) : Machine δ κ ρ := deeds.foldl carryOut m

def actionsOf (m : Machine δ κ ρ) : Deed δ κ → List (Action δ κ)
  | .act action => [action]
  | .run p clock => m.runActions p clock

/-- All the actions that deeds come to, those of their runs in the place of the runs. -/
def history (m : Machine δ κ ρ) : List (Deed δ κ) → List (Action δ κ)
  | [] => []
  | deed :: rest => m.actionsOf deed ++ (m.carryOut deed).history rest

theorem turnActions_of_turn {m x : Machine δ κ ρ} {p : Pacing} {steps : Nat}
    (h : m.turn p steps = (none, x)) : m.turnActions p steps = [.step] ∧ m.step.2 = x := by
  obtain ⟨hlimit, hstep, hpc⟩ := turn_eq_none h
  have hmoves : ¬ m.Stays := fun hstays => hpc (by rw [← hstays.2, hstep])
  rw [turnActions, if_neg hlimit, if_neg hmoves, hstep]
  exact ⟨rfl, rfl⟩

theorem perform_turnActions (m : Machine δ κ ρ) (p : Pacing) (steps : Nat) :
    SameButJournal (m.perform (m.turnActions p steps)) (m.turn p steps).2 := by
  unfold turnActions turn
  by_cases hlimit : p.Exhausted steps
  · simp only [if_pos hlimit]
    exact .refl _
  · simp only [if_neg hlimit]
    rcases hstep : m.step with ⟨fault | _, x⟩
    · have hfails : ¬ m.Stays := fun h => by simp [Stays, hstep] at h
      simp only [if_neg hfails]
      exact ⟨x.journal, by simp [perform, Machine.act, hstep]⟩
    · by_cases hpc : x.core.pc = m.core.pc
      · have hstays : m.Stays := by simp [Stays, hstep, hpc]
        simp only [if_pos hstays, if_pos hpc, finish, render]
        refine ⟨x.journal.note (.halted m.core.pc (steps + 1)), ?_⟩
        simp [perform, Machine.act, hstep, render, note]
      · have hmoves : ¬ m.Stays := fun h => by simp [Stays, hstep, hpc] at h
        simp only [if_neg hmoves, if_neg hpc]
        exact ⟨x.journal, by simp [perform, Machine.act, hstep]⟩

theorem perform_actionsWithin (p : Pacing) (clock : Nat → Nat) (fuel steps : Nat)
    (m : Machine δ κ ρ) :
    SameButJournal (m.perform (actionsWithin p clock fuel steps m))
      (runWithin p clock fuel steps m).2 := by
  induction fuel generalizing steps m with
  | zero => exact .refl m
  | succ fuel ih =>
    have hturned := m.perform_turnActions p steps
    rw [actionsWithin, runWithin, perform_append]
    rcases hturn : m.turn p steps with ⟨_ | result, x⟩
    · rw [hturn] at hturned
      refine (hturned.perform _).trans ?_
      by_cases hdue : p.FrameDue clock (steps + 1)
      · simp only [if_pos hdue, perform_append]
        have hframed : x.perform [.tick, .render] = x.frame.2 := rfl
        rcases hframe : x.frame with ⟨fault | _, y⟩
        · rw [hframed, hframe]
          exact .refl y
        · rw [hframed, hframe]
          exact ih (steps + 1) y
      · simp only [if_neg hdue]
        exact ih (steps + 1) x
    · rw [hturn] at hturned
      exact hturned

theorem perform_history (m : Machine δ κ ρ) (deeds : List (Deed δ κ)) :
    SameButJournal (m.perform (m.history deeds)) (m.pursue deeds) := by
  induction deeds generalizing m with
  | nil => exact .refl m
  | cons deed deeds ih =>
    have hdeed : SameButJournal (m.perform (m.actionsOf deed)) (m.carryOut deed) := by
      cases deed with
      | act action => exact .refl _
      | run p clock => exact perform_actionsWithin p clock longestRun 0 m
    rw [history, perform_append]
    exact (hdeed.perform _).trans (ih _)

end Machine

end ChipEight
