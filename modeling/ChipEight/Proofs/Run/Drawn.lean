import ChipEight.Proofs.Run.Unfolding

namespace ChipEight

open Display (draw)

def Request.strokes : Request → List Stroke
  | .clearScreen _ => [.clear]
  | .draw x y sprite _ => Display.strokes (Sprite.dots x y sprite)
  | _ => []

/-- Whether the action leaves the display to the machine. -/
def Action.SparesDisplay {δ κ : Type} : Action δ κ → Prop
  | .display _ => False
  | _ => True

namespace Machine

variable {δ κ ρ : Type} [Display δ] [Keypad κ] [RandomSource ρ]

def stepStrokes (m : Machine δ κ ρ) : List Stroke :=
  match m.next? with
  | some instruction => (m.core.advance.execute instruction).strokes
  | none => []

def strokesOf (m : Machine δ κ ρ) : Action δ κ → List Stroke
  | .step => m.stepStrokes
  | .render => [.render]
  | _ => []

/-- What is drawn in the course of some actions, one after the other. -/
def drawn (m : Machine δ κ ρ) : List (Action δ κ) → List Stroke
  | [] => []
  | action :: rest => m.strokesOf action ++ (m.act action).drawn rest

def runStrokes (m : Machine δ κ ρ) (p : Pacing) (clock : Nat → Nat) : List Stroke :=
  m.drawn (m.runActions p clock)

theorem display_serve (m : Machine δ κ ρ) (request : Request) :
    (m.serve request).2.display = draw m.display request.strokes := by
  cases request with
  | clearScreen core => rcases hd : Display.clear m.display with ⟨_ | _, d⟩ <;>
      simp [serve, hd, Request.strokes, Display.apply]
  | draw x y sprite resume => exact Display.snd_drawDots _ _
  | awaitKey resume =>
    rcases hk : Keypad.awaitPress m.keypad with ⟨_ | key, k⟩
    · simp [serve, hk, Request.strokes]
    · cases hc : resume key <;> simp [serve, hk, hc, Request.strokes]
  | _ => rfl

theorem display_step (m : Machine δ κ ρ) : m.step.2.display = draw m.display m.stepStrokes := by
  unfold stepStrokes
  cases hn : m.next? with
  | none =>
    cases hf : m.core.fetch with
    | error fault =>
      rw [step_of_fetch_error hf]
      rfl
    | ok word =>
      have hd : Instruction.decode word = none := by simpa [next?, hf, Except.toOption] using hn
      rw [step_of_unknown hf hd]
      split <;> rfl
  | some instruction =>
    obtain ⟨word, hf, hd⟩ := next?_eq_some_iff.1 hn
    rw [step_of_decode hf hd]
    exact display_serve (m.enter word instruction) _

theorem display_act (m : Machine δ κ ρ) {action : Action δ κ} (h : action.SparesDisplay) :
    (m.act action).display = draw m.display (m.strokesOf action) := by
  cases action with
  | step => exact m.display_step
  | load source offset =>
    obtain ⟨memory, journal, he⟩ := m.exists_load_eq source offset
    rw [act, he]
    rfl
  | display use => exact h.elim
  | _ => rfl

theorem display_perform (m : Machine δ κ ρ) {actions : List (Action δ κ)}
    (h : ∀ action ∈ actions, action.SparesDisplay) :
    (m.perform actions).display = draw m.display (m.drawn actions) := by
  induction actions generalizing m with
  | nil => rfl
  | cons action actions ih =>
    obtain ⟨hfirst, hrest⟩ := List.forall_mem_cons.1 h
    rw [drawn, Display.draw_append, ← m.display_act hfirst]
    exact ih (m.act action) hrest

theorem sparesDisplay_turnActions (m : Machine δ κ ρ) (p : Pacing) (steps : Nat) :
    ∀ action ∈ m.turnActions p steps, action.SparesDisplay := by
  unfold turnActions
  split
  · simp [Action.SparesDisplay]
  · split <;> simp [Action.SparesDisplay]

theorem sparesDisplay_actionsWithin (p : Pacing) (clock : Nat → Nat) (fuel steps : Nat)
    (m : Machine δ κ ρ) :
    ∀ action ∈ actionsWithin p clock fuel steps m, action.SparesDisplay := by
  induction fuel generalizing steps m with
  | zero => exact List.forall_mem_nil _
  | succ fuel ih =>
    rw [actionsWithin, List.forall_mem_append]
    refine ⟨m.sparesDisplay_turnActions p steps, ?_⟩
    rcases m.turn p steps with ⟨_ | result, x⟩
    · simp only
      split
      · refine List.forall_mem_append.2 ⟨by simp [Action.SparesDisplay], ?_⟩
        rcases x.frame with ⟨fault | _, y⟩
        · exact List.forall_mem_nil _
        · exact ih (steps + 1) y
      · exact ih (steps + 1) x
    · exact List.forall_mem_nil _

theorem display_turn (m : Machine δ κ ρ) (p : Pacing) (steps : Nat) :
    (m.turn p steps).2.display = draw m.display (m.drawn (m.turnActions p steps)) := by
  obtain ⟨journal, hturn⟩ := m.perform_turnActions p steps
  rw [hturn]
  exact m.display_perform (m.sparesDisplay_turnActions p steps)

theorem display_runWithin (p : Pacing) (clock : Nat → Nat) (fuel steps : Nat)
    (m : Machine δ κ ρ) :
    (runWithin p clock fuel steps m).2.display =
      draw m.display (m.drawn (actionsWithin p clock fuel steps m)) := by
  obtain ⟨journal, hrun⟩ := perform_actionsWithin p clock fuel steps m
  rw [hrun]
  exact m.display_perform (sparesDisplay_actionsWithin p clock fuel steps m)

theorem display_run (m : Machine δ κ ρ) (p : Pacing) (clock : Nat → Nat) :
    (m.run p clock).2.display = draw m.display (m.runStrokes p clock) :=
  display_runWithin p clock longestRun 0 m

end Machine

end ChipEight
