import ChipEight.Proofs.Run.FastForward
import ChipEight.Proofs.Run.Unfolding

namespace ChipEight

namespace Pacing

variable {p : Pacing}

theorem stepsPerFrame_of_le (hpos : 1 ≤ p.timerSpeed.toNat)
    (hle : p.timerSpeed.toNat ≤ p.clockSpeed.toNat) :
    p.stepsPerFrame = p.clockSpeed.toNat / p.timerSpeed.toNat := by
  rw [stepsPerFrame, perSecond, Nat.max_eq_right hpos]
  exact Nat.max_eq_right (Nat.div_pos hle hpos)

theorem stepsPerFrame_of_lt (hlt : p.clockSpeed.toNat < p.timerSpeed.toNat) :
    p.stepsPerFrame = 1 := by
  have hnone : p.clockSpeed.toNat / perSecond p.timerSpeed = 0 :=
    Nat.div_eq_of_lt (Nat.lt_of_lt_of_le hlt (Nat.le_max_right 1 _))
  rw [stepsPerFrame, hnone]
  rfl

section Second

variable (hpos : 1 ≤ p.timerSpeed.toNat) (hle : p.timerSpeed.toNat ≤ p.clockSpeed.toNat)

include hpos hle

/-- Frames come no later than the timers ask for. -/
theorem le_div_stepsPerFrame : p.timerSpeed.toNat ≤ p.clockSpeed.toNat / p.stepsPerFrame := by
  rw [stepsPerFrame_of_le hpos hle, Nat.le_div_iff_mul_le (Nat.div_pos hle hpos)]
  exact Nat.mul_div_le _ _

theorem div_stepsPerFrame_lt : p.clockSpeed.toNat / p.stepsPerFrame < 2 * p.timerSpeed.toNat := by
  have hone : 1 ≤ p.clockSpeed.toNat / p.timerSpeed.toNat := Nat.div_pos hle hpos
  rw [stepsPerFrame_of_le hpos hle, Nat.div_lt_iff_lt_mul hone]
  calc
    p.clockSpeed.toNat < p.timerSpeed.toNat * (p.clockSpeed.toNat / p.timerSpeed.toNat + 1) :=
      Nat.lt_mul_div_succ _ hpos
    _ ≤ p.timerSpeed.toNat *
        (p.clockSpeed.toNat / p.timerSpeed.toNat + p.clockSpeed.toNat / p.timerSpeed.toNat) :=
      Nat.mul_le_mul_left _ (Nat.add_le_add_left hone _)
    _ = 2 * p.timerSpeed.toNat * (p.clockSpeed.toNat / p.timerSpeed.toNat) := by
      rw [← Nat.two_mul, Nat.mul_left_comm, Nat.mul_assoc]

theorem div_stepsPerFrame_of_dvd (hdvd : p.timerSpeed.toNat ∣ p.clockSpeed.toNat) :
    p.clockSpeed.toNat / p.stepsPerFrame = p.timerSpeed.toNat := by
  rw [stepsPerFrame_of_le hpos hle]
  exact Nat.div_div_self hdvd (Nat.ne_of_gt (Nat.lt_of_lt_of_le hpos hle))

end Second

theorem frameDue_stopped (p : Pacing) (clock : Nat → Nat) (steps : Nat) :
    FrameDue { p with timerSpeed := 0 } clock steps ↔
      FrameDue { p with timerSpeed := 1 } clock steps :=
  Iff.rfl

end Pacing

namespace Action

variable {δ κ : Type}

theorem schedule_of_always {due : Nat → Prop} [DecidablePred due] (h : ∀ steps, due steps)
    (count : Nat) :
    (schedule due count : List (Action δ κ)) =
      (List.replicate count [.step, .tick, .render]).flatten := by
  induction count with
  | zero => rfl
  | succ count ih =>
    rw [schedule, ih, if_pos (h (count + 1)), List.replicate_succ', List.flatten_append,
      List.flatten_singleton]

theorem schedule_congr {due due' : Nat → Prop} [DecidablePred due] [DecidablePred due']
    (h : ∀ steps, due steps ↔ due' steps) (count : Nat) :
    (schedule due count : List (Action δ κ)) = schedule due' count := by
  induction count with
  | zero => rfl
  | succ count ih => simp only [schedule, ih, h]

end Action

namespace Machine

open ChipEight.Action

variable {δ κ ρ : Type} [Display δ] [Keypad κ] [RandomSource ρ]

variable {m : Machine δ κ ρ} {p : Pacing} {clock : Nat → Nat}

theorem actionsWithin_of_moves {steps : Nat} (hlimit : ¬ p.Exhausted steps) (h : m.Moves)
    (hframe : p.FrameDue clock (steps + 1) → m.step.2.frame.1 = .ok ()) (fuel : Nat) :
    actionsWithin p clock (fuel + 1) steps m =
      (.step :: if p.FrameDue clock (steps + 1) then [.tick, .render] else []) ++
        actionsWithin p clock fuel (steps + 1)
          (if p.FrameDue clock (steps + 1) then m.step.2.frame.2 else m.step.2) := by
  have hturn := turn_of_moves hlimit h
  rw [actionsWithin, (turnActions_of_turn hturn).1, hturn]
  by_cases hdue : p.FrameDue clock (steps + 1)
  · have hshown : m.step.2.frame = (.ok (), m.step.2.frame.2) := Prod.ext (hframe hdue) rfl
    simp only [if_pos hdue]
    rw [hshown]
    rfl
  · simp only [if_neg hdue]

theorem actionsWithin_after {count : Nat} (hlimit : count ≤ p.limit)
    (h : m.Proceeds (p.FrameDue clock) count) (hshows : m.Shows (p.FrameDue clock) count)
    (fuel : Nat) :
    actionsWithin p clock (fuel + count) 0 m = schedule (p.FrameDue clock) count ++
      actionsWithin p clock fuel count (m.after (p.FrameDue clock) count) := by
  induction count generalizing fuel with
  | zero => rfl
  | succ count ih =>
    have hmoves := h count (Nat.lt_succ_self count)
    have hframe := hshows count (Nat.lt_succ_self count)
    have hbefore := ih (Nat.le_of_succ_le hlimit) (h.le (Nat.le_succ count))
      (hshows.le (Nat.le_succ count)) (fuel + 1)
    rw [Nat.add_right_comm,
      actionsWithin_of_moves (Pacing.not_exhausted hlimit) hmoves hframe, ← after_succ] at hbefore
    rw [schedule, List.append_assoc]
    exact hbefore

/-- A run that is not stopped before the limit ends there with one more frame. -/
theorem run_to_limit {limit : UInt64} (hmax : p.maxSteps = some limit)
    (hmoves : m.Proceeds (p.FrameDue clock) limit.toNat)
    (hshows : m.Shows (p.FrameDue clock) limit.toNat)
    (hlast : (m.after (p.FrameDue clock) limit.toNat).render.1 = .ok ()) :
    m.run p clock =
        (some (.ok (.stepLimit limit.toNat)), m.perform (m.runActions p clock)) ∧
      m.runActions p clock = schedule (p.FrameDue clock) limit.toNat ++ [.render] := by
  obtain ⟨fuel, hfuel⟩ := Nat.exists_eq_add_of_lt limit.toNat_lt
  have hsplit : longestRun = fuel + 1 + limit.toNat := by
    rw [longestRun]
    omega
  have hexhausted : p.Exhausted limit.toNat := ⟨limit, hmax, Nat.le_refl _⟩
  have hle : limit.toNat ≤ p.limit := Nat.le_of_eq (Pacing.limit_of_some hmax).symm
  have hrun := runWithin_after hle hmoves hshows (fuel + 1)
  have hactions := actionsWithin_after hle hmoves hshows (fuel + 1)
  generalize hx : m.after (p.FrameDue clock) limit.toNat = x at *
  have hturn : x.turn p limit.toNat = (some (.ok (.stepLimit limit.toNat)), x.render.2) := by
    have hrender : x.render = (.ok (), x.render.2) := Prod.ext hlast rfl
    rw [turn, if_pos hexhausted, finish, hrender]
    rfl
  have hended : actionsWithin p clock (fuel + 1) limit.toNat x = [.render] := by
    rw [actionsWithin, hturn, turnActions, if_pos hexhausted, List.append_nil]
  have hall : m.runActions p clock = schedule (p.FrameDue clock) limit.toNat ++ [.render] := by
    rw [runActions, hsplit, hactions, hended]
  refine ⟨?_, hall⟩
  rw [run, hsplit, hrun, runWithin_of_turn hturn, hall, perform_append, ← hx]
  rfl

theorem actionsWithin_of_always (hdue : ∀ steps, p.FrameDue clock steps) (fuel steps : Nat)
    (m : Machine δ κ ρ) :
    ∃ count last, actionsWithin p clock fuel steps m =
        (List.replicate count [.step, .tick, .render]).flatten ++ last ∧
      last ∈ [[], [.render], [.step], [.step, .render]] := by
  induction fuel generalizing steps m with
  | zero => exact ⟨0, [], rfl, by simp⟩
  | succ fuel ih =>
    rcases hturn : m.turn p steps with ⟨_ | result, x⟩
    · rcases hframe : x.frame with ⟨fault | _, y⟩
      · rw [actionsWithin, (turnActions_of_turn hturn).1, hturn]
        simp only [if_pos (hdue (steps + 1)), hframe]
        exact ⟨1, [], rfl, by simp⟩
      · obtain ⟨count, last, hrest, hlast⟩ := ih (steps + 1) y
        refine ⟨count + 1, last, ?_, hlast⟩
        rw [actionsWithin, (turnActions_of_turn hturn).1, hturn, List.replicate_succ,
          List.flatten_cons, List.append_assoc, ← hrest]
        simp only [if_pos (hdue (steps + 1)), hframe]
        rfl
    · rw [actionsWithin, hturn, List.append_nil]
      refine ⟨0, m.turnActions p steps, rfl, ?_⟩
      unfold turnActions
      split
      · simp
      · split <;> simp

theorem runWithin_congr {q : Pacing} (hmax : p.maxSteps = q.maxSteps)
    (hdue : ∀ steps, p.FrameDue clock steps ↔ q.FrameDue clock steps) (fuel steps : Nat)
    (m : Machine δ κ ρ) :
    runWithin p clock fuel steps m = runWithin q clock fuel steps m ∧
      actionsWithin p clock fuel steps m = actionsWithin q clock fuel steps m := by
  induction fuel generalizing steps m with
  | zero => exact ⟨rfl, rfl⟩
  | succ fuel ih =>
    have hlimit : p.Exhausted steps ↔ q.Exhausted steps := by
      rw [Pacing.Exhausted, Pacing.Exhausted, hmax]
    have hturn : m.turn p steps = m.turn q steps := by simp only [turn, hlimit]
    have hactions : m.turnActions p steps = m.turnActions q steps := by
      simp only [turnActions, hlimit]
    rw [runWithin, runWithin, actionsWithin, actionsWithin, hturn, hactions]
    simp only [hdue, (ih _ _).1, (ih _ _).2]
    exact ⟨trivial, trivial⟩

/-- What the timers of a run in fast forward get. With as many instructions allowed as the clock has
in a second, they tick at least as often as they ask for and less than twice as often, and exactly
as often if that divides the speed of the clock. Timers faster than the clock tick after each
instruction, also in a run that is not carried to its limit, and a timer speed of zero is one of
one. Each of the ticks of a run takes one off either timer, down to zero, and nothing else does: a
timer that no instruction of the run sets comes down by as many as the run has ticks. -/
theorem drift_bounded (m : Machine δ κ ρ) (p : Pacing) (clock : Nat → Nat) :
    (p.fastForward = true → ∀ limit : UInt64, p.maxSteps = some limit →
      m.Proceeds (p.FrameDue clock) limit.toNat → m.Shows (p.FrameDue clock) limit.toNat →
      (m.after (p.FrameDue clock) limit.toNat).render.1 = .ok () →
        m.run p clock = (some (.ok (.stepLimit limit.toNat)), m.perform (m.runActions p clock)) ∧
        (limit.toNat = p.clockSpeed.toNat → 1 ≤ p.timerSpeed.toNat →
          p.timerSpeed.toNat ≤ p.clockSpeed.toNat →
            p.timerSpeed.toNat ≤ ticks (m.runActions p clock) ∧
            ticks (m.runActions p clock) < 2 * p.timerSpeed.toNat ∧
            (p.timerSpeed.toNat ∣ p.clockSpeed.toNat →
              ticks (m.runActions p clock) = p.timerSpeed.toNat)) ∧
        (p.clockSpeed.toNat < p.timerSpeed.toNat →
          m.runActions p clock =
            (List.replicate limit.toNat [.step, .tick, .render]).flatten ++ [.render])) ∧
    (p.fastForward = true → p.clockSpeed.toNat < p.timerSpeed.toNat →
      ∃ count last,
        m.runActions p clock = (List.replicate count [.step, .tick, .render]).flatten ++ last ∧
          last ∈ [[], [.render], [.step], [.step, .render]]) ∧
    m.run { p with timerSpeed := 0 } clock = m.run { p with timerSpeed := 1 } clock ∧
    m.runActions { p with timerSpeed := 0 } clock =
      m.runActions { p with timerSpeed := 1 } clock ∧
    ∀ timer : Timer,
      (∀ before, before ++ [.tick] <+: m.runActions p clock →
        (timer.value (m.perform (before ++ [.tick])).core).toNat =
          (timer.value (m.perform before).core).toNat - 1) ∧
      (m.NeverSets timer (m.runActions p clock) →
        (timer.value (m.run p clock).2.core).toNat =
          (timer.value m.core).toNat - ticks (m.runActions p clock)) := by
  have halways (hfast : p.fastForward = true) (hlt : p.clockSpeed.toNat < p.timerSpeed.toNat)
      (steps : Nat) : p.FrameDue clock steps := by
    rw [p.frameDue_iff hfast, Pacing.stepsPerFrame_of_lt hlt]
    exact Nat.one_dvd steps
  have hlimit : Pacing.maxSteps { p with timerSpeed := 0 } =
      Pacing.maxSteps { p with timerSpeed := 1 } := rfl
  obtain ⟨hresult, hactions⟩ := runWithin_congr hlimit (p.frameDue_stopped clock) longestRun 0 m
  refine ⟨?_, ?_, hresult, hactions, fun timer => ⟨?_, ?_⟩⟩
  · intro hfast limit hmax hmoves hshows hlast
    obtain ⟨hrun, hactions⟩ := run_to_limit hmax hmoves hshows hlast
    refine ⟨hrun, ?_, ?_⟩
    · intro hsecond hpos hle
      have hticks : ticks (m.runActions p clock) = p.clockSpeed.toNat / p.stepsPerFrame := by
        rw [hactions, schedule_congr (p.frameDue_iff hfast clock), ticks_schedule_append, hsecond]
        rfl
      rw [hticks]
      exact ⟨Pacing.le_div_stepsPerFrame hpos hle, Pacing.div_stepsPerFrame_lt hpos hle,
        Pacing.div_stepsPerFrame_of_dvd hpos hle⟩
    · intro hlt
      rw [hactions, schedule_of_always (halways hfast hlt)]
  · intro hfast hlt
    exact actionsWithin_of_always (halways hfast hlt) longestRun 0 m
  · intro before _
    exact m.value_perform_tick timer before
  · intro hnever
    have hsame : SameButJournal (m.perform (m.runActions p clock)) (m.run p clock).2 :=
      perform_actionsWithin p clock longestRun 0 m
    rw [hsame.core]
    exact value_perform hnever

/-- The delay timer is at 9, and the only instruction adds one to V0. -/
def countingDown : Machine Picture NoKeypad ByteTape :=
  let m := ofBytes [0x70, 0x01]
  { m with core := { m.core with delay := 9 } }

/-- Five instructions a second and three ticks: there is a frame after each instruction, which is two
ticks too many. With one instruction and two ticks a second there is one tick. -/
theorem drift_bounded_uneven :
    (ofBytes [0x70, 0x01, 0x10, 0x00]).Proceeds (Pacing.FrameDue ⟨5, 3, some 5, true⟩ fun _ => 0) 5 ∧
      3 ≤ ticks ((ofBytes [0x70, 0x01, 0x10, 0x00]).runActions ⟨5, 3, some 5, true⟩ fun _ => 0) ∧
      ticks ((ofBytes [0x70, 0x01, 0x10, 0x00]).runActions ⟨5, 3, some 5, true⟩ fun _ => 0) < 6 ∧
      (countingDown.run ⟨1, 2, some 1, true⟩ fun _ => 0).2.core.delay.toNat = 8 := by
  have hmoves : (ofBytes [0x70, 0x01, 0x10, 0x00]).Proceeds
      (Pacing.FrameDue ⟨5, 3, some 5, true⟩ fun _ => 0) 5 := by
    decide +kernel
  obtain ⟨hsecond, _⟩ :=
    drift_bounded (ofBytes [0x70, 0x01, 0x10, 0x00]) ⟨5, 3, some 5, true⟩ fun _ => 0
  obtain ⟨_, hticks, _⟩ := hsecond rfl 5 rfl hmoves (fun _ _ _ => rfl) rfl
  obtain ⟨hle, hlt, _⟩ := hticks rfl (by decide) (by decide)
  refine ⟨hmoves, hle, hlt, ?_⟩
  have hadds : countingDown.Proceeds (Pacing.FrameDue ⟨1, 2, some 1, true⟩ fun _ => 0) 1 := by
    decide +kernel
  obtain ⟨honce, _, _, _, htimer⟩ :=
    drift_bounded countingDown ⟨1, 2, some 1, true⟩ fun _ => 0
  obtain ⟨_, _, hactions⟩ := honce rfl 1 rfl hadds (fun _ _ _ => rfl) rfl
  have hlist : countingDown.runActions ⟨1, 2, some 1, true⟩ (fun _ => 0) =
      [.step, .tick, .render, .render] := hactions (by decide)
  have hnext : countingDown.next? = some (.addByte 0 1) := by decide +kernel
  have hnever : countingDown.NeverSets .delay [.step, .tick, .render, .render] := by
    refine neverSets_cons.2 ⟨?_, neverSets_cons.2 ⟨nofun, neverSets_cons.2 ⟨nofun,
      neverSets_cons.2 ⟨nofun, fun before h => by simp at h⟩⟩⟩⟩
    rintro - s ⟨_, x, hn, _⟩
    cases hnext.symm.trans hn
  have hvalue := (htimer .delay).2
  rw [hlist] at hvalue
  exact hvalue hnever

end Machine

end ChipEight
