import ChipEight.Proofs.Machine.Timers
import ChipEight.Proofs.Run.Course

namespace ChipEight

open Display (AlwaysRenders)

namespace Action

variable {δ κ : Type}

def renders (history : List (Action δ κ)) : Nat := history.countP (· matches .render)

theorem renders_append (first second : List (Action δ κ)) :
    renders (first ++ second) = renders first + renders second :=
  List.countP_append

/-- With a frame after every `c` instructions, `count` of them have `count / c` ticks and as many
frames among them. -/
theorem counts_schedule (c count : Nat) :
    ticks (schedule (c ∣ ·) count : List (Action δ κ)) = count / c ∧
      renders (schedule (c ∣ ·) count : List (Action δ κ)) = count / c := by
  induction count with
  | zero => exact ⟨(Nat.zero_div c).symm, (Nat.zero_div c).symm⟩
  | succ count ih =>
    obtain ⟨hticks, hrenders⟩ := ih
    rw [schedule, ticks_append, renders_append, hticks, hrenders, Nat.succ_div]
    by_cases hdue : c ∣ count + 1
    · rw [if_pos hdue, if_pos hdue]
      exact ⟨rfl, rfl⟩
    · rw [if_neg hdue, if_neg hdue]
      exact ⟨rfl, rfl⟩

theorem ticks_schedule_append (c count : Nat) (last : List (Action δ κ)) :
    ticks (schedule (c ∣ ·) count ++ last) = count / c + ticks last := by
  rw [ticks_append, (counts_schedule c count).1]

theorem renders_schedule_append (c count : Nat) (last : List (Action δ κ)) :
    renders (schedule (c ∣ ·) count ++ last) = count / c + renders last := by
  rw [renders_append, (counts_schedule c count).2]

theorem exists_counted_iff {history : List (Action δ κ)} {t r : Nat}
    {P : List (Action δ κ) → Prop} (ht : ticks history = t) (hr : renders history = r) :
    (∃ h, h = history ∧ ticks h = t ∧ renders h = r ∧ P h) ↔ P history := by
  constructor
  · rintro ⟨_, rfl, _, _, h⟩
    exact h
  · intro h
    exact ⟨_, rfl, ht, hr, h⟩

end Action

theorem Pacing.frameDue_iff {p : Pacing} (hfast : p.fastForward = true) (clock : Nat → Nat)
    (steps : Nat) : p.FrameDue clock steps ↔ p.stepsPerFrame ∣ steps := by
  rw [FrameDue, if_pos hfast, Nat.dvd_iff_mod_eq_zero]

namespace Machine

open ChipEight.Action

variable {δ κ ρ : Type} [Display δ] [Keypad κ] [RandomSource ρ]

theorem frames_perform (m : Machine δ κ ρ) (history : List (Action δ κ)) :
    (m.perform history).frames = m.frames + renders history := by
  induction history generalizing m with
  | nil => rfl
  | cons action history ih =>
    have hact : (m.act action).frames = m.frames + renders [action] := by
      cases action with
      | step => exact m.frames_step
      | load source offset =>
        obtain ⟨memory, journal, he⟩ := m.exists_load_eq source offset
        rw [act, he]
        rfl
      | _ => rfl
    have hrenders : renders (action :: history) = renders [action] + renders history :=
      renders_append [action] history
    calc
      (m.perform (action :: history)).frames = (m.act action).frames + renders history := ih _
      _ = m.frames + renders (action :: history) := by rw [hact, hrenders, Nat.add_assoc]

/-- The four ways in which a run in fast forward can go, and what has happened in each of them.
Instructions are counted from one; `schedule` has a tick and a frame after each whose number is a
multiple of `c`. A tick takes one off each timer that has not run out, a frame is one more of those
that were asked for, and a timer that is never set comes down by as many as there are ticks. -/
theorem run_fastForward (m : Machine δ κ ρ) (p : Pacing) (clock : Nat → Nat)
    (hfast : p.fastForward = true) (hd : AlwaysRenders m.display) {c : Nat}
    (hc : c = max 1 (p.clockSpeed.toNat / max 1 p.timerSpeed.toNat)) :
    (∀ k m', m.run p clock = (some (.ok (.halted k)), m') ↔
      0 < k ∧ k ≤ p.limit ∧ m.Proceeds (c ∣ ·) (k - 1) ∧ (m.after (c ∣ ·) (k - 1)).Stays ∧
        ∃ history, history = schedule (c ∣ ·) (k - 1) ++ [.step, .render] ∧
          ticks history = (k - 1) / c ∧ renders history = (k - 1) / c + 1 ∧
          m' = (m.perform history).note (.halted (m.after (c ∣ ·) (k - 1)).core.pc k)) ∧
    (∀ n m', m.run p clock = (some (.ok (.stepLimit n)), m') ↔
      p.maxSteps.map UInt64.toNat = some n ∧ m.Proceeds (c ∣ ·) n ∧
        ∃ history, history = schedule (c ∣ ·) n ++ [.render] ∧
          ticks history = n / c ∧ renders history = n / c + 1 ∧ m' = m.perform history) ∧
    (∀ fault m', m.run p clock = (some (.error fault), m') ↔
      ∃ k, 0 < k ∧ k ≤ p.limit ∧ m.Proceeds (c ∣ ·) (k - 1) ∧
        (m.after (c ∣ ·) (k - 1)).step.1 = .error fault ∧
        ∃ history, history = schedule (c ∣ ·) (k - 1) ++ [.step] ∧
          ticks history = (k - 1) / c ∧ renders history = (k - 1) / c ∧ m' = m.perform history) ∧
    (∀ m', m.run p clock = (none, m') ↔
      p.maxSteps = none ∧ m.Proceeds (c ∣ ·) longestRun ∧ m' = m.after (c ∣ ·) longestRun) ∧
    ∀ history : List (Action δ κ), (m.perform history).frames = m.frames + renders history ∧
      ∀ timer : Timer,
        (timer.value (m.perform (history ++ [.tick])).core).toNat =
          (timer.value (m.perform history).core).toNat - 1 ∧
        (m.NeverSets timer history →
          (timer.value (m.perform history).core).toNat =
            (timer.value m.core).toNat - ticks history) := by
  obtain rfl : c = p.stepsPerFrame := hc
  have hdue := p.frameDue_iff hfast clock
  refine ⟨fun k m' => ?_, fun n m' => ?_, fun fault m' => ?_, fun m' => run_eq_none_iff hd hdue,
    fun history => ⟨m.frames_perform history, fun timer => ⟨?_, value_perform⟩⟩⟩
  · rw [exists_counted_iff]
    · exact run_eq_halted_iff hd hdue
    · exact ticks_schedule_append _ _ _
    · exact renders_schedule_append _ _ _
  · rw [exists_counted_iff]
    · exact run_eq_stepLimit_iff hd hdue
    · exact ticks_schedule_append _ _ _
    · exact renders_schedule_append _ _ _
  · refine (run_eq_error_iff hd hdue).trans (exists_congr fun k => ?_)
    rw [exists_counted_iff]
    · exact ticks_schedule_append _ _ _
    · exact renders_schedule_append _ _ _
  · exact value_perform_tick m timer history

/-- Three instructions, the last of them a jump to itself, with a frame after the second. -/
theorem run_fastForward_halted :
    ∃ history : List (Action Picture NoKeypad), ticks history = 1 ∧ renders history = 2 ∧
      (ofBytes [0x60, 0x05, 0x70, 0x01, 0x10, 0x04]).run ⟨600, 300, some 3, true⟩ (fun _ => 0) =
        (some (.ok (.halted 3)),
          ((ofBytes [0x60, 0x05, 0x70, 0x01, 0x10, 0x04]).perform history).note (.halted 4 3)) := by
  have hd : AlwaysRenders (ofBytes [0x60, 0x05, 0x70, 0x01, 0x10, 0x04]).display := fun _ => rfl
  obtain ⟨hhalted, _⟩ := run_fastForward (ofBytes [0x60, 0x05, 0x70, 0x01, 0x10, 0x04])
    ⟨600, 300, some 3, true⟩ (fun _ => 0) rfl hd (c := 2) rfl
  have hmoves : (ofBytes [0x60, 0x05, 0x70, 0x01, 0x10, 0x04]).Proceeds (2 ∣ ·) 2 := by
    decide +kernel
  have hstays : ((ofBytes [0x60, 0x05, 0x70, 0x01, 0x10, 0x04]).after (2 ∣ ·) 2).Stays := by
    decide +kernel
  have hpc : ((ofBytes [0x60, 0x05, 0x70, 0x01, 0x10, 0x04]).after (2 ∣ ·) 2).core.pc = 4 := by
    decide +kernel
  have hrun := (hhalted 3 _).2
    ⟨by decide, by decide, hmoves, hstays, _, rfl, by decide, by decide, rfl⟩
  rw [hpc] at hrun
  exact ⟨_, by decide, by decide, hrun⟩

end Machine

end ChipEight
