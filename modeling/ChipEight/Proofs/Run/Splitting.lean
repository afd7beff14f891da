import ChipEight.Proofs.Machine.Following
import ChipEight.Proofs.Run.FastForward
import ChipEight.Proofs.Run.Unfolding

namespace ChipEight

open Display (AlwaysRenders draw)
open Stroke (unrendered)

/-- The outcome of a run that `first` instructions went ahead of, if these are counted too. -/
def Outcome.after (first : Nat) : Outcome → Outcome
  | .halted steps => .halted (first + steps)
  | .stepLimit steps => .stepLimit (first + steps)

section Schedule

variable {δ κ : Type} {due : Nat → Prop} [DecidablePred due] {first : Nat}

theorem schedule_add (hdue : ∀ count, due (first + count) ↔ due count) (count : Nat) :
    (schedule due (first + count) : List (Action δ κ)) =
      schedule due first ++ schedule due count := by
  induction count with
  | zero => exact (List.append_nil _).symm
  | succ count ih =>
    have hlast : due (first + count + 1) ↔ due (count + 1) := hdue (count + 1)
    rw [← Nat.add_assoc, schedule, schedule, ih, List.append_assoc]
    simp only [hlast]

end Schedule

namespace Machine

variable {δ κ ρ : Type} [Display δ]

/-- Two machines that differ at most in what they have noted down and in what has been rendered. -/
structure Coincides (m m' : Machine δ κ ρ) : Prop where
  config : m.config = m'.config
  core : m.core = m'.core
  pixel (x y : Nat) : Display.pixel m.display x y = Display.pixel m'.display x y
  keypad : m.keypad = m'.keypad
  random : m.random = m'.random

def Rerendered (d : δ) (x y : Machine δ κ ρ) : Prop :=
  ∃ strokes strokes', x.display = draw d strokes ∧ y.display = draw d strokes' ∧
    y.shownOn (draw d (unrendered strokes')) 0 = x.shownOn (draw d (unrendered strokes)) 0

namespace Rerendered

variable {d : δ} {x y : Machine δ κ ρ}

theorem render_right (x : Machine δ κ ρ) : Rerendered x.display x x.render.2 :=
  ⟨[], [.render], rfl, rfl, rfl⟩

theorem correspondence (hd : AlwaysRenders d) :
    Correspondence (Rerendered d : Machine δ κ ρ → Machine δ κ ρ → Prop) where
  pc := by
    rintro x y ⟨strokes, strokes', _, _, hsame⟩
    exact congrArg (·.core.pc) hsame
  note := by
    rintro x y ⟨strokes, strokes', hx, hy, hsame⟩ n
    exact ⟨strokes, strokes', hx, hy, congrArg (·.note n) hsame⟩
  tick := by
    rintro x y ⟨strokes, strokes', hx, hy, hsame⟩
    exact ⟨strokes, strokes', hx, hy, congrArg tick hsame⟩
  render := by
    rintro x y ⟨strokes, strokes', hx, hy, hsame⟩
    have hxd : AlwaysRenders x.display := hx ▸ hd.draw strokes
    have hyd : AlwaysRenders y.display := hy ▸ hd.draw strokes'
    have hunrendered (s : List Stroke) : unrendered (s ++ [.render]) = unrendered s := by simp
    rw [render_of_alwaysRenders hxd, render_of_alwaysRenders hyd]
    refine ⟨rfl, strokes ++ [.render], strokes' ++ [.render], ?_, ?_, ?_⟩
    · rw [Display.draw_append, ← hx]
      rfl
    · rw [Display.draw_append, ← hy]
      rfl
    · rw [hunrendered, hunrendered]
      exact hsame

theorem coincides [LawfulDisplay δ] (hd : AlwaysRenders d) (h : Rerendered d x y) :
    x.Coincides y := by
  obtain ⟨strokes, strokes', hx, hy, hsame⟩ := h
  simp only [shownOn, mk.injEq] at hsame
  obtain ⟨hconfig, hcore, hdisplay, hkeypad, hrandom, _⟩ := hsame
  refine ⟨hconfig.symm, hcore.symm, fun i j => ?_, hkeypad.symm, hrandom.symm⟩
  rw [hx, hy, LawfulDisplay.pixel_draw hd, ← hdisplay, ← LawfulDisplay.pixel_draw hd]

theorem stepsAlike [LawfulDisplay δ] [Keypad κ] [RandomSource ρ] (hd : AlwaysRenders d)
    (h : Rerendered d x y) : StepsAlike (Rerendered d) x y := by
  obtain ⟨strokes, strokes', hx, hy, hsame⟩ := h
  obtain ⟨more, hmore, hxstep⟩ := step_redraw hd hx 0
  obtain ⟨more', hmore', hystep⟩ := step_redraw hd hy 0
  rw [hsame, hxstep] at hystep
  obtain ⟨hresult, hleft⟩ := Prod.ext_iff.1 hystep
  exact ⟨hresult.symm, more, more', hmore, hmore', hleft.symm⟩

end Rerendered

variable [Keypad κ] [RandomSource ρ] {m : Machine δ κ ρ} {p : Pacing} {due : Nat → Prop}
  [DecidablePred due] {first : Nat}

section Shifted

variable (hdue : ∀ count, due (first + count) ↔ due count)

include hdue

theorem after_add (m : Machine δ κ ρ) (count : Nat) :
    m.after due (first + count) = (m.after due first).after due count := by
  rw [after, schedule_add hdue, perform_append]
  rfl

theorem proceeds_add {count : Nat} (hfirst : m.Proceeds due first)
    (hrest : (m.after due first).Proceeds due count) : m.Proceeds due (first + count) := by
  intro steps hlt
  obtain hbefore | hle := Nat.lt_or_ge steps first
  · exact hfirst steps hbefore
  · obtain ⟨more, rfl⟩ := Nat.exists_eq_add_of_le hle
    rw [after_add hdue]
    exact hrest more (by omega)

theorem perform_schedule_add (m : Machine δ κ ρ) (count : Nat) (last : List (Action δ κ)) :
    m.perform (schedule due (first + count) ++ last) =
      (m.after due first).perform (schedule due count ++ last) := by
  rw [schedule_add hdue, List.append_assoc, perform_append]
  rfl

/-- The course of the whole is the course from the stop on, but for the number of steps. -/
theorem Course.prepend {second total : UInt64} (htotal : total.toNat = first + second.toNat)
    (hfirst : m.Proceeds due first) {r : Option (Except Fault Outcome) × Machine δ κ ρ}
    (hcourse : (m.after due first).Course { p with maxSteps := some second } due r) :
    ∃ result m', r.1 = some result ∧ SameButJournal r.2 m' ∧
      m.Course { p with maxSteps := some total } due
        (some (result.map (Outcome.after first)), m') := by
  have hlimit : Pacing.limit { p with maxSteps := some total } = total.toNat := rfl
  cases hcourse with
  | @halted steps hlt hmoves hstays =>
    have hlt : steps < second.toNat := hlt
    rw [← after_add hdue] at hstays ⊢
    have hwhole := Course.halted (p := { p with maxSteps := some total }) (by omega)
      (proceeds_add hdue hfirst hmoves) hstays
    refine ⟨_, _, rfl, ?_, hwhole⟩
    rw [perform_schedule_add hdue]
    exact ⟨_, rfl⟩
  | @failed steps fault hlt hmoves hfails =>
    have hlt : steps < second.toNat := hlt
    rw [← after_add hdue] at hfails
    have hwhole := Course.failed (p := { p with maxSteps := some total }) (by omega)
      (proceeds_add hdue hfirst hmoves) hfails
    refine ⟨_, _, rfl, ?_, hwhole⟩
    rw [perform_schedule_add hdue]
    exact .refl _
  | @stepLimit max hmax hmoves =>
    obtain rfl := Option.some.inj hmax
    have hwhole := Course.stepLimit (p := { p with maxSteps := some total }) rfl
      (htotal ▸ proceeds_add hdue hfirst hmoves)
    rw [htotal] at hwhole
    refine ⟨_, _, rfl, ?_, hwhole⟩
    rw [perform_schedule_add hdue]
    exact .refl _
  | endless hmax hmoves hleft => cases hmax

end Shifted

theorem Course.extend {q : Pacing} (hlimit : p.limit ≤ q.limit) {result : Except Fault Outcome}
    {m' : Machine δ κ ρ} (hcourse : m.Course p due (some result, m'))
    (hends : ∀ steps, result ≠ .ok (.stepLimit steps)) : m.Course q due (some result, m') := by
  cases hcourse with
  | halted hlt hmoves hstays => exact .halted (Nat.lt_of_lt_of_le hlt hlimit) hmoves hstays
  | failed hlt hmoves hfails => exact .failed (Nat.lt_of_lt_of_le hlt hlimit) hmoves hfails
  | stepLimit hmax hmoves => exact absurd rfl (hends _)

theorem exists_result_of_course {limit : UInt64}
    {r : Option (Except Fault Outcome) × Machine δ κ ρ}
    (hcourse : m.Course { p with maxSteps := some limit } due r) :
    ∃ result, r.1 = some result ∧
      ∀ steps, result = .ok (.stepLimit steps) →
        steps = limit.toNat ∧ m.Proceeds due limit.toNat ∧
          r.2 = (m.after due limit.toNat).render.2 := by
  cases hcourse with
  | halted hlt hmoves hstays => exact ⟨_, rfl, nofun⟩
  | failed hlt hmoves hfails => exact ⟨_, rfl, nofun⟩
  | stepLimit hmax hmoves =>
    obtain rfl := Option.some.inj hmax
    refine ⟨_, rfl, fun steps hsteps => ?_⟩
    cases hsteps
    refine ⟨rfl, hmoves, ?_⟩
    rw [perform_append]
    rfl
  | endless hmax hmoves hleft => cases hmax

theorem run_render [LawfulDisplay δ] (hd : AlwaysRenders m.display) (p : Pacing)
    (clock : Nat → Nat) :
    (m.render.2.run p clock).1 = (m.run p clock).1 ∧
      (m.run p clock).2.Coincides (m.render.2.run p clock).2 := by
  obtain ⟨hresult, hleft⟩ := (Rerendered.correspondence hd).run p clock (.render_right m)
    fun _ _ _ _ _ h => h.stepsAlike hd
  exact ⟨hresult, hleft.coincides hd⟩

/-- In fast forward a run that is stopped at a frame and taken up again comes to the same as the run
in one piece. Unless it reaches the stop, the one is the other; if it does, the second part ends as
the whole does, with fewer steps, and leaves the same machine behind but for the frames and what is
noted down. -/
theorem run_split [LawfulDisplay δ] (m : Machine δ κ ρ) (p : Pacing) (hfast : p.fastForward = true)
    (hd : AlwaysRenders m.display) {first second : UInt64}
    (hframe : max 1 (p.clockSpeed.toNat / max 1 p.timerSpeed.toNat) ∣ first.toNat)
    (hsum : first.toNat + second.toNat < UInt64.size) (clock clock' clock'' : Nat → Nat) :
    let start := m.run { p with maxSteps := some first } clock
    let rest := start.2.run { p with maxSteps := some second } clock'
    let whole := m.run { p with maxSteps := some (first + second) } clock''
    ∃ result, start.1 = some result ∧
      ((∀ steps, result ≠ .ok (.stepLimit steps)) → whole = start) ∧
      ∀ steps, result = .ok (.stepLimit steps) → steps = first.toNat ∧
        ∃ ending, rest.1 = some ending ∧
          whole.1 = some (ending.map (Outcome.after first.toNat)) ∧
          whole.2.Coincides rest.2 := by
  intro start rest whole
  have hdue (limit : UInt64) (clock : Nat → Nat) (steps : Nat) :
      Pacing.FrameDue { p with maxSteps := some limit } clock steps ↔ p.stepsPerFrame ∣ steps :=
    Pacing.frameDue_iff (p := { p with maxSteps := some limit }) hfast clock steps
  have htotal : (first + second).toNat = first.toNat + second.toNat := by
    rw [UInt64.toNat_add, Nat.mod_eq_of_lt hsum]
  have hcourse : m.Course { p with maxSteps := some first } (p.stepsPerFrame ∣ ·) start :=
    (run_eq_iff hd (hdue first clock)).1 rfl
  obtain ⟨result, hresult, hstopped⟩ := exists_result_of_course hcourse
  refine ⟨result, hresult, fun hends => ?_, fun steps hsteps => ?_⟩
  · have hlimit : Pacing.limit { p with maxSteps := some first } ≤
        Pacing.limit { p with maxSteps := some (first + second) } := by
      change first.toNat ≤ (first + second).toNat
      omega
    have hstart : start = (some result, start.2) := Prod.ext hresult rfl
    rw [hstart] at hcourse ⊢
    exact (run_eq_iff hd (hdue _ clock'')).2 (hcourse.extend hlimit hends)
  · obtain ⟨rfl, hmoves, hleft⟩ := hstopped steps hsteps
    have hrenders := alwaysRenders_after hd (p.stepsPerFrame ∣ ·) first.toNat
    obtain ⟨hsame, hcoincides⟩ := run_render hrenders { p with maxSteps := some second } clock'
    rw [← hleft] at hsame hcoincides
    obtain ⟨ending, m', hending, hjournal, hwhole⟩ :=
      ((run_eq_iff hrenders (hdue second clock')).1 rfl).prepend
        (fun _ => (Nat.dvd_add_right hframe)) htotal hmoves
    have hrun : whole = (some (ending.map (Outcome.after first.toNat)), m') :=
      (run_eq_iff hd (hdue _ clock'')).2 hwhole
    obtain ⟨journal, rfl⟩ := hjournal
    refine ⟨rfl, ending, hsame.trans hending, by rw [hrun], ?_⟩
    rw [hrun]
    exact ⟨hcoincides.config, hcoincides.core, hcoincides.pixel, hcoincides.keypad,
      hcoincides.random⟩

/-- Three instructions, the last of them a jump to itself. A run that is stopped after the second,
with a frame due, halts at its next instruction. -/
theorem run_split_halted :
    ∃ m : Machine Picture NoKeypad ByteTape,
      (m.run ⟨120, 60, some 2, true⟩ (fun _ => 0)).1 = some (.ok (.stepLimit 2)) ∧
        (m.run ⟨120, 60, some 7, true⟩ (fun _ => 0)).1 = some (.ok (.halted 3)) ∧
        ((m.run ⟨120, 60, some 2, true⟩ (fun _ => 0)).2.run ⟨120, 60, some 5, true⟩
          (fun _ => 0)).1 = some (.ok (.halted 1)) ∧
        (m.run ⟨120, 60, some 7, true⟩ (fun _ => 0)).2.Coincides
          ((m.run ⟨120, 60, some 2, true⟩ (fun _ => 0)).2.run ⟨120, 60, some 5, true⟩
            (fun _ => 0)).2 := by
  refine ⟨ofBytes [0x60, 0x05, 0x70, 0x01, 0x10, 0x04], ?_⟩
  have hd : AlwaysRenders (ofBytes [0x60, 0x05, 0x70, 0x01, 0x10, 0x04]).display := fun _ => rfl
  have hmoves : (ofBytes [0x60, 0x05, 0x70, 0x01, 0x10, 0x04]).Proceeds (2 ∣ ·) 2 := by
    decide +kernel
  have hstays : ((ofBytes [0x60, 0x05, 0x70, 0x01, 0x10, 0x04]).after (2 ∣ ·) 2).Stays := by
    decide +kernel
  have hstart : (ofBytes [0x60, 0x05, 0x70, 0x01, 0x10, 0x04]).run ⟨120, 60, some 2, true⟩
      (fun _ => 0) = _ :=
    (run_eq_stepLimit_iff hd (Pacing.frameDue_iff rfl _)).2 ⟨rfl, hmoves, rfl⟩
  have hwhole : (ofBytes [0x60, 0x05, 0x70, 0x01, 0x10, 0x04]).run ⟨120, 60, some 7, true⟩
      (fun _ => 0) = _ :=
    (run_eq_halted_iff hd (Pacing.frameDue_iff rfl _)).2
      ⟨Nat.succ_pos 2, by decide, hmoves, hstays, rfl⟩
  have hframe : max 1 (120 / max 1 60) ∣ (2 : UInt64).toNat := by decide
  have hsum : (2 : UInt64).toNat + (5 : UInt64).toNat < UInt64.size := by decide
  obtain ⟨result, hresult, _, hstopped⟩ :=
    run_split (ofBytes [0x60, 0x05, 0x70, 0x01, 0x10, 0x04]) ⟨120, 60, none, true⟩ rfl hd
      hframe hsum (fun _ => 0) (fun _ => 0) (fun _ => 0)
  have hlimit : result = .ok (.stepLimit 2) :=
    Option.some.inj (hresult.symm.trans (congrArg Prod.fst hstart))
  obtain ⟨_, ending, hending, hsame, hcoincides⟩ := hstopped 2 hlimit
  have hhalted := hsame.symm.trans (congrArg Prod.fst hwhole)
  have hone : ending = .ok (.halted 1) := by
    cases ending with
    | error fault => cases hhalted
    | ok outcome =>
      cases outcome with
      | stepLimit k => cases hhalted
      | halted k =>
        obtain rfl : k = 1 := by
          simp only [Except.map, Outcome.after, Option.some.injEq, Except.ok.injEq,
            Outcome.halted.injEq] at hhalted
          exact Nat.add_left_cancel hhalted
        rfl
  exact ⟨congrArg Prod.fst hstart, congrArg Prod.fst hwhole, hone ▸ hending, hcoincides⟩

end Machine

end ChipEight
