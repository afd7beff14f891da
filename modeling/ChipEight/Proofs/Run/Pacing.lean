import ChipEight.Proofs.Machine.Following
import ChipEight.Proofs.Run.Course

namespace ChipEight

open Display (AlwaysRenders)

namespace Machine

variable {δ κ ρ : Type} [Display δ]

/-- Two machines that differ at most in their timers and in what rendering does. -/
structure Agree (m m' : Machine δ κ ρ) : Prop where
  config : m.config = m'.config
  core : m.core.untimed = m'.core.untimed
  pixel (x y : Nat) : Display.pixel m.display x y = Display.pixel m'.display x y
  keypad : m.keypad = m'.keypad
  random : m.random = m'.random
  journal : m.journal = m'.journal

theorem Follows.agree [LawfulDisplay δ] {d : δ} {m m' x : Machine δ κ ρ} (hd : AlwaysRenders d)
    (h : Follows d m x) (h' : Follows d m' x) : m.Agree m' := by
  obtain ⟨strokes, frames, hm, hx⟩ := h
  obtain ⟨strokes', frames', hm', hx'⟩ := h'
  have hboth := hx.symm.trans hx'
  simp only [untimed, shownOn, mk.injEq] at hboth
  obtain ⟨hconfig, hcore, hshown, hkeypad, hrandom, hjournal, _⟩ := hboth
  refine ⟨hconfig, hcore, fun x y => ?_, hkeypad, hrandom, hjournal⟩
  rw [hm, hm', LawfulDisplay.pixel_draw hd, hshown, ← LawfulDisplay.pixel_draw hd]

variable [Keypad κ] [RandomSource ρ]

/-- The machine after `count` steps with nothing in between. -/
def unpaced (m : Machine δ κ ρ) (count : Nat) : Machine δ κ ρ := m.after (fun _ => False) count

theorem unpaced_succ (m : Machine δ κ ρ) (count : Nat) :
    m.unpaced (count + 1) = (m.unpaced count).step.2 := by
  unfold unpaced
  rw [after_succ, if_neg id]

/-- None of the first `count` instructions reads the delay timer. -/
def Timeless (m : Machine δ κ ρ) (count : Nat) : Prop :=
  ∀ steps < count, ∀ x, (m.unpaced steps).next? ≠ some (.readDelay x)

/-- A run whose frames are due at certain counts of instructions comes to this instruction. -/
def Executes (m : Machine δ κ ρ) (p : Pacing) (due : Nat → Prop) [DecidablePred due]
    (instruction : Instruction) : Prop :=
  ∃ steps < p.limit, m.Proceeds due steps ∧ (m.after due steps).next? = some instruction

theorem Timeless.le {m : Machine δ κ ρ} {count less : Nat} (h : m.Timeless count)
    (hle : less ≤ count) : m.Timeless less :=
  fun steps hlt => h steps (Nat.lt_of_lt_of_le hlt hle)

section Following

variable [LawfulDisplay δ]

namespace Follows

variable {d : δ} {m x : Machine δ κ ρ}

theorem moves_iff (h : Follows d m x) (hd : AlwaysRenders d)
    (hne : ∀ i, x.next? ≠ some (.readDelay i)) : m.Moves ↔ x.Moves := by
  obtain ⟨hresult, hleft⟩ := h.step hd hne
  unfold Moves
  rw [hresult, hleft.pc, h.pc]

theorem stays_iff (h : Follows d m x) (hd : AlwaysRenders d)
    (hne : ∀ i, x.next? ≠ some (.readDelay i)) : m.Stays ↔ x.Stays := by
  obtain ⟨hresult, hleft⟩ := h.step hd hne
  unfold Stays
  rw [hresult, hleft.pc, h.pc]

end Follows

variable {m : Machine δ κ ρ}

theorem follows_after (hd : AlwaysRenders m.display) {count : Nat} (h : m.Timeless count)
    (due : Nat → Prop) [DecidablePred due] :
    Follows m.display (m.after due count) (m.unpaced count) := by
  induction count with
  | zero => exact .refl m
  | succ count ih =>
    have hbefore := ih (h.le (Nat.le_succ count))
    obtain ⟨_, hafter⟩ := hbefore.step hd (h count (Nat.lt_succ_self count))
    rw [after_succ, unpaced_succ]
    split
    · exact hafter.tick.render
    · exact hafter

theorem proceeds_of_timeless (hd : AlwaysRenders m.display) {count : Nat} (h : m.Timeless count)
    {due due' : Nat → Prop} [DecidablePred due] [DecidablePred due']
    (hmoves : m.Proceeds due count) : m.Proceeds due' count := by
  intro steps hlt
  have hbefore := h.le (Nat.le_of_lt hlt)
  have hne := h steps hlt
  have hunpaced := ((follows_after hd hbefore due).moves_iff hd hne).1 (hmoves steps hlt)
  exact ((follows_after hd hbefore due').moves_iff hd hne).2 hunpaced

theorem timeless_of_not_executes (hd : AlwaysRenders m.display) {p : Pacing} {due : Nat → Prop}
    [DecidablePred due] (hno : ∀ x, ¬ m.Executes p due (.readDelay x)) {count : Nat}
    (hreached : ∀ steps < count, steps < p.limit ∧ m.Proceeds due steps) : m.Timeless count := by
  induction count with
  | zero => exact fun _ hlt => absurd hlt (Nat.not_lt_zero _)
  | succ count ih =>
    have hbefore := ih fun steps hlt => hreached steps (Nat.lt_succ_of_lt hlt)
    intro steps hlt x hnext
    obtain hlt | rfl := Nat.lt_succ_iff_lt_or_eq.1 hlt
    · exact hbefore steps hlt x hnext
    · obtain ⟨hlimit, hmoves⟩ := hreached steps (Nat.lt_succ_self steps)
      have hfollows := follows_after hd hbefore due
      exact hno x ⟨steps, hlimit, hmoves, hfollows.next?.trans hnext⟩

theorem timeless_succ_of_not_executes (hd : AlwaysRenders m.display) {p : Pacing}
    {due : Nat → Prop} [DecidablePred due] (hno : ∀ x, ¬ m.Executes p due (.readDelay x))
    {steps : Nat} (hlimit : steps < p.limit) (hmoves : m.Proceeds due steps) :
    m.Timeless (steps + 1) := by
  refine timeless_of_not_executes hd hno fun before hlt => ?_
  have hle := Nat.le_of_lt_succ hlt
  exact ⟨Nat.lt_of_le_of_lt hle hlimit, hmoves.le hle⟩

/-- The course of one run is the course of the other, up to the timers and the frames. -/
theorem Course.repaced (hd : AlwaysRenders m.display) {p q : Pacing}
    (hsame : p.maxSteps = q.maxSteps) {due : Nat → Prop} [DecidablePred due] (due' : Nat → Prop)
    [DecidablePred due'] {r : Option (Except Fault Outcome) × Machine δ κ ρ}
    (hcourse : m.Course p due r) (hreturns : r.1.isSome)
    (hno : ∀ x, ¬ m.Executes p due (.readDelay x)) :
    ∃ m', m.Course q due' (r.1, m') ∧ r.2.Agree m' := by
  have hlimits : q.limit = p.limit := by rw [Pacing.limit, Pacing.limit, hsame]
  cases hcourse with
  | @halted steps hlimit hmoves hstays =>
    have htimeless := timeless_succ_of_not_executes hd hno hlimit hmoves
    have hbefore := htimeless.le (Nat.le_succ steps)
    have hne := htimeless steps (Nat.lt_succ_self steps)
    have hfollows := follows_after hd hbefore due
    have hfollows' := follows_after hd hbefore due'
    have hstays' := (hfollows'.stays_iff hd hne).2 ((hfollows.stays_iff hd hne).1 hstays)
    refine ⟨_, .halted (hlimits ▸ hlimit) (proceeds_of_timeless hd hbefore hmoves) hstays', ?_⟩
    rw [perform_append, perform_append, hfollows.pc, hfollows'.pc]
    obtain ⟨_, hleft⟩ := hfollows.step hd hne
    obtain ⟨_, hleft'⟩ := hfollows'.step hd hne
    exact (hleft.render.note _).agree hd (hleft'.render.note _)
  | @failed steps fault hlimit hmoves hfails =>
    have htimeless := timeless_succ_of_not_executes hd hno hlimit hmoves
    have hbefore := htimeless.le (Nat.le_succ steps)
    have hne := htimeless steps (Nat.lt_succ_self steps)
    obtain ⟨hresult, hleft⟩ := (follows_after hd hbefore due).step hd hne
    obtain ⟨hresult', hleft'⟩ := (follows_after hd hbefore due').step hd hne
    have hfails' := hresult'.trans (hresult.symm.trans hfails)
    refine ⟨_, .failed (hlimits ▸ hlimit) (proceeds_of_timeless hd hbefore hmoves) hfails', ?_⟩
    rw [perform_append, perform_append]
    exact hleft.agree hd hleft'
  | @stepLimit max hmax hmoves =>
    have htimeless : m.Timeless max.toNat := timeless_of_not_executes hd hno fun before hlt =>
      ⟨(Pacing.limit_of_some hmax).symm ▸ hlt, hmoves.le (Nat.le_of_lt hlt)⟩
    refine ⟨_, .stepLimit (hsame ▸ hmax) (proceeds_of_timeless hd htimeless hmoves), ?_⟩
    rw [perform_append, perform_append]
    exact (follows_after hd htimeless due).render.agree hd (follows_after hd htimeless due').render
  | endless => cases hreturns

/-- A run that returns without having read the delay timer returns the same at any other pacing, and
leaves the same machine behind but for the timers and the frames. -/
theorem run_repaced (m : Machine δ κ ρ) {p q : Pacing} (hsame : p.maxSteps = q.maxSteps)
    (clock clock' : Nat → Nat) (hd : AlwaysRenders m.display)
    (hreturns : (m.run p clock).1.isSome)
    (hno : ∀ x, ¬ m.Executes p (p.FrameDue clock) (.readDelay x)) :
    (m.run q clock').1 = (m.run p clock).1 ∧ (m.run p clock).2.Agree (m.run q clock').2 := by
  have hcourse := (run_eq_iff hd fun _ => Iff.rfl).1 (Eq.refl (m.run p clock))
  obtain ⟨m', hcourse', hagree⟩ := hcourse.repaced hd hsame (q.FrameDue clock') hreturns hno
  rw [hcourse'.run_eq hd]
  exact ⟨rfl, hagree⟩

end Following

/-- With a tick after each instruction the delay timer runs down, with none it does not; the program
sets it and halts in either case. -/
theorem run_repaced_halted :
    ∃ m : Machine Picture NoKeypad ByteTape,
      (m.run ⟨60, 60, none, true⟩ (fun _ => 0)).1 = some (.ok (.halted 3)) ∧
        (m.run ⟨500, 60, none, false⟩ (fun _ => 0)).1 = some (.ok (.halted 3)) ∧
        (m.run ⟨60, 60, none, true⟩ (fun _ => 0)).2.Agree
          (m.run ⟨500, 60, none, false⟩ (fun _ => 0)).2 := by
  refine ⟨ofBytes [0x60, 0x05, 0xF0, 0x15, 0x10, 0x04], ?_⟩
  have hd : AlwaysRenders (ofBytes [0x60, 0x05, 0xF0, 0x15, 0x10, 0x04]).display := fun _ => rfl
  have hstays : ((ofBytes [0x60, 0x05, 0xF0, 0x15, 0x10, 0x04]).after
      (Pacing.FrameDue ⟨60, 60, none, true⟩ fun _ => 0) 2).Stays := by
    decide +kernel
  have hmoves : (ofBytes [0x60, 0x05, 0xF0, 0x15, 0x10, 0x04]).Proceeds
      (Pacing.FrameDue ⟨60, 60, none, true⟩ fun _ => 0) 2 := by
    decide +kernel
  have hnone : ∀ steps < 3, ∀ x, ((ofBytes [0x60, 0x05, 0xF0, 0x15, 0x10, 0x04]).after
      (Pacing.FrameDue ⟨60, 60, none, true⟩ fun _ => 0) steps).next? ≠ some (.readDelay x) := by
    decide +kernel
  have hrun : (ofBytes [0x60, 0x05, 0xF0, 0x15, 0x10, 0x04]).run ⟨60, 60, none, true⟩
      (fun _ => 0) = _ :=
    (run_eq_halted_iff hd fun _ => Iff.rfl).2 ⟨Nat.succ_pos 2, by decide, hmoves, hstays, rfl⟩
  have hresult := congrArg Prod.fst hrun
  obtain ⟨hsame, hagree⟩ := run_repaced (ofBytes [0x60, 0x05, 0xF0, 0x15, 0x10, 0x04])
    (p := ⟨60, 60, none, true⟩) (q := ⟨500, 60, none, false⟩) rfl (fun _ => 0) (fun _ => 0) hd
    (by rw [hresult]; rfl) (by
      rintro x ⟨steps, _, hproceeds, hnext⟩
      have hle := hproceeds.not_lt fun hmove => hmove.2 hstays.2
      exact hnone steps (Nat.lt_succ_of_le hle) x hnext)
  exact ⟨hresult, hsame.trans hresult, hagree⟩

end Machine

end ChipEight
