import ChipEight.Proofs.Machine.Action

namespace ChipEight

namespace Action

variable {δ κ : Type}

def ticks (history : List (Action δ κ)) : Nat := history.countP (· matches .tick)

theorem ticks_append (first second : List (Action δ κ)) :
    ticks (first ++ second) = ticks first + ticks second :=
  List.countP_append

end Action

open ChipEight.Action (ticks)

inductive Timer
  | delay
  | sound
  deriving DecidableEq

namespace Timer

def value : Timer → Core → UInt8
  | .delay, c => c.delay
  | .sound, c => c.sound

/-- The instruction that sets the timer to the value of a register. -/
def setter : Timer → Register → Instruction
  | .delay => .setDelay
  | .sound => .setSound

theorem value_tick (timer : Timer) (c : Core) :
    (timer.value c.tick).toNat = (timer.value c).toNat - 1 := by
  have hdown (b : UInt8) : (if b = 0 then 0 else b - 1).toNat = b.toNat - 1 := by
    split
    next hzero =>
      rw [hzero]
      rfl
    next hpos =>
      have hone : (1 : UInt8) ≤ b :=
        UInt8.le_iff_toNat_le.2 (Nat.one_le_iff_ne_zero.2 fun h => hpos (UInt8.toNat_inj.1 h))
      rw [UInt8.toNat_sub_of_le _ _ hone, UInt8.toNat_one]
  cases timer with
  | delay => exact hdown c.delay
  | sound => exact hdown c.sound

theorem leaves_value_of_ne (timer : Timer) (c : Core) {instruction : Instruction}
    (h : ∀ x, instruction ≠ timer.setter x) :
    (c.execute instruction).Leaves (timer.value · = timer.value c) := by
  refine (c.framed_execute instruction).imp fun c' hframed => ?_
  cases timer with
  | delay => exact hframed.delay h
  | sound => exact hframed.sound h

theorem leaves_value_setter (timer : Timer) (c : Core) (x : Register) :
    (c.execute (timer.setter x)).Leaves (timer.value · = c.getV x) := by
  cases timer with
  | delay => exact Eq.refl (c.getV x)
  | sound => exact Eq.refl (c.getV x)

end Timer

namespace Machine

variable {δ κ ρ : Type} [Display δ] [Keypad κ] [RandomSource ρ]

/-- The next step succeeds and sets the timer to `s`. -/
def Sets (m : Machine δ κ ρ) (timer : Timer) (s : UInt8) : Prop :=
  m.step.1 = .ok () ∧ ∃ x, m.next? = some (timer.setter x) ∧ m.core.getV x = s

def NeverSets (m : Machine δ κ ρ) (timer : Timer) (actions : List (Action δ κ)) : Prop :=
  ∀ before, before ++ [.step] <+: actions → ∀ s, ¬ (m.perform before).Sets timer s

/-- The timer was last set to `s`, `t` ticks ago. If it has never been set, `s` is zero and all the
ticks count. -/
inductive LastSet (m : Machine δ κ ρ) (timer : Timer) : List (Action δ κ) → UInt8 → Nat → Prop
  | never {history : List (Action δ κ)} (h : m.NeverSets timer history) :
      LastSet m timer history 0 (ticks history)
  | set (before : List (Action δ κ)) {since : List (Action δ κ)} {s : UInt8}
      (hset : (m.perform before).Sets timer s)
      (hsince : (m.perform (before ++ [.step])).NeverSets timer since) :
      LastSet m timer (before ++ [.step] ++ since) s (ticks since)

variable {m : Machine δ κ ρ} {timer : Timer}

theorem neverSets_cons {action : Action δ κ} {actions : List (Action δ κ)} :
    m.NeverSets timer (action :: actions) ↔
      (action = .step → ∀ s, ¬ m.Sets timer s) ∧ (m.act action).NeverSets timer actions := by
  constructor
  · intro h
    refine ⟨?_, fun before hbefore => h (action :: before) (List.cons_prefix_cons.2 ⟨rfl, hbefore⟩)⟩
    rintro rfl
    exact h [] (List.cons_prefix_cons.2 ⟨rfl, List.nil_prefix⟩)
  · rintro ⟨hfirst, hrest⟩ before hbefore
    cases before with
    | nil => exact hfirst (List.cons_prefix_cons.1 hbefore).1.symm
    | cons first before =>
      obtain ⟨rfl, htail⟩ := List.cons_prefix_cons.1 hbefore
      exact hrest before htail

theorem exists_lastSet (m : Machine δ κ ρ) (timer : Timer) (history : List (Action δ κ)) :
    ∃ s t, m.LastSet timer history s t := by
  have hsplit : m.NeverSets timer history ∨ ∃ before since s,
      history = before ++ [.step] ++ since ∧ (m.perform before).Sets timer s ∧
        (m.perform (before ++ [.step])).NeverSets timer since := by
    induction history generalizing m with
    | nil => exact .inl fun before hbefore => by simp at hbefore
    | cons action history ih =>
      obtain hnever | ⟨before, since, s, rfl, hset, hsince⟩ := ih (m.act action)
      · by_cases hfirst : action = .step ∧ ∃ s, m.Sets timer s
        · obtain ⟨rfl, s, hset⟩ := hfirst
          exact .inr ⟨[], history, s, rfl, hset, hnever⟩
        · exact .inl (neverSets_cons.2 ⟨fun he s hset => hfirst ⟨he, s, hset⟩, hnever⟩)
      · exact .inr ⟨action :: before, since, s, rfl, hset, hsince⟩
  obtain hnever | ⟨before, since, s, rfl, hset, hsince⟩ := hsplit
  · exact ⟨_, _, .never hnever⟩
  · exact ⟨_, _, .set before hset hsince⟩

theorem value_step_of_sets {s : UInt8} (h : m.Sets timer s) : timer.value m.step.2.core = s := by
  obtain ⟨hok, x, hn, rfl⟩ := h
  exact core_step_of_ok (P := (timer.value · = m.core.getV x)) hn
    (timer.leaves_value_setter m.core.advance x) hok

theorem value_step_of_not_sets (h : ∀ s, ¬ m.Sets timer s) :
    timer.value m.step.2.core = timer.value m.core := by
  have hadvance : timer.value m.core.advance = timer.value m.core := by cases timer <;> rfl
  have hkept (he : m.step.2.core = m.core ∨ m.step.2.core = m.core.advance) :
      timer.value m.step.2.core = timer.value m.core := by
    obtain he | he := he
    · rw [he]
    · rw [he, hadvance]
  cases hs : m.step.1 with
  | error fault => exact hkept (core_step_of_error hs)
  | ok _ =>
    cases hn : m.next? with
    | none => exact hkept (core_step_of_next?_eq_none hn)
    | some instruction =>
      have hne (x : Register) : instruction ≠ timer.setter x := by
        rintro rfl
        exact h _ ⟨hs, x, hn, rfl⟩
      rw [← hadvance]
      exact core_step_of_ok (P := (timer.value · = timer.value m.core.advance)) hn
        (timer.leaves_value_of_ne m.core.advance hne) hs

/-- An action that does not set the timer counts it down if it is a tick, and else leaves it. -/
theorem value_act {action : Action δ κ} (h : action = .step → ∀ s, ¬ m.Sets timer s) :
    (timer.value (m.act action).core).toNat = (timer.value m.core).toNat - ticks [action] := by
  cases action with
  | step => exact congrArg UInt8.toNat (value_step_of_not_sets (h rfl))
  | tick => exact timer.value_tick m.core
  | load source offset =>
    obtain ⟨memory, journal, he⟩ := m.exists_load_eq source offset
    rw [act, he]
    cases timer <;> rfl
  | _ => rfl

theorem value_perform {actions : List (Action δ κ)} (h : m.NeverSets timer actions) :
    (timer.value (m.perform actions).core).toNat =
      (timer.value m.core).toNat - ticks actions := by
  induction actions generalizing m with
  | nil => rfl
  | cons action actions ih =>
    obtain ⟨hfirst, hrest⟩ := neverSets_cons.1 h
    have hticks : ticks (action :: actions) = ticks [action] + ticks actions :=
      Action.ticks_append [action] actions
    calc
      (timer.value (m.perform (action :: actions)).core).toNat =
          (timer.value (m.act action).core).toNat - ticks actions := ih hrest
      _ = (timer.value m.core).toNat - ticks (action :: actions) := by
        rw [value_act hfirst, hticks, Nat.sub_sub]

theorem value_perform_tick (m : Machine δ κ ρ) (timer : Timer) (before : List (Action δ κ)) :
    (timer.value (m.perform (before ++ [.tick])).core).toNat =
      (timer.value (m.perform before).core).toNat - 1 := by
  rw [perform_append]
  exact timer.value_tick (m.perform before).core

theorem value_of_lastSet {history : List (Action δ κ)} {s : UInt8} {t : Nat}
    (hzero : timer.value m.core = 0) (h : m.LastSet timer history s t) :
    (timer.value (m.perform history).core).toNat = s.toNat - t := by
  cases h with
  | never h => rw [value_perform h, hzero]
  | @set before since s hset hsince =>
    have hstep : m.perform (before ++ [.step]) = (m.perform before).step.2 := perform_append ..
    rw [perform_append, value_perform hsince, hstep, value_step_of_sets hset]

theorem step_of_readDelay {x : Register} (hn : m.next? = some (.readDelay x)) :
    m.step.1 = .ok () ∧ m.step.2.core.getV x = m.core.delay := by
  obtain ⟨word, hf, hd⟩ := next?_eq_some_iff.1 hn
  rw [step_of_decode hf hd]
  exact ⟨rfl, Core.getV_setV_self _ _ _⟩

omit [Display δ] [Keypad κ] [RandomSource ρ] in
theorem value_boot {config : Config} {display : δ} {keypad : κ} {random : ρ} {journal : Journal}
    (h : boot config display keypad random journal = .ok m) : timer.value m.core = 0 := by
  obtain ⟨core, hcore, rfl⟩ := boot_eq_ok_iff.1 h
  obtain ⟨memory, _, rfl⟩ := Core.boot_eq_ok_iff.1 hcore
  cases timer <;> rfl

end Machine

end ChipEight
