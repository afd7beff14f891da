import ChipEight.Machine
import ChipEight.Proofs.Core.Frame
import ChipEight.Proofs.Display.Stroke

namespace ChipEight

theorem mapError_eq_ok_iff {α ε ε' : Type} {result : Except ε α} {f : ε → ε'} {a : α} :
    result.mapError f = .ok a ↔ result = .ok a := by
  cases result with
  | error e => exact ⟨nofun, nofun⟩
  | ok b =>
    constructor
    · intro h
      exact congrArg _ (Except.ok.inj h)
    · intro h
      exact congrArg _ (Except.ok.inj h)

theorem mapError_eq_error_iff {α ε ε' : Type} {result : Except ε α} {f : ε → ε'} {e' : ε'} :
    result.mapError f = .error e' ↔ ∃ e, result = .error e ∧ e' = f e := by
  cases result with
  | error e =>
    constructor
    · intro h
      cases h
      exact ⟨e, rfl, rfl⟩
    · rintro ⟨_, he, rfl⟩
      cases he
      rfl
  | ok b => exact ⟨nofun, nofun⟩

namespace Machine

variable {δ κ ρ : Type}

/-- The instruction that the next step executes, if there is one. -/
def next? (m : Machine δ κ ρ) : Option Instruction := m.core.fetch.toOption.bind Instruction.decode

/-- A machine at rest whose memory holds `bytes` and nothing else; `pc` is on the first of them. -/
def ofBytes (bytes : List UInt8) : Machine Picture NoKeypad ByteTape where
  config := ⟨.ofNat bytes.length, 0, true⟩
  core := ⟨.replicate 16 0, 0, 0, 0, .replicate stackDepth 0, 0, 0,
    (Memory.zeroed (.ofNat bytes.length)).put 0 bytes⟩
  display := .blank
  keypad := ⟨⟩
  random := .ofBytes []
  journal := .start none
  frames := 0

theorem next?_eq_some_iff {m : Machine δ κ ρ} {instruction : Instruction} :
    m.next? = some instruction ↔
      ∃ word, m.core.fetch = .ok word ∧ Instruction.decode word = some instruction := by
  cases hf : m.core.fetch with
  | error fault => simp [next?, hf, Except.toOption]
  | ok word => simp [next?, hf, Except.toOption]

variable [Display δ] [Keypad κ] [RandomSource ρ]

theorem core_serve_of_ok {m : Machine δ κ ρ} {r : Request} {P : Core → Prop} (hr : r.Leaves P)
    (h : (m.serve r).1 = .ok ()) : P (m.serve r).2.core := by
  cases r with
  | done core => exact hr
  | fail fault => cases h
  | clearScreen core =>
    rcases hd : Display.clear m.display with ⟨_ | _, d⟩
    · simp [serve, hd] at h
    · simpa [serve, hd, Request.Leaves] using hr
  | draw x y sprite resume => exact hr _
  | testKey key resume => exact hr _
  | awaitKey resume =>
    rcases hk : Keypad.awaitPress m.keypad with ⟨_ | key, k⟩
    · simp [serve, hk] at h
    · cases hc : resume key with
      | error fault => simp [serve, hk, hc] at h
      | ok core => simpa [serve, hk, hc] using hr key core hc
  | randomByte resume => exact hr _

theorem serve_of_error {m : Machine δ κ ρ} {r : Request} {fault : Fault}
    (h : (m.serve r).1 = .error fault) :
    ((∃ reason, r = .fail reason) ∧ (m.serve r).2 = m) ∨
      (∃ core, r = .clearScreen core ∧
        (m.serve r).2 = { m with display := (Display.clear m.display).2 }) ∨
      ∃ resume, r = .awaitKey resume ∧
        (m.serve r).2 = { m with keypad := (Keypad.awaitPress m.keypad).2 } := by
  cases r with
  | done core => cases h
  | fail reason => exact .inl ⟨⟨reason, rfl⟩, rfl⟩
  | clearScreen core =>
    rcases hd : Display.clear m.display with ⟨_ | _, d⟩
    · exact .inr (.inl ⟨core, rfl, by simp [serve, hd]⟩)
    · simp [serve, hd] at h
  | draw x y sprite resume => cases h
  | testKey key resume => cases h
  | awaitKey resume =>
    refine .inr (.inr ⟨resume, rfl, ?_⟩)
    rcases hk : Keypad.awaitPress m.keypad with ⟨_ | key, k⟩
    · simp [serve, hk]
    · cases hc : resume key with
      | error fault => simp [serve, hk, hc]
      | ok core => simp [serve, hk, hc] at h
  | randomByte resume => cases h

theorem core_serve_of_error {m : Machine δ κ ρ} {r : Request} {fault : Fault}
    (h : (m.serve r).1 = .error fault) : (m.serve r).2.core = m.core := by
  obtain ⟨_, he⟩ | ⟨_, _, he⟩ | ⟨_, _, he⟩ := serve_of_error h <;> rw [he]

theorem exists_display_serve (m : Machine δ κ ρ) (r : Request) :
    ∃ strokes, (m.serve r).2.display = Display.draw m.display strokes := by
  cases r with
  | done core => exact ⟨[], rfl⟩
  | fail fault => exact ⟨[], rfl⟩
  | clearScreen core =>
    refine ⟨[.clear], ?_⟩
    rcases hd : Display.clear m.display with ⟨_ | _, d⟩ <;> simp [serve, hd, Display.apply]
  | draw x y sprite resume => exact ⟨_, Display.snd_drawDots _ _⟩
  | testKey key resume => exact ⟨[], rfl⟩
  | awaitKey resume =>
    refine ⟨[], ?_⟩
    rcases hk : Keypad.awaitPress m.keypad with ⟨_ | key, k⟩
    · simp [serve, hk]
    · cases hc : resume key <;> simp [serve, hk, hc]
  | randomByte resume => exact ⟨[], rfl⟩

theorem exists_serve_eq (m : Machine δ κ ρ) (r : Request) :
    ∃ core display keypad random, (m.serve r).2 = { m with core, display, keypad, random } := by
  cases r with
  | clearScreen core =>
    rcases hd : Display.clear m.display with ⟨_ | _, d⟩
    · exact ⟨m.core, d, m.keypad, m.random, by simp [serve, hd]⟩
    · exact ⟨core, d, m.keypad, m.random, by simp [serve, hd]⟩
  | awaitKey resume =>
    rcases hk : Keypad.awaitPress m.keypad with ⟨_ | key, k⟩
    · exact ⟨m.core, m.display, k, m.random, by simp [serve, hk]⟩
    · cases hc : resume key with
      | error fault => exact ⟨m.core, m.display, k, m.random, by simp [serve, hk, hc]⟩
      | ok core => exact ⟨core, m.display, k, m.random, by simp [serve, hk, hc]⟩
  | _ => exact ⟨_, _, _, _, rfl⟩

/-- Past the word that was fetched, with the instruction noted down and not yet executed. -/
def enter (m : Machine δ κ ρ) (word : Word) (instruction : Instruction) : Machine δ κ ρ :=
  { m with core := m.core.advance }.note (.executing m.core.pc word instruction)

def served (m : Machine δ κ ρ) (word : Word) (instruction : Instruction) :
    Except Fault Unit × Machine δ κ ρ :=
  (m.enter word instruction).serve (m.core.advance.execute instruction)

theorem step_of_fetch_error {m : Machine δ κ ρ} {fault : Fault} (h : m.core.fetch = .error fault) :
    m.step = (.error fault, m) := by
  rw [step, h]

theorem step_of_unknown {m : Machine δ κ ρ} {word : Word} (hf : m.core.fetch = .ok word)
    (hd : Instruction.decode word = none) :
    m.step =
      if m.config.strict then
        (.error (.instruction m.core.pc word .unknownOpcode), { m with core := m.core.advance })
      else (.ok (), { m with core := m.core.advance }.note (.skipped m.core.pc word)) := by
  rw [step, hf]
  simp only [execute, hd]
  cases m.config.strict with
  | false => rfl
  | true => rfl

theorem step_of_decode {m : Machine δ κ ρ} {word : Word} {instruction : Instruction}
    (hf : m.core.fetch = .ok word) (hd : Instruction.decode word = some instruction) :
    m.step = ((m.served word instruction).1.mapError (.instruction m.core.pc word),
      (m.served word instruction).2) := by
  rw [step, hf]
  simp only [execute, hd]
  rfl

theorem step_of_done {m : Machine δ κ ρ} {word : Word} {instruction : Instruction} {c : Core}
    (hf : m.core.fetch = .ok word) (hd : Instruction.decode word = some instruction)
    (hc : m.core.advance.execute instruction = .done c) :
    m.step = (.ok (), { m.enter word instruction with core := c }) := by
  rw [step_of_decode hf hd, served, hc]
  rfl

theorem step_eq_ok_iff_of_decode {m : Machine δ κ ρ} {word : Word} {instruction : Instruction}
    (hf : m.core.fetch = .ok word) (hd : Instruction.decode word = some instruction) :
    m.step.1 = .ok () ↔ (m.served word instruction).1 = .ok () := by
  rw [step_of_decode hf hd]
  exact mapError_eq_ok_iff

theorem step_eq_error_iff_of_decode {m : Machine δ κ ρ} {word : Word} {instruction : Instruction}
    (hf : m.core.fetch = .ok word) (hd : Instruction.decode word = some instruction)
    {fault : Fault} :
    m.step.1 = .error fault ↔
      ∃ reason, (m.served word instruction).1 = .error reason ∧
        fault = .instruction m.core.pc word reason := by
  rw [step_of_decode hf hd]
  exact mapError_eq_error_iff

theorem isOk_step_iff {m : Machine δ κ ρ} : m.step.1.isOk = true ↔ m.step.1 = .ok () := by
  cases m.step.1 with
  | error fault => exact ⟨nofun, nofun⟩
  | ok _ => exact ⟨fun _ => rfl, fun _ => rfl⟩

theorem core_step_of_ok {m : Machine δ κ ρ} {instruction : Instruction} {P : Core → Prop}
    (hn : m.next? = some instruction) (hr : (m.core.advance.execute instruction).Leaves P)
    (h : m.step.1 = .ok ()) : P m.step.2.core := by
  obtain ⟨word, hf, hd⟩ := next?_eq_some_iff.1 hn
  have hok := (step_eq_ok_iff_of_decode hf hd).1 h
  rw [step_of_decode hf hd]
  exact core_serve_of_ok hr hok

theorem core_step_of_error {m : Machine δ κ ρ} {fault : Fault} (h : m.step.1 = .error fault) :
    m.step.2.core = m.core ∨ m.step.2.core = m.core.advance := by
  cases hf : m.core.fetch with
  | error _ => exact .inl (by rw [step_of_fetch_error hf])
  | ok word =>
    right
    cases hd : Instruction.decode word with
    | none =>
      rw [step_of_unknown hf hd]
      split <;> rfl
    | some instruction =>
      obtain ⟨_, hserved, _⟩ := (step_eq_error_iff_of_decode hf hd).1 h
      rw [step_of_decode hf hd]
      exact core_serve_of_error hserved

theorem core_step_of_next?_eq_none {m : Machine δ κ ρ} (h : m.next? = none) :
    m.step.2.core = m.core ∨ m.step.2.core = m.core.advance := by
  cases hf : m.core.fetch with
  | error _ => exact .inl (by rw [step_of_fetch_error hf])
  | ok word =>
    have hd : Instruction.decode word = none := by simpa [next?, hf, Except.toOption] using h
    right
    rw [step_of_unknown hf hd]
    split <;> rfl

theorem size_memory_step (m : Machine δ κ ρ) :
    m.step.2.core.memory.size = m.core.memory.size := by
  have hkept (h : m.step.2.core = m.core ∨ m.step.2.core = m.core.advance) :
      m.step.2.core.memory.size = m.core.memory.size := by
    obtain he | he := h
    · rw [he]
    · exact congrArg (·.memory.size) he
  cases hs : m.step.1 with
  | error fault => exact hkept (core_step_of_error hs)
  | ok _ =>
    cases hn : m.next? with
    | none => exact hkept (core_step_of_next?_eq_none hn)
    | some instruction =>
      exact core_step_of_ok (P := (·.memory.size = m.core.memory.size)) hn
        (m.core.advance.size_memory_execute instruction) hs

theorem exists_display_step (m : Machine δ κ ρ) :
    ∃ strokes, m.step.2.display = Display.draw m.display strokes := by
  cases hf : m.core.fetch with
  | error fault =>
    rw [step_of_fetch_error hf]
    exact ⟨[], rfl⟩
  | ok word =>
    cases hd : Instruction.decode word with
    | none =>
      rw [step_of_unknown hf hd]
      split <;> exact ⟨[], rfl⟩
    | some instruction =>
      rw [step_of_decode hf hd]
      exact exists_display_serve (m.enter word instruction) _

/-- A step leaves the settings and the count of frames alone. -/
theorem exists_step_eq (m : Machine δ κ ρ) :
    ∃ core display keypad random journal,
      m.step.2 = { m with core, display, keypad, random, journal } := by
  cases hf : m.core.fetch with
  | error fault =>
    exact ⟨m.core, m.display, m.keypad, m.random, m.journal, by rw [step_of_fetch_error hf]⟩
  | ok word =>
    cases hd : Instruction.decode word with
    | none =>
      rw [step_of_unknown hf hd]
      split
      · exact ⟨m.core.advance, m.display, m.keypad, m.random, m.journal, rfl⟩
      · exact ⟨m.core.advance, m.display, m.keypad, m.random, _, rfl⟩
    | some instruction =>
      obtain ⟨core, display, keypad, random, hserve⟩ :=
        (m.enter word instruction).exists_serve_eq (m.core.advance.execute instruction)
      rw [step_of_decode hf hd, served, hserve]
      exact ⟨core, display, keypad, random, _, rfl⟩

theorem config_step (m : Machine δ κ ρ) : m.step.2.config = m.config := by
  obtain ⟨_, _, _, _, _, he⟩ := m.exists_step_eq
  rw [he]

theorem frames_step (m : Machine δ κ ρ) : m.step.2.frames = m.frames := by
  obtain ⟨_, _, _, _, _, he⟩ := m.exists_step_eq
  rw [he]

end Machine

end ChipEight
