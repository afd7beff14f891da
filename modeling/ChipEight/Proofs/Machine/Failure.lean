import ChipEight.Proofs.Core.Transfer
import ChipEight.Proofs.Machine.Step

namespace ChipEight

namespace Request

/-- Neither that the display be cleared nor for a key, which are the two requests that can fail. -/
def AsksNeither : Request → Prop
  | .clearScreen _ => False
  | .awaitKey _ => False
  | _ => True

theorem asksNeither_ofExcept (result : Except Fault Core) : (ofExcept result).AsksNeither := by
  cases result with
  | error fault => trivial
  | ok core => trivial

/-- Each fault with which the core itself can end the request satisfies `P`. -/
def Raises (P : Fault → Prop) : Request → Prop
  | .fail fault => P fault
  | .awaitKey resume => ∀ key fault, resume key = .error fault → P fault
  | _ => True

theorem raises_ofExcept {P : Fault → Prop} {result : Except Fault Core} :
    (ofExcept result).Raises P ↔ ∀ fault, result = .error fault → P fault := by
  cases result with
  | error fault => simp [ofExcept, Raises]
  | ok core => simp [ofExcept, Raises]

end Request

namespace Core

/-- The two bytes at `pc`, the high one first, make up `word`. -/
def PointsAt (c : Core) (word : Word) : Prop :=
  ∃ high low, c.memory.byte? c.pc.toNat = some high ∧ c.memory.byte? (c.pc.toNat + 1) = some low ∧
    word.bits.toNat = 256 * high.toNat + low.toNat

theorem fetch_eq_ok_iff {c : Core} {word : Word} : c.fetch = .ok word ↔ c.PointsAt word :=
  Memory.word_eq_ok_iff

theorem ret_eq_error_iff {c : Core} (hsp : c.sp.toNat ≤ stackDepth) {fault : Fault} :
    c.ret = .error fault ↔ c.sp = 0 ∧ fault = .stackUnderflow := by
  by_cases h : c.sp = 0
  · simp [ret, returnAddress?, h, eq_comm]
  · have hpos : c.sp.toNat ≠ 0 := fun h0 => h (UInt16.toNat_inj.1 h0)
    have hlt : c.sp.toNat - 1 < stackDepth := by omega
    simp [ret, returnAddress?, h, hlt]

theorem call_eq_error_iff {c : Core} (hsp : c.sp.toNat ≤ stackDepth) {target : UInt16}
    {fault : Fault} :
    c.call target = .error fault ↔ c.sp.toNat = stackDepth ∧ fault = .stackOverflow stackDepth := by
  by_cases h : c.sp.toNat < stackDepth
  · have hne : c.sp.toNat ≠ stackDepth := Nat.ne_of_lt h
    simp [call, h, hne]
  · have he : c.sp.toNat = stackDepth := by omega
    simp [call, he, eq_comm]

theorem ret_error {c : Core} {fault : Fault} (h : c.ret = .error fault) :
    fault = .stackUnderflow := by
  unfold ret at h
  split at h <;> cases h
  rfl

theorem call_error {c : Core} {target : UInt16} {fault : Fault} (h : c.call target = .error fault) :
    fault = .stackOverflow stackDepth := by
  unfold call at h
  split at h <;> cases h
  rfl

theorem storeAtIndex_eq_error_iff {c : Core} {bytes : List UInt8} {fault : Fault} :
    c.storeAtIndex bytes = .error fault ↔
      c.memory.size < c.i.toNat + bytes.length ∧
        fault = .outOfBounds c.i.toNat bytes.length c.memory.size := by
  rw [← Memory.writeAll_eq_error_iff, storeAtIndex]
  cases c.memory.writeAll c.i.toNat bytes with
  | error fault => simp [bind, Except.bind]
  | ok memory => simp [bind, Except.bind, pure, Except.pure]

theorem loadRegisters_eq_error_iff {c : Core} {x : Register} {fault : Fault} :
    c.loadRegisters x = .error fault ↔
      c.memory.size < c.i.toNat + (x.val + 1) ∧
        fault = .outOfBounds c.i.toNat (x.val + 1) c.memory.size := by
  rw [← Memory.slice_eq_error_iff, loadRegisters]
  cases c.memory.slice c.i.toNat (x.val + 1) with
  | error fault => simp [bind, Except.bind]
  | ok bytes => simp [bind, Except.bind, pure, Except.pure]

theorem acceptKey_eq_error_iff {c : Core} {x : Register} {key : UInt8} {fault : Fault} :
    c.acceptKey x key = .error fault ↔ 15 < key.toNat ∧ fault = .invalidKey key := by
  have hle : key ≤ 0xF ↔ key.toNat ≤ 15 := UInt8.le_iff_toNat_le
  by_cases h : key.toNat ≤ 15
  · simp [acceptKey, hle, h, Nat.not_lt.2 h]
  · simp [acceptKey, hle, h, Nat.not_le.1 h, eq_comm]

theorem execute_asksNeither (c : Core) {i : Instruction} (hclear : i ≠ .clearScreen)
    (hkey : ∀ x, i ≠ .awaitKey x) : (c.execute i).AsksNeither := by
  cases i with
  | clearScreen => exact absurd rfl hclear
  | awaitKey x => exact absurd rfl (hkey x)
  | ret => exact Request.asksNeither_ofExcept _
  | call nnn => exact Request.asksNeither_ofExcept _
  | storeDecimal x => exact Request.asksNeither_ofExcept _
  | storeRegisters x => exact Request.asksNeither_ofExcept _
  | loadRegisters x => exact Request.asksNeither_ofExcept _
  | draw x y n =>
    simp only [execute]
    split <;> trivial
  | _ => trivial

theorem raises_execute (c : Core) {P : Fault → Prop} {instruction : Instruction}
    (hbounds : ∀ address len size, P (.outOfBounds address len size))
    (hfull : P (.stackOverflow stackDepth)) (hempty : P .stackUnderflow)
    (hkey : ∀ x key, instruction = .awaitKey x → P (.invalidKey key)) :
    (c.execute instruction).Raises P := by
  have hstore (bytes : List UInt8) : (Request.ofExcept (c.storeAtIndex bytes)).Raises P := by
    refine Request.raises_ofExcept.2 fun fault h => ?_
    obtain ⟨_, rfl⟩ := storeAtIndex_eq_error_iff.1 h
    exact hbounds _ _ _
  cases instruction with
  | ret =>
    refine Request.raises_ofExcept.2 fun fault h => ?_
    rw [ret_error h]
    exact hempty
  | call nnn =>
    refine Request.raises_ofExcept.2 fun fault h => ?_
    rw [call_error h]
    exact hfull
  | draw x y n =>
    simp only [execute]
    cases h : c.memory.slice c.i.toNat n.toNat with
    | ok sprite => trivial
    | error fault =>
      obtain ⟨_, rfl⟩ := Memory.slice_eq_error_iff.1 h
      exact hbounds _ _ _
  | awaitKey x =>
    intro key fault h
    obtain ⟨_, rfl⟩ := acceptKey_eq_error_iff.1 h
    exact hkey x key rfl
  | storeDecimal x => exact hstore _
  | storeRegisters x => exact hstore _
  | loadRegisters x =>
    refine Request.raises_ofExcept.2 fun fault h => ?_
    obtain ⟨_, rfl⟩ := loadRegisters_eq_error_iff.1 h
    exact hbounds _ _ _
  | _ => trivial

end Core

/-- How many bytes from the index on an instruction reads or writes, if it uses the index so. -/
def Instruction.window? : Instruction → Option Nat
  | .draw _ _ n => some n.toNat
  | .storeDecimal _ => some 3
  | .storeRegisters x | .loadRegisters x => some (x.val + 1)
  | _ => none

namespace Machine

variable {δ κ ρ : Type} [Display δ] [Keypad κ] [RandomSource ρ]

/-- Why an instruction that was fetched and decoded fails. -/
inductive Refuses (m : Machine δ κ ρ) : Instruction → Fault → Prop
  | noCallOpen : m.core.sp = 0 → Refuses m .ret .stackUnderflow
  | allCallsOpen (nnn : UInt16) :
      m.core.sp.toNat = 16 → Refuses m (.call nnn) (.stackOverflow 16)
  | outOfBounds {instruction : Instruction} {len : Nat} :
      instruction.window? = some len → m.core.memory.size < m.core.i.toNat + len →
      Refuses m instruction (.outOfBounds m.core.i.toNat len m.core.memory.size)
  | notCleared {error : IoError} :
      (Display.clear m.display).1 = .error error → Refuses m .clearScreen (.io error)
  | noKey (x : Register) {error : IoError} :
      (Keypad.awaitPress m.keypad).1 = .error error → Refuses m (.awaitKey x) (.io error)
  | notOnKeypad (x : Register) {key : UInt8} :
      (Keypad.awaitPress m.keypad).1 = .ok key → 15 < key.toNat →
      Refuses m (.awaitKey x) (.invalidKey key)

/-- Why a step fails: there is no word at `pc`, or the word there is refused. -/
inductive Fails (m : Machine δ κ ρ) : Fault → Prop
  | noWord :
      m.core.memory.size < m.core.pc.toNat + 2 →
      Fails m (.outOfBounds m.core.pc.toNat 2 m.core.memory.size)
  | unknown {word : Word} :
      m.core.PointsAt word → Instruction.decode word = none → m.config.strict = true →
      Fails m (.instruction m.core.pc word .unknownOpcode)
  | refused {word : Word} {instruction : Instruction} {fault : Fault} :
      m.core.PointsAt word → Instruction.decode word = some instruction →
      m.Refuses instruction fault → Fails m (.instruction m.core.pc word fault)

theorem serve_error {m : Machine δ κ ρ} {r : Request} {P : Fault → Prop} (hr : r.Raises P)
    (hio : ∀ error, P (.io error)) {fault : Fault} (h : (m.serve r).1 = .error fault) :
    P fault := by
  cases r with
  | fail reason =>
    cases h
    exact hr
  | clearScreen core =>
    rcases hd : Display.clear m.display with ⟨error | _, d⟩
    · simp only [serve, hd, Except.error.injEq] at h
      exact h ▸ hio error
    · simp [serve, hd] at h
  | awaitKey resume =>
    rcases hk : Keypad.awaitPress m.keypad with ⟨error | key, k⟩
    · simp only [serve, hk, Except.error.injEq] at h
      exact h ▸ hio error
    · cases hc : resume key with
      | error reason =>
        simp only [serve, hk, hc, Except.error.injEq] at h
        exact h ▸ hr key reason hc
      | ok core => simp [serve, hk, hc] at h
  | _ => cases h

theorem serve_ofExcept_eq_error_iff {m : Machine δ κ ρ} {result : Except Fault Core}
    {fault : Fault} : (m.serve (.ofExcept result)).1 = .error fault ↔ result = .error fault := by
  cases result <;> simp [Request.ofExcept, serve]

theorem Refuses.of_serve {m : Machine δ κ ρ} (hsp : m.core.sp.toNat ≤ stackDepth)
    {instruction : Instruction} {fault : Fault}
    (h : (m.serve (m.core.execute instruction)).1 = .error fault) :
    m.Refuses instruction fault := by
  cases instruction with
  | clearScreen =>
    rcases hd : Display.clear m.display with ⟨error | _, d⟩
    · simp only [Core.execute, serve, hd, Except.error.injEq] at h
      subst h
      exact .notCleared (by rw [hd])
    · simp [Core.execute, serve, hd] at h
  | ret =>
    obtain ⟨hz, rfl⟩ := (Core.ret_eq_error_iff hsp).1 (serve_ofExcept_eq_error_iff.1 h)
    exact .noCallOpen hz
  | call nnn =>
    obtain ⟨hfull, rfl⟩ := (Core.call_eq_error_iff hsp).1 (serve_ofExcept_eq_error_iff.1 h)
    exact .allCallsOpen nnn hfull
  | draw x y n =>
    cases hs : m.core.memory.slice m.core.i.toNat n.toNat with
    | ok sprite => simp [Core.execute, serve, hs] at h
    | error fault =>
      simp only [Core.execute, serve, hs, Except.error.injEq] at h
      obtain ⟨hlt, rfl⟩ := Memory.slice_eq_error_iff.1 (h ▸ hs)
      exact .outOfBounds rfl hlt
  | awaitKey x =>
    rcases hk : Keypad.awaitPress m.keypad with ⟨error | key, k⟩
    · simp only [Core.execute, serve, hk, Except.error.injEq] at h
      subst h
      exact .noKey x (by rw [hk])
    · cases hc : m.core.acceptKey x key with
      | ok core => simp [Core.execute, serve, hk, hc] at h
      | error fault =>
        simp only [Core.execute, serve, hk, hc, Except.error.injEq] at h
        obtain ⟨hlt, rfl⟩ := Core.acceptKey_eq_error_iff.1 (h ▸ hc)
        exact .notOnKeypad x (by rw [hk]) hlt
  | storeDecimal x =>
    obtain ⟨hlt, rfl⟩ := Core.storeAtIndex_eq_error_iff.1 (serve_ofExcept_eq_error_iff.1 h)
    exact .outOfBounds rfl hlt
  | storeRegisters x =>
    obtain ⟨hlt, rfl⟩ := Core.storeAtIndex_eq_error_iff.1 (serve_ofExcept_eq_error_iff.1 h)
    rw [Core.length_registersTo] at hlt ⊢
    exact .outOfBounds rfl hlt
  | loadRegisters x =>
    obtain ⟨hlt, rfl⟩ := Core.loadRegisters_eq_error_iff.1 (serve_ofExcept_eq_error_iff.1 h)
    exact .outOfBounds rfl hlt
  -- The others need no device, or one that cannot fail.
  | _ => cases h

theorem Refuses.serve {m : Machine δ κ ρ} (hsp : m.core.sp.toNat ≤ stackDepth)
    {instruction : Instruction} {fault : Fault} (h : m.Refuses instruction fault) :
    (m.serve (m.core.execute instruction)).1 = .error fault := by
  cases h with
  | noCallOpen hz =>
    exact serve_ofExcept_eq_error_iff.2 ((Core.ret_eq_error_iff hsp).2 ⟨hz, rfl⟩)
  | allCallsOpen nnn hfull =>
    exact serve_ofExcept_eq_error_iff.2 ((Core.call_eq_error_iff hsp).2 ⟨hfull, rfl⟩)
  | outOfBounds hw hlt =>
    cases instruction with
    | draw x y n =>
      cases hw
      simp [Core.execute, Machine.serve, Memory.slice_eq_error_iff.2 ⟨hlt, rfl⟩]
    | storeDecimal x =>
      cases hw
      exact serve_ofExcept_eq_error_iff.2 (Core.storeAtIndex_eq_error_iff.2 ⟨hlt, rfl⟩)
    | storeRegisters x =>
      cases hw
      refine serve_ofExcept_eq_error_iff.2 (Core.storeAtIndex_eq_error_iff.2 ?_)
      simpa using hlt
    | loadRegisters x =>
      cases hw
      exact serve_ofExcept_eq_error_iff.2 (Core.loadRegisters_eq_error_iff.2 ⟨hlt, rfl⟩)
    | _ => cases hw
  | @notCleared error he =>
    rcases hd : Display.clear m.display with ⟨_, d⟩
    simp_all [Core.execute, Machine.serve]
  | @noKey x error he =>
    rcases hk : Keypad.awaitPress m.keypad with ⟨_, k⟩
    simp_all [Core.execute, Machine.serve]
  | @notOnKeypad x key hkey hlt =>
    rcases hk : Keypad.awaitPress m.keypad with ⟨_, k⟩
    simp_all [Core.execute, Machine.serve, Core.acceptKey_eq_error_iff.2 ⟨hlt, rfl⟩]

omit [RandomSource ρ] in
theorem refuses_enter_iff {m : Machine δ κ ρ} {word : Word} {i instruction : Instruction}
    {fault : Fault} :
    (m.enter word i).Refuses instruction fault ↔ m.Refuses instruction fault := by
  constructor <;> intro h <;> cases h with
  | noCallOpen hz => exact .noCallOpen hz
  | allCallsOpen nnn hfull => exact .allCallsOpen nnn hfull
  | outOfBounds hw hlt => exact .outOfBounds hw hlt
  | notCleared he => exact .notCleared he
  | noKey x he => exact .noKey x he
  | notOnKeypad x hkey hlt => exact .notOnKeypad x hkey hlt

theorem step_eq_error_iff {m : Machine δ κ ρ} (hsp : m.core.sp.toNat ≤ stackDepth)
    {fault : Fault} : m.step.1 = .error fault ↔ m.Fails fault := by
  constructor
  · intro h
    cases hf : m.core.fetch with
    | error reason =>
      obtain ⟨hlt, rfl⟩ := Memory.word_eq_error_iff.1 hf
      rw [step_of_fetch_error hf] at h
      cases h
      exact .noWord hlt
    | ok word =>
      have hp := Core.fetch_eq_ok_iff.1 hf
      cases hd : Instruction.decode word with
      | none =>
        rw [step_of_unknown hf hd] at h
        split at h
        next hs =>
          cases h
          exact .unknown hp hd hs
        next hs => cases h
      | some instruction =>
        obtain ⟨reason, hr, rfl⟩ := (step_eq_error_iff_of_decode hf hd).1 h
        have hrefuses := Refuses.of_serve (m := m.enter word instruction) hsp hr
        exact .refused hp hd (refuses_enter_iff.1 hrefuses)
  · intro h
    cases h with
    | noWord hlt =>
      rw [step_of_fetch_error (Memory.word_eq_error_iff.2 ⟨hlt, rfl⟩)]
    | unknown hp hd hs =>
      rw [step_of_unknown (Core.fetch_eq_ok_iff.2 hp) hd, if_pos hs]
    | @refused word instruction reason hp hd hr =>
      have hs := Refuses.serve (m := m.enter word instruction) hsp (refuses_enter_iff.2 hr)
      exact (step_eq_error_iff_of_decode (Core.fetch_eq_ok_iff.2 hp) hd).2 ⟨reason, hs, rfl⟩

theorem step_fails_iff_refuses {m : Machine δ κ ρ} (hsp : m.core.sp.toNat ≤ stackDepth)
    {instruction : Instruction} (hn : m.next? = some instruction) :
    (∃ fault, m.step.1 = .error fault) ↔ ∃ fault, m.Refuses instruction fault := by
  obtain ⟨word, hf, hd⟩ := next?_eq_some_iff.1 hn
  constructor
  · rintro ⟨fault, h⟩
    obtain ⟨reason, hr, _⟩ := (step_eq_error_iff_of_decode hf hd).1 h
    have hrefuses := Refuses.of_serve (m := m.enter word instruction) hsp hr
    exact ⟨reason, refuses_enter_iff.1 hrefuses⟩
  · rintro ⟨fault, hr⟩
    exact ⟨_, (step_eq_error_iff hsp).2 (.refused (Core.fetch_eq_ok_iff.1 hf) hd hr)⟩

/-- The machine that has moved past a word and has tried to execute it in vain: the instruction, if
there is one, is noted down, and the device that it asks first has been asked. -/
def tried (m : Machine δ κ ρ) (word : Word) : Machine δ κ ρ :=
  { m with
    core := { m.core with pc := m.core.pc + 2 }
    display :=
      match Instruction.decode word with
      | some .clearScreen => (Display.clear m.display).2
      | _ => m.display
    keypad :=
      match Instruction.decode word with
      | some (.awaitKey _) => (Keypad.awaitPress m.keypad).2
      | _ => m.keypad
    journal :=
      match Instruction.decode word with
      | some instruction => m.journal.note (.executing m.core.pc word instruction)
      | none => m.journal }

theorem step_of_error {m : Machine δ κ ρ} {word : Word} (hp : m.core.PointsAt word) {fault : Fault}
    (h : m.step.1 = .error fault) : m.step.2 = m.tried word := by
  have hf := Core.fetch_eq_ok_iff.2 hp
  cases hd : Instruction.decode word with
  | none =>
    rw [step_of_unknown hf hd] at h ⊢
    split at h
    next hs => simp [hs, Core.advance, tried, hd]
    next hs => cases h
  | some instruction =>
    obtain ⟨reason, hr, _⟩ := (step_eq_error_iff_of_decode hf hd).1 h
    rw [step_of_decode hf hd]
    simp only [tried, hd]
    have hquiet (hclear : instruction ≠ .clearScreen) (hkey : ∀ x, instruction ≠ .awaitKey x) :
        (m.served word instruction).2 = m.enter word instruction := by
      have hn := m.core.advance.execute_asksNeither hclear hkey
      obtain ⟨_, he⟩ | ⟨_, hi, _⟩ | ⟨_, hi, _⟩ := serve_of_error hr
      · exact he
      · rw [hi] at hn
        exact hn.elim
      · rw [hi] at hn
        exact hn.elim
    cases instruction with
    | clearScreen =>
      obtain ⟨⟨_, hi⟩, _⟩ | ⟨_, _, he⟩ | ⟨_, hi, _⟩ := serve_of_error hr
      · cases hi
      · exact he
      · cases hi
    | awaitKey x =>
      obtain ⟨⟨_, hi⟩, _⟩ | ⟨_, hi, _⟩ | ⟨_, _, he⟩ := serve_of_error hr
      · cases hi
      · cases hi
      · exact he
    | _ => exact hquiet nofun nofun

/-- A step fails for the reasons listed and no others. Without a word at `pc` nothing has changed
then; otherwise registers, stack, timers and memory are as they were. -/
theorem step_failure (m : Machine δ κ ρ) (hsp : m.core.sp.toNat ≤ 16) (fault : Fault) :
    (m.step.1 = .error fault ↔ m.Fails fault) ∧
      (m.core.memory.size < m.core.pc.toNat + 2 → m.step.2 = m) ∧
      (m.core.pc.toNat + 2 ≤ m.core.memory.size → m.step.1 = .error fault →
        ∃ word, m.core.PointsAt word ∧ m.step.2 = m.tried word) := by
  refine ⟨step_eq_error_iff hsp, ?_, ?_⟩
  · intro hlt
    rw [step_of_fetch_error (Memory.word_eq_error_iff.2 ⟨hlt, rfl⟩)]
  · intro hle h
    cases hf : m.core.fetch with
    | error reason => exact absurd (Memory.word_eq_error_iff.1 hf).1 (Nat.not_lt.2 hle)
    | ok word =>
      have hp := Core.fetch_eq_ok_iff.1 hf
      exact ⟨word, hp, step_of_error hp h⟩

/-- Three registers do not fit into two bytes of memory. -/
theorem step_failure_storing :
    (ofBytes [0xF2, 0x55]).core.sp.toNat ≤ 16 ∧
      (ofBytes [0xF2, 0x55]).step.1 = .error (.instruction 0 ⟨0xF255⟩ (.outOfBounds 0 3 2)) ∧
      ∃ word, (ofBytes [0xF2, 0x55]).core.PointsAt word ∧
        (ofBytes [0xF2, 0x55]).step.2 = (ofBytes [0xF2, 0x55]).tried word := by
  have hsp : (ofBytes [0xF2, 0x55]).core.sp.toNat ≤ 16 := by decide
  have hp : (ofBytes [0xF2, 0x55]).core.PointsAt ⟨0xF255⟩ := ⟨0xF2, 0x55, rfl, rfl, by decide⟩
  have hr : (ofBytes [0xF2, 0x55]).Refuses (.storeRegisters 2) (.outOfBounds 0 3 2) :=
    .outOfBounds rfl (by decide)
  have hfail : (ofBytes [0xF2, 0x55]).step.1 = _ :=
    (step_failure _ hsp _).1.2 (.refused hp (by decide) hr)
  exact ⟨hsp, hfail, (step_failure _ hsp _).2.2 (by decide) hfail⟩

end Machine

end ChipEight
