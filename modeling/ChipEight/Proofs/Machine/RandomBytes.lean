import ChipEight.Proofs.Machine.Action
import ChipEight.Proofs.Machine.Failure

namespace ChipEight

namespace ByteTape

/-- The byte with the number `n`, counted from zero, of a sequence that starts over when it runs
out. -/
def cyclic (bytes : List UInt8) (n : Nat) : UInt8 := bytes[n % bytes.length]?.getD 0

/-- The tape holds `bytes`, and `n` of them have been taken. -/
structure HasYielded (t : ByteTape) (bytes : List UInt8) (n : Nat) : Prop where
  bytes_eq : t.bytes = bytes.toArray
  position_eq : t.position = if bytes = [] then 0 else n % bytes.length

theorem hasYielded_ofBytes (bytes : List UInt8) : (ofBytes bytes).HasYielded bytes 0 := by
  constructor
  · rfl
  · rw [Nat.zero_mod, ite_self]
    rfl

theorem HasYielded.next {t : ByteTape} {bytes : List UInt8} {n : Nat} (h : t.HasYielded bytes n) :
    t.next.1 = cyclic bytes n ∧ t.next.2.HasYielded bytes (n + 1) := by
  obtain ⟨tape, position⟩ := t
  obtain ⟨rfl, rfl⟩ := h
  cases bytes with
  | nil => exact ⟨rfl, rfl, rfl⟩
  | cons b bytes =>
    have hlt : n % (b :: bytes).length < (b :: bytes).length := Nat.mod_lt _ (Nat.succ_pos _)
    have hbyte : (b :: bytes)[n % (b :: bytes).length]? = some (cyclic (b :: bytes) n) := by
      rw [cyclic, List.getElem?_eq_getElem hlt, Option.getD_some]
    simp only [ByteTape.next, if_neg (List.cons_ne_nil b bytes), List.getElem?_toArray, hbyte,
      List.size_toArray]
    refine ⟨trivial, rfl, ?_⟩
    rw [if_neg (List.cons_ne_nil b bytes), Nat.mod_add_mod]

theorem HasYielded.position_lt {t : ByteTape} {bytes : List UInt8} {n : Nat}
    (h : t.HasYielded bytes n) (hne : bytes ≠ []) : t.position < bytes.length := by
  rw [h.position_eq, if_neg hne]
  exact Nat.mod_lt _ (List.length_pos_iff.2 hne)

end ByteTape

theorem Core.execute_ne_randomByte (c : Core) {instruction : Instruction}
    (h : ∀ x kk, instruction ≠ .random x kk) (resume : UInt8 → Core) :
    c.execute instruction ≠ .randomByte resume := by
  have hresult (result : Except Fault Core) : Request.ofExcept result ≠ .randomByte resume := by
    intro he
    cases result <;> cases he
  intro he
  cases instruction with
  | random x kk => exact h x kk rfl
  | ret => exact hresult _ he
  | call nnn => exact hresult _ he
  | storeDecimal x => exact hresult _ he
  | storeRegisters x => exact hresult _ he
  | loadRegisters x => exact hresult _ he
  | draw x y n =>
    simp only [execute] at he
    split at he <;> cases he
  | _ => cases he

namespace Machine

section Source

variable {δ κ ρ : Type} [Display δ] [Keypad κ] [RandomSource ρ] {m : Machine δ κ ρ}

/-- The register that the action puts a random byte into, and the byte's mask, if it does. -/
def randomized (m : Machine δ κ ρ) : Action δ κ → Option (Register × UInt8)
  | .step =>
    match m.next? with
    | some (.random x kk) => some (x, kk)
    | _ => none
  | _ => none

def rolls (m : Machine δ κ ρ) : List (Action δ κ) → Nat
  | [] => 0
  | action :: rest => (m.randomized action).toList.length + (m.act action).rolls rest

omit [Display δ] [Keypad κ] [RandomSource ρ] in
theorem randomized_eq_some_iff {action : Action δ κ} {x : Register} {kk : UInt8} :
    m.randomized action = some (x, kk) ↔ action = .step ∧ m.next? = some (.random x kk) := by
  cases action with
  | step =>
    rcases hn : m.next? with _ | instruction
    · simp [randomized, hn]
    · cases instruction <;> simp [randomized, hn]
  | _ => exact ⟨nofun, nofun⟩

theorem random_serve_of_ne {request : Request} (h : ∀ resume, request ≠ .randomByte resume) :
    (m.serve request).2.random = m.random := by
  cases request with
  | clearScreen core =>
    rcases hd : Display.clear m.display with ⟨_ | _, d⟩ <;> simp [serve, hd]
  | awaitKey resume =>
    rcases hk : Keypad.awaitPress m.keypad with ⟨_ | key, k⟩
    · simp [serve, hk]
    · cases hc : resume key <;> simp [serve, hk, hc]
  | randomByte resume => exact absurd rfl (h resume)
  | _ => rfl

theorem random_step_of_ne (h : ∀ x kk, m.next? ≠ some (.random x kk)) :
    m.step.2.random = m.random := by
  cases hf : m.core.fetch with
  | error fault => rw [step_of_fetch_error hf]
  | ok word =>
    cases hd : Instruction.decode word with
    | none =>
      rw [step_of_unknown hf hd]
      split <;> rfl
    | some instruction =>
      have hne : ∀ x kk, instruction ≠ .random x kk := by
        intro x kk he
        apply h x kk
        rw [← he]
        exact next?_eq_some_iff.2 ⟨word, hf, hd⟩
      rw [step_of_decode hf hd]
      exact random_serve_of_ne (m := m.enter word instruction)
        (m.core.advance.execute_ne_randomByte hne)

theorem step_of_random {x : Register} {kk : UInt8} (hn : m.next? = some (.random x kk)) :
    m.step.1 = .ok () ∧
      m.step.2.core = m.core.advance.setV x ((RandomSource.next m.random).1 &&& kk) ∧
      m.step.2.random = (RandomSource.next m.random).2 := by
  obtain ⟨word, hf, hd⟩ := next?_eq_some_iff.1 hn
  rw [step_of_decode hf hd]
  exact ⟨rfl, rfl, rfl⟩

theorem random_act_of_none {action : Action δ κ} (h : m.randomized action = none) :
    (m.act action).random = m.random := by
  cases action with
  | step =>
    apply random_step_of_ne
    intro x kk hn
    cases h.symm.trans (randomized_eq_some_iff.2 ⟨rfl, hn⟩)
  | load source offset =>
    obtain ⟨memory, journal, he⟩ := m.exists_load_eq source offset
    rw [act, he]
  | _ => rfl

theorem random_act_of_some {action : Action δ κ} {x : Register} {kk : UInt8}
    (h : m.randomized action = some (x, kk)) :
    (m.act action).random = (RandomSource.next m.random).2 := by
  obtain ⟨rfl, hn⟩ := randomized_eq_some_iff.1 h
  exact (step_of_random hn).2.2

theorem random_step_of_error {fault : Fault} (h : m.step.1 = .error fault) :
    m.step.2.random = m.random := by
  apply random_step_of_ne
  intro x kk hn
  cases h.symm.trans (step_of_random hn).1

end Source

variable {δ κ ρ : Type} [Display δ] [Keypad κ] [RandomSource ρ]

/-- As many bytes have been taken from the tape as were asked for. -/
theorem hasYielded_perform {m : Machine δ κ ByteTape} {bytes : List UInt8} {n : Nat}
    (h : m.random.HasYielded bytes n) (actions : List (Action δ κ)) :
    (m.perform actions).random.HasYielded bytes (n + m.rolls actions) := by
  induction actions generalizing m n with
  | nil => exact h
  | cons action actions ih =>
    cases ha : m.randomized action with
    | none =>
      have hkept : (m.act action).random.HasYielded bytes n := by
        rw [random_act_of_none ha]
        exact h
      simp only [rolls, ha, Option.toList_none, List.length_nil, Nat.zero_add]
      exact ih hkept
    | some target =>
      have htaken : (m.act action).random.HasYielded bytes (n + 1) := by
        rw [random_act_of_some ha]
        exact h.next.2
      simp only [rolls, ha, Option.toList_some, List.length_singleton, ← Nat.add_assoc]
      exact ih htaken

/-- Whatever the source of random bytes, an action takes one byte from it if it is a step that
executes a `Cxkk`, and none else; steps that fail and words that are no instruction take none. So on a
tape, after any actions, as many bytes have been taken as `Cxkk` were executed, and the next `Cxkk`
succeeds and puts into Vx, masked by `kk`, the byte of that number, around the end of the tape; on an
empty tape that is zero. The position is on the tape all the time. -/
theorem random_bytes_in_order :
    (∀ (m : Machine δ κ ρ) (action : Action δ κ),
      (∀ x kk, action = .step → m.next? = some (.random x kk) →
        (m.act action).random = (RandomSource.next m.random).2) ∧
      ((∀ x kk, action = .step → m.next? ≠ some (.random x kk)) →
        (m.act action).random = m.random) ∧
      (m.next? = none → m.step.2.random = m.random) ∧
      ∀ fault, m.step.1 = .error fault → m.step.2.random = m.random) ∧
    ∀ (bytes : List UInt8) (m : Machine δ κ ByteTape), m.random = .ofBytes bytes →
      ∀ actions : List (Action δ κ),
        let n := m.rolls actions
        let x := m.perform actions
        x.random.bytes = bytes.toArray ∧
        (bytes ≠ [] → x.random.position < bytes.length ∧ x.random.position = n % bytes.length) ∧
        (bytes = [] → x.random.position = 0) ∧
        ∀ r kk, x.next? = some (.random r kk) →
          x.step.1 = .ok () ∧
          x.step.2.core =
            { x.core with pc := x.core.pc + 2 }.setV r (bytes[n % bytes.length]?.getD 0 &&& kk) := by
  constructor
  · intro m action
    refine ⟨?_, ?_, ?_, fun fault => random_step_of_error⟩
    · intro x kk hstep hn
      exact random_act_of_some (randomized_eq_some_iff.2 ⟨hstep, hn⟩)
    · intro hne
      apply random_act_of_none
      rw [Option.eq_none_iff_forall_ne_some]
      rintro ⟨x, kk⟩ ha
      obtain ⟨hstep, hn⟩ := randomized_eq_some_iff.1 ha
      exact hne x kk hstep hn
    · intro hn
      apply random_step_of_ne
      intro x kk hrandom
      cases hn.symm.trans hrandom
  · intro bytes m hm actions n x
    have hstart : m.random.HasYielded bytes 0 := hm ▸ ByteTape.hasYielded_ofBytes bytes
    have hyielded : x.random.HasYielded bytes n := by
      have h := hasYielded_perform hstart actions
      rwa [Nat.zero_add] at h
    refine ⟨hyielded.bytes_eq, ?_, ?_, ?_⟩
    · intro hne
      refine ⟨hyielded.position_lt hne, ?_⟩
      rw [hyielded.position_eq, if_neg hne]
    · intro hempty
      rw [hyielded.position_eq, if_pos hempty]
    · intro r kk hn
      obtain ⟨hok, hcore, _⟩ := step_of_random hn
      refine ⟨hok, ?_⟩
      rw [hcore]
      exact congrArg (Core.setV _ r <| · &&& kk) hyielded.next.1

def withTwoBytes : Machine Picture NoKeypad ByteTape := fresh .blank ⟨⟩ (.ofBytes [0x12, 0x34])

/-- Two words that ask for a random byte, the first with a mask of zero, and a return in between that
fails. A third one follows. -/
def twoRolls : List (Action Picture NoKeypad) :=
  [.load (.ofBytes [0xC0, 0x00, 0x00, 0xEE, 0xC1, 0xF0, 0xC2, 0xFF]) 0x50, .step, .step, .tick,
    .step]

/-- The third byte is the first again. -/
theorem random_bytes_in_order_again :
    withTwoBytes.rolls twoRolls = 2 ∧
      (withTwoBytes.perform twoRolls).random.position = 0 ∧
      (withTwoBytes.perform twoRolls).next? = some (.random 2 0xFF) ∧
      (withTwoBytes.perform twoRolls).step.1 = .ok () ∧
      (withTwoBytes.perform twoRolls).step.2.core.getV 2 = 0x12 := by
  have hrolls : withTwoBytes.rolls twoRolls = 2 := by decide +kernel
  have hnext : (withTwoBytes.perform twoRolls).next? = some (.random 2 0xFF) := by decide +kernel
  obtain ⟨_, hall⟩ := @random_bytes_in_order Picture NoKeypad ByteTape _ _ _
  obtain ⟨_, hposition, _, hroll⟩ := hall [0x12, 0x34] withTwoBytes rfl twoRolls
  rw [hrolls] at hposition hroll
  obtain ⟨hok, hcore⟩ := hroll 2 0xFF hnext
  refine ⟨hrolls, (hposition (List.cons_ne_nil _ _)).2, hnext, hok, ?_⟩
  rw [hcore, Core.getV_setV_self]
  decide

end Machine

end ChipEight
