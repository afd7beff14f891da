import ChipEight.Proofs.Core.Flow
import ChipEight.Proofs.Instruction.Fields
import ChipEight.Proofs.Machine.Failure

namespace ChipEight.Machine

variable {δ κ ρ : Type} [Keypad κ]

/-- What an instruction that can skip looks for is the case. -/
def Skips (m : Machine δ κ ρ) : Instruction → Prop
  | .skipEqByte x kk => m.core.getV x = kk
  | .skipNeByte x kk => m.core.getV x ≠ kk
  | .skipEq x y => m.core.getV x = m.core.getV y
  | .skipNe x y => m.core.getV x ≠ m.core.getV y
  | .skipKeyDown x => (Keypad.isDown m.keypad (m.core.getV x &&& 0xF)).1 = true
  | .skipKeyUp x => (Keypad.isDown m.keypad (m.core.getV x &&& 0xF)).1 = false
  | _ => False

/-- The address that `pc` has after a step that executes an instruction, or that passes over a word
that is none. -/
inductive LeadsTo (m : Machine δ κ ρ) : Option Instruction → Nat → Prop
  | jump (nnn : UInt16) : LeadsTo m (some (.jump nnn)) nnn.toNat
  | call (nnn : UInt16) : LeadsTo m (some (.call nnn)) nnn.toNat
  -- The offset is added to an address of twelve bits, and the sum is not reduced.
  | jumpOffset {nnn : UInt16} (hnnn : nnn.toNat ≤ 0xFFF) :
      LeadsTo m (some (.jumpOffset nnn)) (nnn.toNat + (m.core.getV .first).toNat)
  | ret {depth : Nat} {target : UInt16} (hsp : m.core.sp.toNat = depth + 1)
      (htarget : m.core.stack[depth]? = some target) : LeadsTo m (some .ret) target.toNat
  | skip {instruction : Instruction} (hskips : m.Skips instruction) :
      LeadsTo m (some instruction) ((m.core.pc.toNat + 4) % 65536)
  | next {decoded : Option Instruction}
      (h : ∀ instruction ∈ decoded, ¬ instruction.Transfers ∧ ¬ m.Skips instruction) :
      LeadsTo m decoded ((m.core.pc.toNat + 2) % 65536)

omit [Keypad κ] in
/-- The instruction sets `pc` to the address that it stands at. -/
inductive LeadsBack (m : Machine δ κ ρ) : Instruction → Prop
  | jump : LeadsBack m (.jump m.core.pc)
  | call : LeadsBack m (.call m.core.pc)
  | jumpOffset {nnn : UInt16} (h : nnn.toNat + (m.core.getV .first).toNat = m.core.pc.toNat) :
      LeadsBack m (.jumpOffset nnn)
  | ret {depth : Nat} (hsp : m.core.sp.toNat = depth + 1)
      (htarget : m.core.stack[depth]? = some m.core.pc) : LeadsBack m .ret

variable {m : Machine δ κ ρ} {instruction : Instruction}

omit [Keypad κ] in
theorem LeadsBack.transfers (h : m.LeadsBack instruction) : instruction.Transfers := by
  cases h <;> trivial

theorem LeadsTo.eq_pc_iff {decoded : Option Instruction} {target : Nat}
    (h : m.LeadsTo decoded target) :
    target = m.core.pc.toNat ↔
      ∃ instruction, decoded = some instruction ∧ m.LeadsBack instruction := by
  have hpc := m.core.pc.toNat_lt
  cases h with
  | jump nnn =>
    constructor
    · intro he
      obtain rfl := UInt16.toNat_inj.1 he
      exact ⟨_, rfl, .jump⟩
    · rintro ⟨_, ⟨⟩, hback⟩
      cases hback
      rfl
  | call nnn =>
    constructor
    · intro he
      obtain rfl := UInt16.toNat_inj.1 he
      exact ⟨_, rfl, .call⟩
    · rintro ⟨_, ⟨⟩, hback⟩
      cases hback
      rfl
  | jumpOffset hnnn =>
    constructor
    · exact fun he => ⟨_, rfl, .jumpOffset he⟩
    · rintro ⟨_, ⟨⟩, hback⟩
      cases hback with
      | jumpOffset he => exact he
  | @ret depth target hsp htarget =>
    constructor
    · intro he
      obtain rfl := UInt16.toNat_inj.1 he
      exact ⟨_, rfl, .ret hsp htarget⟩
    · rintro ⟨_, ⟨⟩, hback⟩
      cases hback with
      | @ret depth' hsp' htarget' =>
        obtain rfl : depth' = depth := by omega
        rw [htarget] at htarget'
        rw [Option.some.inj htarget']
  | skip hskips =>
    constructor
    · omega
    · rintro ⟨_, ⟨⟩, hback⟩
      cases hback <;> exact hskips.elim
  | next hnext =>
    constructor
    · omega
    · rintro ⟨_, rfl, hback⟩
      exact absurd hback.transfers (hnext _ rfl).1

theorem leadsTo_advance {decoded : Option Instruction} {c : Core} (hc : c.pc = m.core.advance.pc)
    (h : ∀ instruction ∈ decoded, ¬ instruction.Transfers ∧ ¬ m.Skips instruction) :
    m.LeadsTo decoded c.pc.toNat := by
  have hsum : c.pc.toNat = (m.core.pc.toNat + 2) % 65536 := by
    rw [hc, Core.advance, UInt16.toNat_add]
    rfl
  rw [hsum]
  exact .next h

variable [Display δ] [RandomSource ρ] {word : Word}

theorem leadsTo_step_of_skipIf (hf : m.core.fetch = .ok word)
    (hd : Instruction.decode word = some instruction) (hcan : instruction.CanSkip)
    {condition : Bool}
    (hserved : (m.served word instruction).2.core = m.core.advance.skipIf condition)
    (hiff : condition = true ↔ m.Skips instruction) :
    m.LeadsTo (some instruction) m.step.2.core.pc.toNat := by
  have hstep : m.step.2.core = m.core.advance.skipIf condition := by
    rw [step_of_decode hf hd, hserved]
  cases condition with
  | false =>
    refine leadsTo_advance (congrArg Core.pc hstep) fun i hi => ?_
    obtain rfl := Option.some.inj hi
    exact ⟨hcan.not_transfers, fun h => nomatch hiff.2 h⟩
  | true =>
    have hsum : m.step.2.core.pc.toNat = (m.core.pc.toNat + 4) % 65536 := by
      simp only [hstep, Core.skipIf, if_true, Core.advance, UInt16.toNat_add, UInt16.reduceToNat]
      omega
    rw [hsum]
    exact .skip (hiff.1 rfl)

theorem leadsTo_step_of_decode (hf : m.core.fetch = .ok word)
    (hd : Instruction.decode word = some instruction) (hok : m.step.1 = .ok ()) :
    m.LeadsTo (some instruction) m.step.2.core.pc.toNat := by
  have hn := next?_eq_some_iff.2 ⟨word, hf, hd⟩
  cases instruction with
  | jump nnn =>
    rw [step_of_done hf hd rfl]
    exact .jump nnn
  | call nnn =>
    refine core_step_of_ok (P := (m.LeadsTo _ ·.pc.toNat)) hn
      (Request.leaves_ofExcept.2 fun c' hc => ?_) hok
    obtain ⟨_, rfl⟩ := Core.call_eq_ok_iff.1 hc
    exact .call nnn
  | ret =>
    refine core_step_of_ok (P := (m.LeadsTo _ ·.pc.toNat)) hn
      (Request.leaves_ofExcept.2 fun c' hc => ?_) hok
    obtain ⟨depth, target, hsp, htarget, rfl⟩ := Core.ret_eq_ok_iff.1 hc
    exact .ret hsp htarget
  | jumpOffset nnn =>
    have hnnn := Instruction.toNat_of_decode_jumpOffset hd
    have hv := (m.core.getV .first).toNat_lt
    have hsum : (nnn + (m.core.getV .first).toUInt16).toNat =
        nnn.toNat + (m.core.getV .first).toNat := by
      rw [UInt16.toNat_add, UInt8.toNat_toUInt16]
      omega
    rw [step_of_done hf hd rfl]
    exact hsum ▸ .jumpOffset hnnn
  | skipEqByte x kk =>
    exact leadsTo_step_of_skipIf hf hd trivial rfl decide_eq_true_iff
  | skipNeByte x kk =>
    exact leadsTo_step_of_skipIf hf hd trivial rfl decide_eq_true_iff
  | skipEq x y =>
    exact leadsTo_step_of_skipIf hf hd trivial rfl decide_eq_true_iff
  | skipNe x y =>
    exact leadsTo_step_of_skipIf hf hd trivial rfl decide_eq_true_iff
  | skipKeyDown x =>
    exact leadsTo_step_of_skipIf hf hd trivial rfl Iff.rfl
  | skipKeyUp x =>
    exact leadsTo_step_of_skipIf hf hd trivial rfl (.of_eq (Bool.not_eq_true' _))
  | _ =>
    refine leadsTo_advance (core_step_of_ok hn (m.core.advance.pc_execute id id) hok) fun i hi => ?_
    obtain rfl := Option.some.inj hi
    exact ⟨id, id⟩

theorem leadsTo_step (hf : m.core.fetch = .ok word) (hok : m.step.1 = .ok ()) :
    m.LeadsTo (Instruction.decode word) m.step.2.core.pc.toNat := by
  cases hd : Instruction.decode word with
  | some instruction => exact leadsTo_step_of_decode hf hd hok
  | none =>
    have hskipped : m.step.2.core = m.core.advance := by
      rw [step_of_unknown hf hd]
      split <;> rfl
    rw [hskipped]
    exact leadsTo_advance rfl nofun

theorem step_of_jump {nnn : UInt16} (hf : m.core.fetch = .ok word)
    (hd : Instruction.decode word = some (.jump nnn) ∨
      Instruction.decode word = some (.jumpOffset nnn)) :
    ∃ journal, m.step.2 = { m with core := { m.core with pc := m.step.2.core.pc }, journal } := by
  obtain hd | hd := hd
  · rw [step_of_done hf hd rfl]
    exact ⟨_, rfl⟩
  · rw [step_of_done hf hd rfl]
    exact ⟨_, rfl⟩

/-- Where a step that succeeds leads: a jump and a call to their address, an offset jump to the sum
of its address and V0, a return to the innermost return address, an instruction that skips past the
next word, and any other word, also one that is no instruction, to the next. So the step stays where
it is exactly if it is a jump, a call or a return that leads there, and a jump changes nothing but
`pc`. -/
theorem control_flow_exact (m : Machine δ κ ρ) (hok : m.step.1 = .ok ()) :
    ∃ word, m.core.PointsAt word ∧
      m.LeadsTo (Instruction.decode word) m.step.2.core.pc.toNat ∧
      (m.step.2.core.pc = m.core.pc ↔
        ∃ instruction, Instruction.decode word = some instruction ∧ m.LeadsBack instruction) ∧
      ∀ nnn, Instruction.decode word = some (.jump nnn) ∨
          Instruction.decode word = some (.jumpOffset nnn) →
        ∃ journal,
          m.step.2 = { m with core := { m.core with pc := m.step.2.core.pc }, journal } := by
  cases hf : m.core.fetch with
  | error fault =>
    rw [step_of_fetch_error hf] at hok
    cases hok
  | ok word =>
    have hleads := leadsTo_step hf hok
    refine ⟨word, Core.fetch_eq_ok_iff.1 hf, hleads, ?_, fun nnn => step_of_jump hf⟩
    rw [← UInt16.toNat_inj]
    exact hleads.eq_pc_iff

/-- V0 holds 2, and the next word, at address 2, is an offset jump to the address 0. -/
def jumpingByOffset : Machine Picture NoKeypad ByteTape :=
  (ofBytes [0x60, 0x02, 0xB0, 0x00]).step.2

theorem control_flow_exact_by_offset :
    jumpingByOffset.step.1 = .ok () ∧ jumpingByOffset.step.2.core.pc = jumpingByOffset.core.pc ∧
      ∃ journal, jumpingByOffset.step.2 = { jumpingByOffset with journal } := by
  have hok : jumpingByOffset.step.1 = .ok () := isOk_step_iff.1 (by decide +kernel)
  obtain ⟨word, hp, _, hiff, hjump⟩ := control_flow_exact jumpingByOffset hok
  have hpoints : jumpingByOffset.core.PointsAt ⟨0xB000⟩ :=
    ⟨0xB0, 0x00, by decide +kernel, by decide +kernel, by decide⟩
  have hword : word = ⟨0xB000⟩ := by
    have hfetch := (Core.fetch_eq_ok_iff.2 hp).symm.trans (Core.fetch_eq_ok_iff.2 hpoints)
    exact Except.ok.inj hfetch
  have hd : Instruction.decode word = some (.jumpOffset 0) := by
    rw [hword]
    decide
  have hsame : jumpingByOffset.step.2.core.pc = jumpingByOffset.core.pc :=
    hiff.2 ⟨_, hd, .jumpOffset (by decide +kernel)⟩
  obtain ⟨journal, hstep⟩ := hjump 0 (.inr hd)
  rw [hsame] at hstep
  exact ⟨hok, hsame, journal, hstep⟩

end ChipEight.Machine
