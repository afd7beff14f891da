import ChipEight.Proofs.Machine.Flow
import ChipEight.Proofs.Run.Course
import ChipEight.Proofs.Run.Reach

namespace ChipEight

open Display (AlwaysRenders)

/-- Whether the instruction sets `pc` and does nothing else. -/
def Instruction.Jumps : Instruction → Prop
  | .jump _ | .jumpOffset _ => True
  | _ => False

namespace Core

/-- The instruction at `pc` is executed and leaves the core as it was before it. -/
def Spins (c : Core) : Prop :=
  ∃ word instruction, c.fetch = .ok word ∧ Instruction.decode word = some instruction ∧
    c.advance.execute instruction = .done c

theorem sp_call {c c' : Core} {target : UInt16} (h : c.call target = .ok c') :
    c'.sp = c.sp + 1 := by
  obtain ⟨_, rfl⟩ := call_eq_ok_iff.1 h
  rfl

theorem sp_ret {c c' : Core} (h : c.ret = .ok c') : c'.sp = c.sp - 1 := by
  obtain ⟨_, _, _, _, rfl⟩ := ret_eq_ok_iff.1 h
  rfl

end Core

namespace Machine

variable {δ κ ρ : Type} [Display δ] [Keypad κ] [RandomSource ρ]

/-- However often the machine steps from here on, each step succeeds, and nothing changes but for
what is noted down. -/
def Rests (m : Machine δ κ ρ) : Prop :=
  ∀ count, (m.perform (.replicate count .step)).step.1 = .ok () ∧
    ∃ journal, m.perform (.replicate count .step) = { m with journal }

variable {m : Machine δ κ ρ}

theorem step_of_spins (h : m.core.Spins) :
    m.step.1 = .ok () ∧ ∃ journal, m.step.2 = { m with journal } := by
  obtain ⟨word, instruction, hf, hd, hdone⟩ := h
  rw [step_of_done hf hd hdone]
  exact ⟨rfl, _, rfl⟩

theorem rests_of_spins (h : m.core.Spins) : m.Rests := by
  intro count
  induction count generalizing m with
  | zero => exact ⟨(step_of_spins h).1, m.journal, rfl⟩
  | succ count ih =>
    obtain ⟨_, journal, hstep⟩ := step_of_spins h
    have hlater : m.perform (.replicate (count + 1) .step) =
        { m with journal }.perform (.replicate count .step) :=
      congrArg (perform · _) hstep
    rw [hlater]
    exact ih (m := { m with journal }) h

theorem Rests.core_step (h : m.Rests) : m.step.1 = .ok () ∧ m.step.2.core = m.core := by
  obtain ⟨hok, _⟩ := h 0
  obtain ⟨_, journal, hstep⟩ := h 1
  have hcore : (m.perform (.replicate 1 .step)).core = m.core := by rw [hstep]
  exact ⟨hok, hcore⟩

theorem exists_next?_of_stays (h : m.Stays) :
    ∃ instruction, m.next? = some instruction ∧ instruction.Transfers := by
  obtain ⟨hok, hpc⟩ := h
  cases hf : m.core.fetch with
  | error fault =>
    rw [step_of_fetch_error hf] at hok
    cases hok
  | ok word =>
    obtain ⟨instruction, hd, hback⟩ :=
      (leadsTo_step hf hok).eq_pc_iff.1 (congrArg UInt16.toNat hpc)
    exact ⟨instruction, next?_eq_some_iff.2 ⟨word, hf, hd⟩, hback.transfers⟩

theorem spins_of_jumps (h : m.Stays) {instruction : Instruction}
    (hn : m.next? = some instruction) (hjumps : instruction.Jumps) :
    m.step.2.core = m.core ∧ m.core.Spins := by
  obtain ⟨hok, hpc⟩ := h
  obtain ⟨word, hf, hd⟩ := next?_eq_some_iff.1 hn
  have hspins (target : UInt16)
      (he : m.core.advance.execute instruction = .done { m.core.advance with pc := target }) :
      m.step.2.core = m.core ∧ m.core.Spins := by
    have hcore : m.step.2.core = { m.core.advance with pc := target } := by
      rw [step_of_done hf hd he]
    obtain rfl : target = m.core.pc := (congrArg Core.pc hcore).symm.trans hpc
    exact ⟨hcore, word, instruction, hf, hd, he⟩
  cases instruction with
  | jump nnn => exact hspins nnn rfl
  | jumpOffset nnn => exact hspins _ rfl
  | _ => exact hjumps.elim

/-- A call and a return can lead to themselves and yet do something. -/
theorem sp_step_ne {instruction : Instruction} (hn : m.next? = some instruction)
    (htransfers : instruction.Transfers) (hjumps : ¬ instruction.Jumps) (hok : m.step.1 = .ok ()) :
    m.step.2.core.sp ≠ m.core.sp := by
  cases instruction with
  | jump nnn => exact absurd trivial hjumps
  | jumpOffset nnn => exact absurd trivial hjumps
  | call nnn =>
    have hsp : m.step.2.core.sp = m.core.sp + 1 :=
      core_step_of_ok (P := (·.sp = m.core.sp + 1)) hn
        (Request.leaves_ofExcept.2 fun c' => Core.sp_call (c := m.core.advance)) hok
    rw [hsp]
    simp
  | ret =>
    have hsp : m.step.2.core.sp = m.core.sp - 1 :=
      core_step_of_ok (P := (·.sp = m.core.sp - 1)) hn
        (Request.leaves_ofExcept.2 fun c' => Core.sp_ret (c := m.core.advance)) hok
    rw [hsp, ne_eq, UInt16.sub_eq_iff_eq_add]
    simp
  | _ => exact htransfers.elim

theorem next?_step_of_stays (h : m.Stays) {instruction : Instruction}
    (hn : m.next? = some instruction) (htransfers : instruction.Transfers) :
    m.step.2.next? = some instruction := by
  obtain ⟨hok, hpc⟩ := h
  have hframed := core_step_of_ok hn (m.core.advance.framed_execute instruction) hok
  have hmemory : m.step.2.core.memory = m.core.memory := by
    refine hframed.memory ?_ ?_ <;> rintro x rfl <;> exact htransfers
  rw [← hn]
  simp only [next?, Core.fetch, hpc, hmemory]

theorem rests_step_iff (h : m.Stays) {instruction : Instruction}
    (hn : m.next? = some instruction) (htransfers : instruction.Transfers) {m' : Machine δ κ ρ}
    (hcore : m'.core = m.step.2.core) : m'.Rests ↔ instruction.Jumps := by
  constructor
  · intro hrests
    refine Classical.byContradiction fun hjumps => ?_
    have hnext : m'.next? = some instruction := by
      rw [← next?_step_of_stays h hn htransfers, next?, next?, hcore]
    obtain ⟨hok, hsame⟩ := hrests.core_step
    exact sp_step_ne hnext htransfers hjumps hok (congrArg Core.sp hsame)
  · intro hjumps
    obtain ⟨hsame, hspins⟩ := spins_of_jumps h hn hjumps
    refine rests_of_spins ?_
    rwa [hcore, hsame]

omit [Keypad κ] [RandomSource ρ] in
theorem finish_eq_ok_iff {m' : Machine δ κ ρ} {outcome reported : Outcome} :
    m.finish outcome = (.ok reported, m') ↔ m.render = (.ok (), m') ∧ reported = outcome := by
  rcases hr : m.render with ⟨fault | _, left⟩
  · simp [finish, hr, Except.map]
  · simp [finish, hr, Except.map, and_comm, eq_comm]

theorem turn_eq_halted {m' : Machine δ κ ρ} {p : Pacing} {steps k : Nat}
    (h : m.turn p steps = (some (.ok (.halted k)), m')) :
    m.Stays ∧ k = steps + 1 ∧ m' = (m.step.2.note (.halted m.core.pc k)).render.2 := by
  unfold turn at h
  split at h
  next =>
    rcases hfinish : m.finish (.stepLimit steps) with ⟨result, left⟩
    simp only [hfinish, Prod.mk.injEq, Option.some.injEq] at h
    obtain ⟨rfl, rfl⟩ := h
    cases (finish_eq_ok_iff.1 hfinish).2
  next =>
    rcases hstep : m.step with ⟨fault | _, x⟩
    · simp [hstep] at h
    · simp only [hstep] at h
      split at h
      next hpc =>
        rcases hfinish : (x.note (.halted m.core.pc (steps + 1))).finish (.halted (steps + 1)) with
          ⟨result, left⟩
        simp only [hfinish, Prod.mk.injEq, Option.some.injEq] at h
        obtain ⟨rfl, rfl⟩ := h
        obtain ⟨hrender, hk⟩ := finish_eq_ok_iff.1 hfinish
        cases hk
        refine ⟨⟨by rw [hstep], by rw [hstep]; exact hpc⟩, rfl, ?_⟩
        rw [hrender]
      next => simp at h

/-- A run that halts has executed as its last instruction one that set `pc` to its own address, and
the program has ended exactly if that was a jump. -/
theorem exists_last_of_halted {m' : Machine δ κ ρ} {p : Pacing} {clock : Nat → Nat} {k : Nat}
    (h : m.run p clock = (some (.ok (.halted k)), m')) :
    ∃ steps last instruction, k = steps + 1 ∧ m.Reaches p clock steps last ∧ last.Stays ∧
      last.next? = some instruction ∧ instruction.Transfers ∧
      m' = (last.step.2.note (.halted last.core.pc k)).render.2 ∧
      (m'.Rests ↔ instruction.Jumps) := by
  obtain ⟨steps, last, hreaches, hends⟩ := exists_ends_of_run h
  cases hends with
  | turn hturn =>
    obtain ⟨hstays, hk, hleft⟩ := turn_eq_halted hturn
    obtain ⟨instruction, hn, htransfers⟩ := exists_next?_of_stays hstays
    have hcore : m'.core = last.step.2.core := by rw [hleft]; rfl
    exact ⟨steps, last, instruction, hk, hreaches, hstays, hn, htransfers, hleft,
      rests_step_iff hstays hn htransfers hcore⟩

theorem exists_last_of_halted_jump :
    ∃ m', (ofBytes [0x10, 0x00]).run ⟨500, 60, none, true⟩ (fun _ => 0) =
      (some (.ok (.halted 1)), m') ∧ m'.Rests := by
  have hd : AlwaysRenders (ofBytes [0x10, 0x00]).display := fun _ => rfl
  have hstays : ((ofBytes [0x10, 0x00]).after
      (Pacing.FrameDue ⟨500, 60, none, true⟩ fun _ => 0) 0).Stays := by
    decide +kernel
  have hrun : (ofBytes [0x10, 0x00]).run ⟨500, 60, none, true⟩ (fun _ => 0) = _ :=
    (run_eq_halted_iff hd fun _ => Iff.rfl).2
      ⟨Nat.succ_pos 0, by decide, fun _ hlt => absurd hlt (Nat.not_lt_zero _), hstays, rfl⟩
  refine ⟨_, hrun, ?_⟩
  obtain ⟨steps, last, instruction, hk, hreaches, _, hn, _, _, hrests⟩ := exists_last_of_halted hrun
  cases hk
  cases hreaches
  have hnext : (ofBytes [0x10, 0x00]).next? = some (.jump 0) := by decide +kernel
  cases hnext.symm.trans hn
  exact hrests.2 trivial

/-- A call of the subroutine at 0x56, and a jump to itself. The subroutine calls its own return at
0x58, so that the return is executed twice. -/
def twofoldReturn : List UInt8 :=
  [0x20, 0x56, 0x60, 0x01, 0x10, 0x54, 0x20, 0x58, 0x00, 0xEE]

/-- The run halts the first time that the return is executed, two steps before V0 is set. -/
theorem halted_at_return :
    ∃ booted m' : Machine Picture NoKeypad ByteTape,
      boot ⟨96, 0x50, true⟩ .blank ⟨⟩ (.ofBytes []) (.start none) = .ok booted ∧
        (booted.loadProgram (.ofBytes twofoldReturn)).2.run ⟨500, 60, none, true⟩ (fun _ => 0) =
          (some (.ok (.halted 3)), m') ∧
        m'.next? = some .ret ∧ ¬ m'.Rests ∧ m'.core.getV .first = 0 ∧
        (m'.perform [.step, .step]).core.getV .first = 1 := by
  have hd : AlwaysRenders ((fresh Picture.blank NoKeypad.mk (ByteTape.ofBytes [])).loadProgram
      (.ofBytes twofoldReturn)).2.display := fun _ => rfl
  have hmoves : ((fresh Picture.blank NoKeypad.mk (ByteTape.ofBytes [])).loadProgram
      (.ofBytes twofoldReturn)).2.Proceeds
        (Pacing.FrameDue ⟨500, 60, none, true⟩ fun _ => 0) 2 := by
    decide +kernel
  have hstays : (((fresh Picture.blank NoKeypad.mk (ByteTape.ofBytes [])).loadProgram
      (.ofBytes twofoldReturn)).2.after
        (Pacing.FrameDue ⟨500, 60, none, true⟩ fun _ => 0) 2).Stays := by
    decide +kernel
  have hrun : ((fresh Picture.blank NoKeypad.mk (ByteTape.ofBytes [])).loadProgram
      (.ofBytes twofoldReturn)).2.run ⟨500, 60, none, true⟩ (fun _ => 0) = _ :=
    (run_eq_halted_iff hd fun _ => Iff.rfl).2 ⟨Nat.succ_pos 2, by decide, hmoves, hstays, rfl⟩
  refine ⟨_, _, boot_fresh _ _ _, hrun, by decide +kernel, fun hrests => ?_, by decide +kernel,
    by decide +kernel⟩
  have hsp := congrArg Core.sp hrests.core_step.2
  revert hsp
  decide +kernel

end Machine

end ChipEight
