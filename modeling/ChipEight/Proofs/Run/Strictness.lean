import ChipEight.Proofs.Machine.Action
import ChipEight.Proofs.Machine.Failure
import ChipEight.Proofs.Machine.Recast
import ChipEight.Proofs.Run.Simulation

namespace ChipEight

namespace Core

/-- The word at `pc` is this one, and it is no instruction. -/
def Undecodable (c : Core) (word : Word) : Prop := c.PointsAt word ∧ Instruction.decode word = none

end Core

namespace Machine

variable {δ κ ρ : Type}

def inMode (m : Machine δ κ ρ) (strict : Bool) : Machine δ κ ρ :=
  { m with config := { m.config with strict } }

/-- A strict machine and a permissive one that are equal but for what they have noted down. -/
def Twins (strict permissive : Machine δ κ ρ) : Prop :=
  permissive.config.strict = false ∧ ∃ journal, strict = { permissive.inMode true with journal }

theorem twins_inMode (m : Machine δ κ ρ) : (m.inMode true).Twins (m.inMode false) :=
  ⟨rfl, m.journal, rfl⟩

variable [Display δ] [Keypad κ] [RandomSource ρ]

theorem root_step_ne {m : Machine δ κ ρ} (hmode : m.config.strict = false) {fault : Fault}
    (h : m.step.1 = .error fault) : fault.root ≠ .unknownOpcode := by
  cases hf : m.core.fetch with
  | error reason =>
    obtain ⟨_, rfl⟩ := Memory.word_eq_error_iff.1 hf
    rw [step_of_fetch_error hf] at h
    cases h
    simp [Fault.root]
  | ok word =>
    cases hd : Instruction.decode word with
    | none =>
      rw [step_of_unknown hf hd, hmode] at h
      cases h
    | some instruction =>
      obtain ⟨reason, hserved, rfl⟩ := (step_eq_error_iff_of_decode hf hd).1 h
      have hraises : (m.core.advance.execute instruction).Raises (·.root ≠ .unknownOpcode) :=
        m.core.advance.raises_execute (fun _ _ _ => by simp [Fault.root]) (by simp [Fault.root])
          (by simp [Fault.root]) fun _ _ _ => by simp [Fault.root]
      have hroot : reason.root ≠ .unknownOpcode :=
        serve_error (P := (·.root ≠ .unknownOpcode)) hraises (fun error => by simp [Fault.root])
          hserved
      exact hroot

theorem exists_step_inMode {m : Machine δ κ ρ} (h : ∀ word, ¬ m.core.Undecodable word)
    (strict : Bool) (journal : Journal) :
    ∃ journal', { m.inMode strict with journal }.step =
        m.step.map id (fun m' => { m'.inMode strict with journal := journal' }) ∧
      (journal = m.journal → journal' = m.step.2.journal) := by
  obtain ⟨journal', hstep, hsame⟩ := exists_step_recast { m.config with strict } journal
    m.core.seenThrough_id (fun _ _ => Request.mirrored_id m.display _)
    fun word hf hd => absurd ⟨Core.fetch_eq_ok_iff.1 hf, hd⟩ (h word)
  refine ⟨journal', hstep.trans (Prod.ext rfl ?_), hsame⟩
  simp only [Prod.map, recast, inMode, config_step, id]

theorem step_inMode {m : Machine δ κ ρ} (h : ∀ word, ¬ m.core.Undecodable word) (strict : Bool) :
    (m.inMode strict).step = m.step.map id (·.inMode strict) := by
  obtain ⟨journal, hstep, hsame⟩ := exists_step_inMode h strict m.journal
  obtain rfl := hsame rfl
  exact hstep

section Together

variable {strict permissive : Machine δ κ ρ}

theorem Twins.step_of_decodable (h : strict.Twins permissive)
    (hd : ∀ word, ¬ permissive.core.Undecodable word) :
    strict.step.1 = permissive.step.1 ∧ strict.step.2.Twins permissive.step.2 := by
  obtain ⟨hmode, journal, rfl⟩ := h
  obtain ⟨journal', hstep, _⟩ := exists_step_inMode hd true journal
  rw [hstep]
  exact ⟨rfl, (congrArg Config.strict permissive.config_step).trans hmode, journal', rfl⟩

theorem Twins.step_of_undecodable (h : strict.Twins permissive) {word : Word}
    (hword : permissive.core.Undecodable word) :
    strict.step.1 = .error (.instruction permissive.core.pc word .unknownOpcode) ∧
      permissive.step.1 = .ok () ∧ strict.step.2.Twins permissive.step.2 := by
  obtain ⟨hmode, journal, rfl⟩ := h
  have hf := Core.fetch_eq_ok_iff.2 hword.1
  have hstrict : { permissive.inMode true with journal }.step =
      (.error (.instruction permissive.core.pc word .unknownOpcode),
        { permissive.inMode true with journal, core := permissive.core.advance }) :=
    step_of_unknown hf hword.2
  rw [step_of_unknown hf hword.2, hstrict, hmode]
  exact ⟨rfl, rfl, hmode, journal, rfl⟩

theorem Twins.step (h : strict.Twins permissive) : strict.step.2.Twins permissive.step.2 := by
  by_cases hword : ∃ word, permissive.core.Undecodable word
  · obtain ⟨word, hword⟩ := hword
    exact (h.step_of_undecodable hword).2.2
  · exact (h.step_of_decodable fun word hw => hword ⟨word, hw⟩).2

theorem Twins.act (h : strict.Twins permissive) (action : Action δ κ) :
    (strict.act action).Twins (permissive.act action) := by
  cases action with
  | step => exact h.step
  | load source offset =>
    obtain ⟨hmode, journal, rfl⟩ := h
    obtain ⟨journal', hload, _⟩ := permissive.exists_load_recast
      { permissive.config with strict := true } id journal source offset
    obtain ⟨memory, journal'', hleft⟩ := permissive.exists_load_eq source offset
    have hstrict : { permissive.inMode true with journal }.load source offset = _ := hload
    simp only [Machine.act, hstrict, Prod.map, hleft]
    exact ⟨hmode, journal', rfl⟩
  | _ =>
    obtain ⟨hmode, journal, rfl⟩ := h
    exact ⟨hmode, journal, rfl⟩

theorem Twins.perform (h : strict.Twins permissive) (actions : List (Action δ κ)) :
    (strict.perform actions).Twins (permissive.perform actions) := by
  induction actions generalizing strict permissive with
  | nil => exact h
  | cons action actions ih => exact ih (h.act action)

/-- How the next steps of a strict machine and of its permissive twin compare. -/
structure Lockstep (strict permissive : Machine δ κ ρ) : Prop where
  twins : strict.Twins permissive
  same (h : ∀ word, ¬ permissive.core.Undecodable word) : strict.step.1 = permissive.step.1
  refused {word : Word} (h : permissive.core.Undecodable word) :
    strict.step.1 = .error (.instruction permissive.core.pc word .unknownOpcode)
  skipped {word : Word} (h : permissive.core.Undecodable word) : permissive.step.1 = .ok ()
  known {fault : Fault} (h : permissive.step.1 = .error fault) : fault.root ≠ .unknownOpcode

theorem Twins.lockstep (h : strict.Twins permissive) : strict.Lockstep permissive where
  twins := h
  same hd := (h.step_of_decodable hd).1
  refused hword := (h.step_of_undecodable hword).1
  skipped hword := (h.step_of_undecodable hword).2.1
  known := root_step_ne h.1

end Together

section Running

variable {m m' : Machine δ κ ρ} {p : Pacing} {clock : Nat → Nat}

/-- No word that the run comes to is undecodable. -/
def Legible (m : Machine δ κ ρ) (p : Pacing) (clock : Nat → Nat) : Prop :=
  ∀ steps x, m.Reaches p clock steps x → ¬ p.Exhausted steps → ∀ word, ¬ x.core.Undecodable word

theorem root_run_ne (hmode : m.config.strict = false) {fault : Fault}
    (h : m.run p clock = (some (.error fault), m')) : fault.root ≠ .unknownOpcode := by
  obtain ⟨steps, last, hreaches, hends⟩ := exists_ends_of_run h
  have hlast : last.config.strict = false :=
    hreaches.keeps (P := (·.config.strict = false))
      (fun x hx => (congrArg Config.strict x.config_step).trans hx) (fun _ hx => hx) hmode
  obtain hfails | ⟨error, rfl⟩ := hends.eq_error
  · exact root_step_ne hlast hfails
  · simp [Fault.root]

omit [Keypad κ] [RandomSource ρ] in
theorem correspondence_inMode (strict : Bool) :
    Correspondence fun x y : Machine δ κ ρ => y = x.inMode strict where
  pc h := h ▸ rfl
  note h _ := h ▸ rfl
  tick h := h ▸ rfl
  render h := h ▸ ⟨rfl, rfl⟩

theorem run_inMode (h : m.Legible p clock) (strict : Bool) :
    (m.inMode strict).run p clock = (m.run p clock).map id (·.inMode strict) := by
  obtain ⟨hresult, hleft⟩ := (correspondence_inMode strict).run p clock
    (Eq.refl (m.inMode strict)) fun steps x y hreaches hlimit hy => by
      subst hy
      rw [StepsAlike, step_inMode (h steps x hreaches hlimit)]
      exact ⟨rfl, rfl⟩
  exact Prod.ext hresult hleft

end Running

/-- Whatever is done to a strict machine and to the same machine in permissive mode, they stay
twins. Their next steps come to the same, unless the word at `pc` is no instruction: then the strict
machine reports it and the permissive one passes over it. A permissive run never reports such a
word, and a run that comes to none is the same in both modes. -/
theorem modes_in_lockstep (m : Machine δ κ ρ) :
    (∀ actions : List (Action δ κ),
      ((m.inMode true).perform actions).Lockstep ((m.inMode false).perform actions)) ∧
    ∀ p clock,
      (∀ fault m', (m.inMode false).run p clock = (some (.error fault), m') →
        fault.root ≠ .unknownOpcode) ∧
      ∀ mode, (m.inMode mode).Legible p clock →
        (m.inMode !mode).run p clock = ((m.inMode mode).run p clock).map id (·.inMode !mode) := by
  refine ⟨fun actions => (m.twins_inMode.perform actions).lockstep, fun p clock => ⟨?_, ?_⟩⟩
  · intro fault m' h
    exact root_run_ne rfl h
  · intro mode h
    exact run_inMode h !mode

/-- The word FFFF is no instruction; the word 1000 jumps to itself. -/
theorem modes_in_lockstep_skipping :
    ((ofBytes [0xFF, 0xFF]).inMode true).step.1 =
        .error (.instruction 0 ⟨0xFFFF⟩ .unknownOpcode) ∧
      ((ofBytes [0xFF, 0xFF]).inMode false).step.1 = .ok () ∧
      ((ofBytes [0x10, 0x00]).inMode false).Legible ⟨500, 60, none, true⟩ (fun _ => 0) ∧
      ((ofBytes [0x10, 0x00]).inMode true).run ⟨500, 60, none, true⟩ (fun _ => 0) =
        (((ofBytes [0x10, 0x00]).inMode false).run ⟨500, 60, none, true⟩ (fun _ => 0)).map id
          (·.inMode true) := by
  have hword : ((ofBytes [0xFF, 0xFF]).inMode false).core.Undecodable ⟨0xFFFF⟩ :=
    ⟨⟨0xFF, 0xFF, rfl, rfl, by decide⟩, by decide⟩
  have hlockstep := (modes_in_lockstep (ofBytes [0xFF, 0xFF])).1 []
  have hjump : ((ofBytes [0x10, 0x00]).inMode false).core.fetch = .ok ⟨0x1000⟩ :=
    Core.fetch_eq_ok_iff.2 ⟨0x10, 0x00, rfl, rfl, by decide⟩
  have hlegible : ((ofBytes [0x10, 0x00]).inMode false).Legible ⟨500, 60, none, true⟩
      (fun _ => 0) := by
    rintro steps x hx - word ⟨hpoints, hnone⟩
    obtain rfl := hx.eq_of_pc_eq (by decide +kernel)
    cases hjump.symm.trans (Core.fetch_eq_ok_iff.2 hpoints)
    exact absurd hnone (by decide)
  exact ⟨hlockstep.refused hword, hlockstep.skipped hword, hlegible,
    ((modes_in_lockstep (ofBytes [0x10, 0x00])).2 _ _).2 false hlegible⟩

end Machine

end ChipEight
