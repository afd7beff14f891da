import ChipEight.Proofs.Core.Untimed
import ChipEight.Proofs.Machine.Step

namespace ChipEight

namespace Request

/-- What the request draws, it draws on the display and on its view alike. -/
def Mirrored {δ ν : Type} [Display δ] [Display ν] (view : δ → ν) (d : δ) : Request → Prop
  | .clearScreen _ => Display.clear (view d) = (Display.clear d).map id view
  | .draw x y sprite _ =>
    Display.drawSprite (view d) x y sprite = (Display.drawSprite d x y sprite).map id view
  | _ => True

theorem mirrored_id {δ : Type} [Display δ] (d : δ) (r : Request) : r.Mirrored id d := by
  cases r with
  | clearScreen core => rfl
  | draw x y sprite resume => rfl
  | _ => trivial

theorem mirrored_ofExcept {δ ν : Type} [Display δ] [Display ν] (view : δ → ν) (d : δ)
    (result : Except Fault Core) : (ofExcept result).Mirrored view d := by
  cases result with
  | error fault => trivial
  | ok core => trivial

@[simp] theorem map_id (r : Request) : r.map id = r := by
  cases r with
  | awaitKey resume => exact congrArg awaitKey (funext fun key => by cases resume key <;> rfl)
  | _ => rfl

end Request

/-- Seen through `f`, the core comes to the same instruction and ends it in what is seen. -/
structure Core.SeenThrough (f : Core → Core) (c : Core) : Prop where
  fetch : (f c).fetch = c.fetch
  pc : (f c).pc = c.pc
  advance : (f c).advance = f c.advance
  execute {word : Word} {instruction : Instruction} (hf : c.fetch = .ok word)
    (hd : Instruction.decode word = some instruction) :
    (f c.advance).execute instruction = (c.advance.execute instruction).map f

theorem Core.seenThrough_id (c : Core) : c.SeenThrough id :=
  ⟨rfl, rfl, rfl, fun _ _ => (Request.map_id _).symm⟩

namespace Machine

variable {δ ν κ ρ : Type}

/-- The same devices but for the display, of which there is a view, around another core. -/
def recast (m : Machine δ κ ρ) (config : Config) (f : Core → Core) (view : δ → ν)
    (journal : Journal) : Machine ν κ ρ :=
  ⟨config, f m.core, view m.display, m.keypad, m.random, journal, m.frames⟩

theorem exists_load_recast (m : Machine δ κ ρ) (config : Config) (view : δ → ν) (journal : Journal)
    (source : ByteSource) (offset : UInt16) :
    ∃ journal', (m.recast config id view journal).load source offset =
        (m.load source offset).map id (·.recast config id view journal') ∧
      (journal = m.journal → journal' = (m.load source offset).2.journal) := by
  have hcore : (m.recast config id view journal).core = m.core := rfl
  unfold load
  rw [hcore]
  cases m.core.memory.load source offset.toNat with
  | error fault => exact ⟨journal, rfl, id⟩
  | ok loaded => exact ⟨journal.note (.loaded loaded.1 offset.toNat), rfl, fun h => h ▸ rfl⟩

variable [Display δ] [Display ν] [Keypad κ] [RandomSource ρ]

theorem serve_recast {m : Machine δ κ ρ} (config : Config) (f : Core → Core) {view : δ → ν}
    (journal : Journal) {r : Request} (h : r.Mirrored view m.display) :
    (m.recast config f view journal).serve (r.map f) =
      (m.serve r).map id (·.recast config f view journal) := by
  cases r with
  | done core => rfl
  | fail fault => rfl
  | clearScreen core =>
    have hview : Display.clear (view m.display) = (Display.clear m.display).map id view := h
    rcases hd : Display.clear m.display with ⟨_ | _, d⟩ <;>
      simp [serve, Request.map, recast, hview, hd]
  | draw x y sprite resume =>
    have hview : Display.drawSprite (view m.display) x y sprite =
      (Display.drawSprite m.display x y sprite).map id view := h
    simp [serve, Request.map, recast, hview]
  | testKey key resume => rfl
  | awaitKey resume =>
    rcases hk : Keypad.awaitPress m.keypad with ⟨_ | key, k⟩
    · simp [serve, Request.map, recast, hk]
    · cases hc : resume key <;> simp [serve, Request.map, recast, hk, hc, Except.map]
  | randomByte resume => rfl

theorem exists_step_recast {m : Machine δ κ ρ} (config : Config) {f : Core → Core} {view : δ → ν}
    (journal : Journal) (hcore : m.core.SeenThrough f)
    (hview : ∀ instruction, m.next? = some instruction →
      (m.core.advance.execute instruction).Mirrored view m.display)
    (hstrict : ∀ word, m.core.fetch = .ok word → Instruction.decode word = none →
      config.strict = m.config.strict) :
    ∃ journal', (m.recast config f view journal).step =
        m.step.map id (·.recast config f view journal') ∧
      (journal = m.journal → journal' = m.step.2.journal) := by
  have hfetch : (m.recast config f view journal).core.fetch = m.core.fetch := hcore.fetch
  have hpc : (m.recast config f view journal).core.pc = m.core.pc := hcore.pc
  cases hf : m.core.fetch with
  | error fault =>
    rw [step_of_fetch_error hf, step_of_fetch_error (hfetch.trans hf)]
    exact ⟨journal, rfl, id⟩
  | ok word =>
    cases hd : Instruction.decode word with
    | none =>
      have hpast : { m.recast config f view journal with core := (f m.core).advance } =
          { m with core := m.core.advance }.recast config f view journal := by
        rw [hcore.advance]
        rfl
      have hconfig : (m.recast config f view journal).config.strict = m.config.strict :=
        hstrict word hf hd
      rw [step_of_unknown hf hd, step_of_unknown (hfetch.trans hf) hd, hconfig, hpc]
      cases m.config.strict with
      | false =>
        refine ⟨journal.note (.skipped m.core.pc word), ?_, fun h => h ▸ rfl⟩
        exact Prod.ext rfl (congrArg (note · _) hpast)
      | true => exact ⟨journal, Prod.ext rfl hpast, id⟩
    | some instruction =>
      have hentered : (m.recast config f view journal).enter word instruction =
          (m.enter word instruction).recast config f view
            (journal.note (.executing m.core.pc word instruction)) := by
        simp only [enter, note, recast, hcore.advance, hcore.pc]
      have hserve := serve_recast (m := m.enter word instruction) config f
        (journal.note (.executing m.core.pc word instruction))
        (hview instruction (next?_eq_some_iff.2 ⟨word, hf, hd⟩))
      rw [step_of_decode hf hd, step_of_decode (hfetch.trans hf) hd]
      refine ⟨journal.note (.executing m.core.pc word instruction), ?_, ?_⟩
      · have hrequest : (m.recast config f view journal).core.advance.execute instruction =
            (m.core.advance.execute instruction).map f := by
          rw [← hcore.execute hf hd, ← hcore.advance]
          rfl
        rw [served, hentered, hrequest, hserve, hpc]
        rfl
      · rintro rfl
        obtain ⟨core, display, keypad, random, hserved⟩ :=
          (m.enter word instruction).exists_serve_eq (m.core.advance.execute instruction)
        rw [served, hserved]
        rfl

theorem step_recast {m : Machine δ κ ρ} (config : Config) {f : Core → Core} {view : δ → ν}
    (hcore : m.core.SeenThrough f)
    (hview : ∀ instruction, m.next? = some instruction →
      (m.core.advance.execute instruction).Mirrored view m.display)
    (hstrict : ∀ word, m.core.fetch = .ok word → Instruction.decode word = none →
      config.strict = m.config.strict) :
    (m.recast config f view m.journal).step =
      m.step.map id fun m' => m'.recast config f view m'.journal := by
  obtain ⟨journal, hstep, hsame⟩ := exists_step_recast config m.journal hcore hview hstrict
  obtain rfl := hsame rfl
  exact hstep

end Machine

end ChipEight
