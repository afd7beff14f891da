import ChipEight.Proofs.Display.Printer
import ChipEight.Proofs.Machine.Failure
import ChipEight.Proofs.Run.Drawn
import ChipEight.Proofs.Run.Operation

namespace ChipEight

open HasWriter

theorem Word.toNat_bits (w : Word) : w.bits.toNat = 4096 * w.family.val + w.nnn.toNat := by
  have hlt := w.bits.toNat_lt
  have hlow : w.nnn.toNat = w.bits.toNat % 4096 := by
    simpa [nnn] using Nat.and_two_pow_sub_one_eq_mod w.bits.toNat 12
  have hhigh : w.family.val = w.bits.toNat / 4096 % 16 := by
    simp only [family, nibble, Nat.shiftRight_eq_div_pow, Nat.reducePow]
  omega

theorem Instruction.eq_of_decode_clearScreen {w : Word} (h : decode w = some .clearScreen) :
    w = ⟨0x00E0⟩ := by
  have hfields : w.family.val = 0 ∧ w.nnn = 0x0E0 := by
    have harithmetic (n : Nat) : decodeArithmetic w.x w.y n ≠ some .clearScreen := by
      unfold decodeArithmetic
      split <;> nofun
    have htransfer (kk : Nat) : decodeTransfer w.x kk ≠ some .clearScreen := by
      unfold decodeTransfer
      split <;> nofun
    unfold decode at h
    split at h
    case h_1 hfamily =>
      split at h
      next hnnn => exact ⟨hfamily, hnnn⟩
      next => split at h <;> cases h
    case h_9 => exact absurd h (harithmetic _)
    case h_16 => exact absurd h (htransfer _)
    all_goals
      repeat' split at h
      all_goals cases h
  have hbits := w.toNat_bits
  rw [hfields.1, hfields.2] at hbits
  exact congrArg Word.mk (UInt16.toNat_inj.1 hbits)

theorem Core.eq_clearScreen_of_execute {c after : Core} {instruction : Instruction}
    (h : c.execute instruction = .clearScreen after) : instruction = .clearScreen := by
  refine Decidable.byContradiction fun hclear => ?_
  have hasks := c.execute_asksNeither hclear fun x hkey => by
    subst hkey
    cases h
  rw [h] at hasks
  exact hasks

instance {δ κ ρ : Type} [HasWriter δ] : HasWriter (Machine δ κ ρ) where
  writer m := writer m.display
  onto m w := { m with display := onto m.display w }
  writer_onto m w := writer_onto m.display w
  onto_writer m := congrArg (fun display => { m with display }) (onto_writer m.display)
  onto_onto m w w' := congrArg (fun display => { m with display }) (onto_onto m.display w w')

namespace Machine

variable {δ κ ρ : Type} [Display δ] [Printer δ]

theorem capped_eq (n : Nat) (m : Machine δ κ ρ) :
    capped n m = { m with display := capped n m.display } := rfl

theorem grows_of_draw {m m' : Machine δ κ ρ} (strokes : List Stroke)
    (h : m'.display = Display.draw m.display strokes) : Grows m m' := by
  have hgrows : Grows m.display m'.display := h ▸ Printer.grows_draw m.display strokes
  exact hgrows

theorem grows_render (m : Machine δ κ ρ) : Grows m m.render.2 :=
  grows_of_draw [.render] rfl

theorem cut_render {m : Machine δ κ ρ} {n : Nat} (hm : Unlimited m)
    (hle : (written m).length ≤ n) :
    Cut n (· = .error (.io Writer.gone)) m.render (capped n m).render :=
  (Printer.prints_render.cut (s := m.display) hm hle).map (f := (·.mapError Fault.io))
    (g := fun display => { m with display, frames := m.frames + 1 })
    (fun _ => rfl) (fun _ => rfl) fun _ _ h => congrArg (·.mapError Fault.io) h

theorem cut_frame {m : Machine δ κ ρ} {n : Nat} (hm : Unlimited m)
    (hle : (written m).length ≤ n) :
    Cut n (· = .error (.io Writer.gone)) m.frame (capped n m).frame :=
  cut_render (m := m.tick) hm hle

theorem cut_finish {m : Machine δ κ ρ} {n : Nat} (hm : Unlimited m)
    (hle : (written m).length ≤ n) (outcome : Outcome) :
    Cut n (· = .error (.io Writer.gone)) (m.finish outcome) ((capped n m).finish outcome) :=
  (cut_render hm hle).map (f := Except.map fun _ => outcome) (g := id)
    (fun _ => rfl) (fun _ => rfl) fun _ _ h => congrArg (Except.map _) h

def cleared (m : Machine δ κ ρ) (core : Core) :
    Except IoError Unit × δ → Except Fault Unit × Machine δ κ ρ
  | (.ok (), display) => (.ok (), { m with core, display })
  | (.error error, display) => (.error (.io error), { m with display })

theorem writer_cleared (m : Machine δ κ ρ) (core : Core) (result : Except IoError Unit × δ) :
    writer (m.cleared core result).2 = writer result.2 := by
  rcases result with ⟨_ | _, d⟩ <;> rfl

variable [Keypad κ] [RandomSource ρ]

theorem cut_serve {m : Machine δ κ ρ} {n : Nat} (hm : Unlimited m)
    (hle : (written m).length ≤ n) (r : Request) :
    Cut n (fun result => (∃ core, r = .clearScreen core) ∧ result = .error (.io Writer.gone))
      (m.serve r) ((capped n m).serve r) := by
  cases r with
  | clearScreen core =>
    refine (Printer.prints_clear.cut (s := m.display) hm hle).bind (k := m.cleared core)
      (hm.grows (Printer.prints_clear.grows m.display)) (fun r => .of_eq (m.writer_cleared core r))
      (fun hfits => .of_same ?_ ?_) ?_
    · rwa [written, writer_cleared]
    · rcases Display.clear m.display with ⟨_ | _, d⟩ <;> rfl
    · rintro _ _ d rfl
      exact ⟨⟨core, rfl⟩, rfl⟩
  | draw x y sprite resume =>
    obtain ⟨hdraw, hwriter⟩ := Printer.drawDots_capped m.display n (Sprite.dots x y sprite)
    have hkept : written (m.serve (.draw x y sprite resume)).2 = written m :=
      congrArg (·.written.toList) hwriter
    have hcapped : Display.drawSprite (capped n m).display x y sprite = _ := hdraw
    refine .of_same (hkept ▸ hle) ?_
    simp only [serve, hcapped]
    rfl
  | awaitKey resume =>
    have hkeypad : (capped n m).keypad = m.keypad := rfl
    rcases hk : Keypad.awaitPress m.keypad with ⟨_ | key, k⟩
    · simp only [serve, hk, hkeypad]
      exact .of_same hle rfl
    · cases hc : resume key <;>
      · simp only [serve, hk, hc, hkeypad]
        exact .of_same hle rfl
  | _ => exact .of_same hle rfl

/-- How an action fails what it writes is refused. -/
inductive Refused (m : Machine δ κ ρ) : Action δ κ → Fault → Prop
  | render : Refused m .render (.io Writer.gone)
  | clearScreen (hf : m.core.fetch = .ok ⟨0x00E0⟩) :
      Refused m .step (.instruction m.core.pc ⟨0x00E0⟩ (.io Writer.gone))

theorem cut_step {m : Machine δ κ ρ} {n : Nat} (hm : Unlimited m) (hle : (written m).length ≤ n) :
    Cut n (fun result => ∃ fault, m.Refused .step fault ∧ result = .error fault)
      m.step (capped n m).step := by
  have hcore : (capped n m).core = m.core := rfl
  cases hf : m.core.fetch with
  | error fault =>
    rw [step_of_fetch_error hf, step_of_fetch_error (hcore ▸ hf)]
    exact .of_same hle rfl
  | ok word =>
    cases hd : Instruction.decode word with
    | none =>
      rw [step_of_unknown hf hd, step_of_unknown (hcore ▸ hf) hd]
      have hconfig : (capped n m).config = m.config := rfl
      rw [hconfig]
      split
      · exact .of_same hle rfl
      · exact .of_same hle rfl
    | some instruction =>
      rw [step_of_decode hf hd, step_of_decode (m := capped n m) hf hd]
      have hserved := cut_serve (m := m.enter word instruction) hm hle
        (m.core.advance.execute instruction)
      refine hserved.map (f := (·.mapError (Fault.instruction m.core.pc word))) (g := id)
        (fun _ => rfl) (fun _ => rfl) ?_
      rintro _ _ ⟨⟨core, hclear⟩, rfl⟩
      -- The instruction that asks for this is the one that the word stands for.
      obtain rfl := Core.eq_clearScreen_of_execute hclear
      obtain rfl := Instruction.eq_of_decode_clearScreen hd
      exact ⟨_, .clearScreen hf, rfl⟩

section Run

variable {m : Machine δ κ ρ} {n : Nat}

def afterStep (pc : UInt16) (steps : Nat) :
    Except Fault Unit × Machine δ κ ρ → Option (Except Fault Outcome) × Machine δ κ ρ
  | (.error fault, m) => (some (.error fault), m)
  | (.ok (), m) =>
    if m.core.pc = pc then
      ((m.note (.halted pc (steps + 1))).finish (.halted (steps + 1))).map some id
    else (none, m)

/-- What follows a turn of a run that can have `fuel` more. -/
def afterTurn (p : Pacing) (clock : Nat → Nat) (fuel steps : Nat) :
    Option (Except Fault Outcome) × Machine δ κ ρ → Option (Except Fault Outcome) × Machine δ κ ρ
  | (some result, m) => (some result, m)
  | (none, m) =>
    if p.FrameDue clock (steps + 1) then afterFrame m.frame
    else runWithin p clock fuel (steps + 1) m
where
  afterFrame : Except Fault Unit × Machine δ κ ρ → Option (Except Fault Outcome) × Machine δ κ ρ
    | (.error fault, m) => (some (.error fault), m)
    | (.ok (), m) => runWithin p clock fuel (steps + 1) m

omit [Printer δ] in
theorem turn_eq_afterStep {p : Pacing} {steps : Nat} (h : ¬ p.Exhausted steps) :
    m.turn p steps = afterStep m.core.pc steps m.step := by
  rw [turn, if_neg h]
  rcases m.step with ⟨_ | _, x⟩ <;> rfl

omit [Printer δ] in
theorem runWithin_succ (p : Pacing) (clock : Nat → Nat) (fuel steps : Nat) (m : Machine δ κ ρ) :
    runWithin p clock (fuel + 1) steps m = afterTurn p clock fuel steps (m.turn p steps) := by
  rw [runWithin]
  rcases m.turn p steps with ⟨_ | _, x⟩
  · simp only [afterTurn]
    rcases x.frame with ⟨_ | _, y⟩ <;> rfl
  · rfl

omit [Keypad κ] [RandomSource ρ] in
theorem grows_afterStep (pc : UInt16) (steps : Nat) (r : Except Fault Unit × Machine δ κ ρ) :
    Grows r.2 (afterStep pc steps r).2 := by
  rcases r with ⟨_ | _, x⟩
  · exact .of_eq rfl
  · simp only [afterStep]
    split
    · exact grows_render (x.note _)
    · exact .of_eq rfl

theorem grows_step (m : Machine δ κ ρ) : Grows m m.step.2 := grows_of_draw _ m.display_step

theorem grows_turn (m : Machine δ κ ρ) (p : Pacing) (steps : Nat) : Grows m (m.turn p steps).2 :=
  grows_of_draw _ (m.display_turn p steps)

theorem grows_runWithin (p : Pacing) (clock : Nat → Nat) (fuel steps : Nat)
    (m : Machine δ κ ρ) : Grows m (runWithin p clock fuel steps m).2 :=
  grows_of_draw _ (display_runWithin p clock fuel steps m)

theorem grows_afterFrame (p : Pacing) (clock : Nat → Nat) (fuel steps : Nat)
    (r : Except Fault Unit × Machine δ κ ρ) :
    Grows r.2 (afterTurn.afterFrame p clock fuel steps r).2 := by
  rcases r with ⟨_ | _, x⟩
  · exact .of_eq rfl
  · exact grows_runWithin p clock fuel (steps + 1) x

theorem grows_afterTurn (p : Pacing) (clock : Nat → Nat) (fuel steps : Nat)
    (r : Option (Except Fault Outcome) × Machine δ κ ρ) :
    Grows r.2 (afterTurn p clock fuel steps r).2 := by
  rcases r with ⟨_ | _, x⟩
  · simp only [afterTurn]
    split
    · exact (grows_render x.tick).trans (grows_afterFrame p clock fuel steps x.frame)
    · exact grows_runWithin p clock fuel (steps + 1) x
  · exact .of_eq rfl

omit [Keypad κ] [RandomSource ρ] in
theorem cut_afterStep {x : Machine δ κ ρ} (hx : Unlimited x) (hle : (written x).length ≤ n)
    (pc : UInt16) (steps : Nat) (stepped : Except Fault Unit) :
    Cut n (fun result => stepped = .ok () ∧ x.core.pc = pc ∧
        n < (written x.render.2).length ∧ result = some (.error (.io Writer.gone)))
      (afterStep pc steps (stepped, x)) (afterStep pc steps (stepped, capped n x)) := by
  have hcore : (capped n x).core = x.core := rfl
  cases stepped with
  | error fault => exact .of_same hle rfl
  | ok _ =>
    simp only [afterStep, hcore]
    split
    next hpc =>
      have hfinish := cut_finish (m := x.note (.halted pc (steps + 1))) hx hle (.halted (steps + 1))
      refine hfinish.map (fun _ => rfl) (fun _ => rfl) ?_
      rintro hlt _ rfl
      exact ⟨trivial, hpc, hlt, rfl⟩
    next => exact .of_same hle rfl

/-- How a run fails that is to take these actions: one of them is the first at which more than `n`
bytes are written, and it fails. -/
def FailsAmong (m : Machine δ κ ρ) (n : Nat) (actions : List (Action δ κ))
    (result : Option (Except Fault Outcome)) : Prop :=
  ∃ before action fault, before ++ [action] <+: actions ∧
    (written (m.perform before)).length ≤ n ∧
    n < (written (m.perform (before ++ [action]))).length ∧
    (m.perform before).Refused action fault ∧ result = some (.error fault)

theorem FailsAmong.after (first : List (Action δ κ)) {rest : List (Action δ κ)}
    {result : Option (Except Fault Outcome)}
    (h : (m.perform first).FailsAmong n rest result) : m.FailsAmong n (first ++ rest) result := by
  obtain ⟨before, action, fault, hactions, hle, hlt, hrefused⟩ := h
  rw [← perform_append] at hle hlt hrefused
  rw [← List.append_assoc] at hlt
  refine ⟨first ++ before, action, fault, ?_, hle, hlt, hrefused⟩
  rw [List.append_assoc]
  exact (List.prefix_append_right_inj first).2 hactions

theorem cut_turn (hm : Unlimited m) (hle : (written m).length ≤ n) (p : Pacing) (steps : Nat) :
    Cut n (m.FailsAmong n (m.turnActions p steps)) (m.turn p steps)
      ((capped n m).turn p steps) := by
  by_cases hlimit : p.Exhausted steps
  · have hturn (x : Machine δ κ ρ) :
        x.turn p steps = (x.finish (.stepLimit steps)).map some id := by
      rw [turn, if_pos hlimit]
      rfl
    rw [hturn, hturn, turnActions, if_pos hlimit]
    refine (cut_finish hm hle _).map (fun _ => rfl) (fun _ => rfl) ?_
    rintro hlt _ rfl
    exact ⟨[], .render, _, List.prefix_rfl, hle, hlt, .render, rfl⟩
  · rw [turn_eq_afterStep hlimit, turn_eq_afterStep hlimit]
    refine (cut_step hm hle).bind (hm.grows m.grows_step) (grows_afterStep _ _)
      (fun hfits => ?_) ?_
    · refine (cut_afterStep (hm.grows m.grows_step) hfits _ _ _).mono ?_
      rintro _ ⟨hok, hpc, hlt, rfl⟩
      have hactions : m.turnActions p steps = [.step, .render] := by
        rw [turnActions, if_neg hlimit, if_pos ⟨hok, hpc⟩]
      exact ⟨[.step], .render, _, hactions ▸ List.prefix_rfl, hfits, hlt, .render, rfl⟩
    · rintro hlt _ x ⟨fault, hrefused, rfl⟩
      have hfirst : [.step] <+: m.turnActions p steps := by
        rw [turnActions, if_neg hlimit]
        split
        · exact ⟨[.render], rfl⟩
        · exact List.prefix_rfl
      exact ⟨[], .step, fault, hfirst, hle, hlt, hrefused, rfl⟩

theorem cut_afterFrame {p : Pacing} {clock : Nat → Nat} {fuel steps : Nat}
    (hrest : ∀ y : Machine δ κ ρ, Unlimited y → (written y).length ≤ n →
      Cut n (y.FailsAmong n (actionsWithin p clock fuel (steps + 1) y))
        (runWithin p clock fuel (steps + 1) y) (runWithin p clock fuel (steps + 1) (capped n y)))
    {x : Machine δ κ ρ} (hx : Unlimited x) (hle : (written x).length ≤ n) :
    Cut n
      (x.FailsAmong n ([.tick, .render] ++ match x.frame with
        | (.error _, _) => []
        | (.ok (), y) => actionsWithin p clock fuel (steps + 1) y))
      (afterTurn.afterFrame p clock fuel steps x.frame)
      (afterTurn.afterFrame p clock fuel steps (capped n x).frame) := by
  have hgrows : Grows x x.frame.2 := grows_render x.tick
  refine (cut_frame hx hle).bind (hx.grows hgrows)
    (grows_afterFrame p clock fuel steps) (fun hfits => ?_) ?_
  · have hy := hx.grows hgrows
    have hperform : x.perform [.tick, .render] = x.frame.2 := rfl
    rcases hframe : x.frame with ⟨fault | _, y⟩
    · rw [hframe] at hfits
      exact .of_same hfits rfl
    · rw [hframe] at hperform hfits hy
      exact (hrest y hy hfits).mono fun _ hfails =>
        FailsAmong.after [.tick, .render] (hperform ▸ hfails)
  · rintro hlt _ y rfl
    exact ⟨[.tick], .render, _, List.prefix_append _ _, hle, hlt, .render, rfl⟩

theorem cut_runWithin (p : Pacing) (clock : Nat → Nat) (fuel : Nat) {steps : Nat}
    {m : Machine δ κ ρ} (hm : Unlimited m) (hle : (written m).length ≤ n) :
    Cut n (m.FailsAmong n (actionsWithin p clock fuel steps m))
      (runWithin p clock fuel steps m) (runWithin p clock fuel steps (capped n m)) := by
  induction fuel generalizing steps m with
  | zero => exact .of_same hle rfl
  | succ fuel ih =>
    rw [runWithin_succ, runWithin_succ]
    refine (cut_turn hm hle p steps).bind (hm.grows (m.grows_turn p steps))
      (grows_afterTurn p clock fuel steps) (fun hfits => ?_) ?_
    · have hx := hm.grows (m.grows_turn p steps)
      rcases hturn : m.turn p steps with ⟨_ | result, x⟩
      · -- A turn after which the run goes on is a single step; the rest starts where it leads.
        obtain ⟨hactions, rfl⟩ := turnActions_of_turn hturn
        rw [hturn] at hfits hx
        rw [actionsWithin, hactions, hturn]
        refine Cut.mono (?_ : Cut n (m.step.2.FailsAmong n _) _ _) fun _ =>
          FailsAmong.after [.step]
        simp only [afterTurn, Prod.map_apply, id]
        split
        · exact cut_afterFrame (fun y => ih) hx hfits
        · exact ih hx hfits
      · rw [hturn] at hfits
        exact .of_same hfits rfl
    · rintro hlt _ x hfails
      obtain ⟨before, action, fault, hpre, hbefore, hafter, hrefused, rfl⟩ := hfails
      exact ⟨before, action, fault, hpre.trans (List.prefix_append _ _), hbefore, hafter,
        hrefused, rfl⟩

end Run

/-- How an operation fails in the course of which more than `n` bytes are written. -/
inductive RefusedIn (m : Machine δ κ ρ) (n : Nat) : Operation → Answer → Prop
  | step {fault : Fault} (h : m.Refused .step fault) : RefusedIn m n .step (.stepped (.error fault))
  | run (p : Pacing) (clock : Nat → Nat) {result : Option (Except Fault Outcome)}
      (h : m.FailsAmong n (m.runActions p clock) result) :
      RefusedIn m n (.run p clock) (.ran result)
  | render : RefusedIn m n .render (.stepped (.error (.io Writer.gone)))
  | clearDisplay : RefusedIn m n .clearDisplay (.shown (.error Writer.gone))
  | renderDisplay : RefusedIn m n .renderDisplay (.shown (.error Writer.gone))

def operateAll (m : Machine δ κ ρ) (operations : List Operation) : Machine δ κ ρ :=
  operations.foldl (fun m operation => (m.operate operation).2) m

section Operations

variable {m : Machine δ κ ρ} {n : Nat}

theorem grows_operate (m : Machine δ κ ρ) (operation : Operation) :
    Grows m (m.operate operation).2 := by
  cases operation with
  | step => exact m.grows_step
  | run p clock => exact grows_runWithin p clock longestRun 0 m
  | tick => exact .of_eq rfl
  | render => exact m.grows_render
  | load source offset =>
    obtain ⟨memory, journal, he⟩ := m.exists_load_eq source offset
    have hdisplay : (m.load source offset).2.display = m.display := by rw [he]
    exact grows_of_draw [] hdisplay
  | clearDisplay => exact grows_of_draw [.clear] rfl
  | setPixel x y on => exact grows_of_draw [.setPixel x y on] rfl
  | drawSprite x y rows => exact grows_of_draw _ (Display.snd_drawDots _ _)
  | pixel x y => exact .of_eq rfl
  | renderDisplay => exact grows_of_draw [.render] rfl

theorem grows_operateAll (m : Machine δ κ ρ) (operations : List Operation) :
    Grows m (m.operateAll operations) := by
  induction operations generalizing m with
  | nil => exact .of_eq rfl
  | cons operation operations ih => exact (m.grows_operate operation).trans (ih _)

omit [Keypad κ] [RandomSource ρ] in
theorem cut_onDisplay {α : Type} {result result' : α × δ} {Fails : α → Prop}
    {Fails' : Answer → Prop} (h : Cut n Fails result result') (answer : α → Answer)
    (hfails : ∀ a, Fails a → Fails' (answer a)) :
    Cut n Fails' (m.onDisplay answer result) ((capped n m).onDisplay answer result') :=
  h.map (f := answer) (g := fun display => ({ m with display } : Machine δ κ ρ)) (fun _ => rfl)
    (fun _ => rfl) fun _ => hfails

theorem cut_operate (hm : Unlimited m) (hle : (written m).length ≤ n) (operation : Operation) :
    Cut n (m.RefusedIn n operation) (m.operate operation) ((capped n m).operate operation) := by
  cases operation with
  | step =>
    refine (cut_step hm hle).map (fun _ => rfl) (fun _ => rfl) ?_
    rintro _ _ ⟨fault, hrefused, rfl⟩
    exact .step hrefused
  | run p clock =>
    exact (cut_runWithin p clock longestRun hm hle).map (fun _ => rfl) (fun _ => rfl)
      fun _ _ h => .run p clock h
  | tick => exact .of_same hle rfl
  | render =>
    refine (cut_render hm hle).map (fun _ => rfl) (fun _ => rfl) ?_
    rintro _ _ rfl
    exact .render
  | load source offset =>
    simp only [operate, load, capped_eq]
    cases m.core.memory.load source offset.toNat with
    | error fault => exact .of_same hle rfl
    | ok loaded => exact .of_same hle rfl
  | clearDisplay =>
    refine cut_onDisplay (Printer.prints_clear.cut (s := m.display) hm hle) .shown ?_
    rintro _ rfl
    exact .clearDisplay
  | setPixel x y on =>
    exact cut_onDisplay (Printer.cut_setPixel (d := m.display) hle x y on) .lit fun _ => False.elim
  | drawSprite x y rows =>
    exact cut_onDisplay (Printer.cut_drawDots (d := m.display) hle _) .lit fun _ => False.elim
  | pixel x y =>
    exact .of_same hle (Prod.ext (congrArg Answer.lit
      (congrFun (congrFun (Printer.pixel_onto m.display _) x) y)) rfl)
  | renderDisplay =>
    refine cut_onDisplay (Printer.prints_render.cut (s := m.display) hm hle) .shown ?_
    rintro _ rfl
    exact .renderDisplay

theorem cut_operateAll (hm : Unlimited m) (hle : (written m).length ≤ n)
    (operations : List Operation) :
    Cut n (fun _ : Unit => True) ((), m.operateAll operations)
      ((), (capped n m).operateAll operations) := by
  induction operations generalizing m with
  | nil => exact .of_same hle rfl
  | cons operation operations ih =>
    exact (cut_operate hm hle operation).bind (k := fun r => ((), r.2.operateAll operations))
      (hm.grows (m.grows_operate operation)) (fun r => r.2.grows_operateAll operations)
      (fun hfits => ih (hm.grows (m.grows_operate operation)) hfits) fun _ _ _ _ => trivial

omit [Keypad κ] [RandomSource ρ] in
theorem sight_capped (n : Nat) (answer : Answer) (m : Machine δ κ ρ) :
    (capped n m).sight answer = m.sight answer :=
  congrArg (Sight.mk answer m.core) (Printer.pixel_onto m.display _)

theorem watch_capped (hm : Unlimited m) {operations : List Operation}
    (h : (written (m.operateAll operations)).length ≤ n) :
    (capped n m).watch operations = m.watch operations := by
  induction operations generalizing m with
  | nil => rfl
  | cons operation operations ih =>
    have hx := hm.grows (m.grows_operate operation)
    have hfits : (written (m.operate operation).2).length ≤ n :=
      Nat.le_trans (hx.length_le (grows_operateAll _ operations)) h
    have hle : (written m).length ≤ n :=
      Nat.le_trans (hm.length_le (m.grows_operate operation)) hfits
    have hsame := (cut_operate hm hle operation).same hfits
    calc
      (capped n m).watch (operation :: operations) =
          (capped n (m.operate operation).2).sight (m.operate operation).1 ::
            (capped n (m.operate operation).2).watch operations := by
        rw [watch, hsame]
        rfl
      _ = m.watch (operation :: operations) := by
        rw [sight_capped, ih hx h]
        rfl

end Operations

/-- What `m'` does is what `m` does, but on a display whose writer accepts `n` bytes in all. -/
structure CutShort (n : Nat) (m m' : Machine δ κ ρ) : Prop where
  same (operations : List Operation) (h : (written (m.operateAll operations)).length ≤ n) :
    m'.watch operations = m.watch operations
  fails (before : List Operation) (operation : Operation)
    (hle : (written (m.operateAll before)).length ≤ n)
    (hlt : n < (written (m.operateAll (before ++ [operation]))).length) :
    (m.operateAll before).RefusedIn n operation ((m'.operateAll before).operate operation).1
  accepted (operations : List Operation) :
    written (m'.operateAll operations) = (written (m.operateAll operations)).take n
  closed (operations : List Operation) :
    written (Display.close (m'.operateAll operations).display) =
      (written (Display.close (m.operateAll operations).display)).take n

theorem cutShort_capped {m : Machine δ κ ρ} {n : Nat} (hm : Unlimited m)
    (hle : (written m).length ≤ n) : CutShort n m (capped n m) where
  same operations h := watch_capped hm h
  fails before operation hbefore hlt := by
    have hx := hm.grows (m.grows_operateAll before)
    have hsame := (cut_operateAll hm hle before).same hbefore
    have hleft : (capped n m).operateAll before = capped n (m.operateAll before) :=
      congrArg Prod.snd hsame
    have hexceeds : m.operateAll (before ++ [operation]) =
        ((m.operateAll before).operate operation).2 := List.foldl_append
    rw [hleft]
    exact (cut_operate hx hbefore operation).fails (hexceeds ▸ hlt)
  accepted operations := written_of_writer (cut_operateAll hm hle operations).accepted
  closed operations := by
    have hx := hm.grows (m.grows_operateAll operations)
    have hclosed : Cut n (fun _ : Unit => True)
        ((), Display.close (m.operateAll operations).display)
        ((), Display.close ((capped n m).operateAll operations).display) :=
      (cut_operateAll hm hle operations).bind
        (k := fun r : Unit × Machine δ κ ρ => ((), Display.close r.2.display)) hx
        (fun r => Printer.grows_close r.2.display)
        (fun _ => Printer.cut_close (d := (m.operateAll operations).display) hx n)
        fun _ _ _ _ => trivial
    exact written_of_writer hclosed.accepted

/-- Machines are booted alike with the one display and the other, and `d'` cuts them short. -/
def BootsCutShort (config : Config) (keypad : κ) (random : ρ) (journal : Journal) (n : Nat)
    (d d' : δ) : Prop :=
  (∀ fault, boot config d keypad random journal = .error fault →
    boot config d' keypad random journal = .error fault) ∧
  ∀ m, boot config d keypad random journal = .ok m →
    ∃ m', boot config d' keypad random journal = .ok m' ∧ CutShort n m m'

theorem bootsCutShort_capped (config : Config) (keypad : κ) (random : ρ) (journal : Journal)
    {n : Nat} {d : δ} (hd : Unlimited d) (hle : (written d).length ≤ n) :
    BootsCutShort config keypad random journal n d (capped n d) := by
  refine ⟨fun fault hfault => ?_, fun m hm => ?_⟩
  · unfold boot at hfault ⊢
    cases hcore : Core.boot config.memorySize config.programStart with
    | error reason =>
      rw [hcore] at hfault
      exact hfault
    | ok core =>
      rw [hcore] at hfault
      cases hfault
  · obtain ⟨core, hcore, rfl⟩ := boot_eq_ok_iff.1 hm
    exact ⟨_, boot_eq_ok_iff.2 ⟨core, hcore, rfl⟩, cutShort_capped hd hle⟩

end Machine

namespace Terminal

/-- A terminal that has been set up on a writer without a limit. -/
def opened : Terminal := ⟨.blank, ⟨(Utf8.encode (hideCursor ++ clearScreen)).toArray, none⟩, true⟩

theorem start_unlimited : start .unlimited = .ok opened := by
  rw [start, Writer.write_of_room_eq_none rfl]
  rfl

theorem start_capped (n : Nat) :
    start ⟨#[], some n⟩ =
      if (written opened).length ≤ n then .ok (capped n opened)
      else .error (Writer.gone, (writer opened).capped n) := by
  have hempty : Writer.unlimited.capped n = ⟨#[], some n⟩ := by
    simp [Writer.capped, Writer.unlimited]
  have hcut := cut_write (w := .unlimited) rfl (Nat.zero_le n) (hideCursor ++ clearScreen)
  rw [Writer.write_of_room_eq_none rfl, hempty] at hcut
  by_cases hle : (written opened).length ≤ n
  · have hwrite : Writer.write ⟨#[], some n⟩ (hideCursor ++ clearScreen) =
        (.ok (), (writer opened).capped n) := hcut.same hle
    rw [start, hwrite, if_pos hle]
    rfl
  · have hwrite : Writer.write ⟨#[], some n⟩ (hideCursor ++ clearScreen) =
        (.error Writer.gone, (writer opened).capped n) :=
      Prod.ext (hcut.fails (Nat.not_le.1 hle)) hcut.accepted
    rw [start, hwrite, if_neg hle]

end Terminal

namespace Machine

variable {κ ρ : Type} [Keypad κ] [RandomSource ρ]

/-- A display whose writer fails only cuts the machine short. With room for `n` bytes, everything is
as it would be without a limit until more than `n` bytes are written; the operation that exceeds
them fails with the error of the writer, in its own way; and the bytes accepted are the first `n` of
those that would be written without a limit, up to the closing of the display. This is so wherever
the limit falls, as it makes no difference in how many pieces a text is written. A terminal can also
fail to be set up in the first place. -/
theorem cut_short_by_writer (config : Config) (keypad : κ) (random : ρ) (journal : Journal)
    (n : Nat) :
    (∃ t, Terminal.start .unlimited = .ok t ∧
      (n < (written t).length →
        Terminal.start ⟨#[], some n⟩ =
          .error (Writer.gone, ⟨((written t).take n).toArray, some 0⟩)) ∧
      ((written t).length ≤ n →
        ∃ t', Terminal.start ⟨#[], some n⟩ = .ok t' ∧
          BootsCutShort config keypad random journal n t t')) ∧
    BootsCutShort config keypad random journal n (GridPrinter.start .unlimited)
      (GridPrinter.start ⟨#[], some n⟩) ∧
    (∀ (w : Writer) (pieces : List (List Char)),
      w.writeEach pieces = w.write pieces.flatten) ∧
    Display.KeepsPixels Terminal ∧ Display.KeepsPixels GridPrinter := by
  refine ⟨?_, ?_, Writer.writeEach_eq, Terminal.drawingView.keepsPixels,
    GridPrinter.drawingView.keepsPixels⟩
  · refine ⟨.opened, Terminal.start_unlimited, fun hlt => ?_, fun hle => ?_⟩
    · have hnone : n - Terminal.opened.writer.written.size = 0 :=
        Nat.sub_eq_zero_of_le (Nat.le_of_lt hlt)
      rw [Terminal.start_capped, if_neg (Nat.not_le.2 hlt), Writer.capped, hnone]
      rfl
    · exact ⟨capped n .opened, (Terminal.start_capped n).trans (if_pos hle),
        bootsCutShort_capped config keypad random journal rfl hle⟩
  · have hcapped : GridPrinter.start ⟨#[], some n⟩ = capped n (GridPrinter.start .unlimited) := by
      simp [GridPrinter.start, capped, HasWriter.onto, writer, Writer.capped, Writer.unlimited]
    rw [hcapped]
    exact bootsCutShort_capped config keypad random journal rfl (Nat.zero_le n)

/-- Two more bytes are accepted than a terminal is set up with, and a clear comes to four. -/
theorem cut_short_by_writer_clearing :
    ∃ t t' m m', Terminal.start .unlimited = .ok t ∧ Terminal.start ⟨#[], some 12⟩ = .ok t' ∧
      boot ⟨96, 0x50, true⟩ t NoKeypad.mk (ByteTape.ofBytes []) (.start none) = .ok m ∧
      boot ⟨96, 0x50, true⟩ t' NoKeypad.mk (ByteTape.ofBytes []) (.start none) = .ok m' ∧
      ((m'.operateAll [.load (.ofBytes [0x00, 0xE0]) 0x50]).operate .step).1 =
        .stepped (.error (.instruction 0x50 ⟨0x00E0⟩ (.io Writer.gone))) ∧
      written (m'.operateAll [.load (.ofBytes [0x00, 0xE0]) 0x50, .step]) =
        Utf8.encode (Terminal.hideCursor ++ Terminal.clearScreen) ++ [0x1B, 0x5B] := by
  obtain ⟨⟨t, hstart, _, hfits⟩, _⟩ := cut_short_by_writer ⟨96, 0x50, true⟩ NoKeypad.mk
    (ByteTape.ofBytes []) (.start none) 12
  obtain rfl : .opened = t := Except.ok.inj (Terminal.start_unlimited.symm.trans hstart)
  have hboot := boot_fresh Terminal.opened NoKeypad.mk (ByteTape.ofBytes [])
  obtain ⟨t', hstart', _, hboots⟩ := hfits (by decide +kernel)
  obtain ⟨m', hboot', hcut⟩ := hboots _ hboot
  have hpc : ((fresh Terminal.opened NoKeypad.mk (ByteTape.ofBytes [])).operateAll
      [.load (.ofBytes [0x00, 0xE0]) 0x50]).core.pc = 0x50 := by decide +kernel
  refine ⟨_, t', _, m', hstart, hstart', hboot, hboot', ?_, ?_⟩
  · have hfails := hcut.fails [.load (.ofBytes [0x00, 0xE0]) 0x50] .step (by decide +kernel)
      (by decide +kernel)
    generalize ((m'.operateAll _).operate .step).1 = answer at hfails
    obtain ⟨⟨_⟩⟩ := hfails
    rw [hpc]
  · rw [hcut.accepted]
    decide +kernel

end Machine

end ChipEight
