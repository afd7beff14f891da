import ChipEight.Proofs.Display.Unfailing
import ChipEight.Proofs.Machine.Action
import ChipEight.Proofs.Machine.Recast
import ChipEight.Proofs.Run.Operation
import ChipEight.Proofs.Run.Simulation

namespace ChipEight

open Display (NeverFails)

namespace Machine

variable {δ ν κ ρ : Type} {view : δ → ν}

/-- The machine with a view of its display in place of the display. -/
def viewed (view : δ → ν) (m : Machine δ κ ρ) : Machine ν κ ρ :=
  m.recast m.config id view m.journal

theorem load_viewed (m : Machine δ κ ρ) (source : ByteSource) (offset : UInt16) :
    (m.viewed view).load source offset = (m.load source offset).map id (viewed view) := by
  obtain ⟨journal, hload, hsame⟩ := m.exists_load_recast m.config view m.journal source offset
  obtain rfl := hsame rfl
  obtain ⟨memory, journal', hleft⟩ := m.exists_load_eq source offset
  refine hload.trans (Prod.ext rfl ?_)
  simp only [Prod.map, hleft, viewed]

theorem boot_viewed (config : Config) (display : δ) (keypad : κ) (random : ρ) (journal : Journal) :
    boot config (view display) keypad random journal =
      (boot config display keypad random journal).map (viewed view) := by
  unfold boot
  cases Core.boot config.memorySize config.programStart with
  | error fault => rfl
  | ok core => rfl

variable [Display δ] [Display ν]

theorem render_viewed {m : Machine δ κ ρ}
    (h : Display.render (view m.display) = (Display.render m.display).map id view) :
    (m.viewed view).render = m.render.map id (viewed view) := by
  have hview : Display.render (m.viewed view).display = _ := h
  unfold render
  rw [hview]
  rfl

/-- The one machine has a view of the other's display, which never fails. -/
def Views (view : δ → ν) (x : Machine δ κ ρ) (y : Machine ν κ ρ) : Prop :=
  y = x.viewed view ∧ NeverFails x.display

theorem correspondence_views
    (hrender : ∀ d, NeverFails d → Display.render (view d) = (Display.render d).map id view) :
    Correspondence (Views (κ := κ) (ρ := ρ) view) where
  pc h := h.1 ▸ rfl
  note h _ := ⟨h.1 ▸ rfl, h.2⟩
  tick h := ⟨h.1 ▸ rfl, h.2⟩
  render := by
    rintro x _ ⟨rfl, hd⟩
    rw [render_viewed (hrender x.display hd)]
    exact ⟨rfl, rfl, hd.apply .render⟩

variable [Keypad κ] [RandomSource ρ]

theorem step_viewed {m : Machine δ κ ρ}
    (h : ∀ instruction, m.next? = some instruction →
      (m.core.advance.execute instruction).Mirrored view m.display) :
    (m.viewed view).step = m.step.map id (viewed view) := by
  refine (step_recast m.config m.core.seenThrough_id h fun _ _ _ => rfl).trans (Prod.ext rfl ?_)
  simp only [Prod.map, viewed, config_step, id]

theorem neverFails_step {m : Machine δ κ ρ} (h : NeverFails m.display) :
    NeverFails m.step.2.display := by
  obtain ⟨strokes, hd⟩ := m.exists_display_step
  rw [hd]
  exact h.draw strokes

section Pictures

variable {view : δ → Picture} (hview : DrawingView view) {m : Machine δ κ ρ}

include hview

omit [Keypad κ] [RandomSource ρ] in
theorem render_view {d : δ} (hd : NeverFails d) :
    Display.render (view d) = (Display.render d).map id view :=
  Prod.ext hd.render_eq.symm (hview.view_render d).symm

omit [Keypad κ] [RandomSource ρ] in
theorem mirrored_view {d : δ} (hd : NeverFails d) (r : Request) : r.Mirrored view d := by
  cases r with
  | clearScreen core => exact hview.clear hd (view d).neverFails
  | draw x y sprite resume => exact hview.drawDots d _
  | _ => trivial

theorem stepsAlike_view {x : Machine δ κ ρ} {y : Machine Picture κ ρ} (h : Views view x y) :
    StepsAlike (Views view) x y := by
  obtain ⟨rfl, hd⟩ := h
  rw [StepsAlike, step_viewed fun _ _ => mirrored_view hview hd _]
  exact ⟨rfl, rfl, neverFails_step hd⟩

theorem operate_view (hd : NeverFails m.display) (operation : Operation) :
    (m.viewed view).operate operation = (m.operate operation).map id (viewed view) ∧
      NeverFails (m.operate operation).2.display := by
  have hR := correspondence_views (κ := κ) (ρ := ρ) fun d => render_view hview (d := d)
  have hstep : (m.viewed view).step = m.step.map id (viewed view) :=
    step_viewed fun _ _ => mirrored_view hview hd _
  cases operation with
  | step => exact ⟨congrArg (Prod.map Answer.stepped id) hstep, neverFails_step hd⟩
  | run p clock =>
    obtain ⟨hresult, hleft, hstays⟩ :=
      hR.run p clock ⟨rfl, hd⟩ fun _ _ _ _ _ => stepsAlike_view hview
    exact ⟨Prod.ext (congrArg Answer.ran hresult) hleft, hstays⟩
  | tick => exact ⟨rfl, hd⟩
  | render =>
    have hrender := render_viewed (κ := κ) (ρ := ρ) (m := m) (render_view hview hd)
    exact ⟨congrArg (Prod.map Answer.stepped id) hrender, hd.apply .render⟩
  | load source offset =>
    refine ⟨congrArg (Prod.map Answer.loaded id) (load_viewed m source offset), ?_⟩
    obtain ⟨memory, journal, he⟩ := m.exists_load_eq source offset
    change NeverFails (m.load source offset).2.display
    rwa [he]
  | clearDisplay =>
    exact ⟨congrArg (onDisplay _ Answer.shown) (hview.clear hd (view _).neverFails),
      hd.apply .clear⟩
  | setPixel a b on =>
    exact ⟨congrArg (onDisplay _ Answer.lit) (hview.setPixel _ a b on),
      hd.apply (.setPixel a b on)⟩
  | drawSprite a b rows =>
    refine ⟨congrArg (onDisplay _ Answer.lit) (hview.drawDots _ _), ?_⟩
    have hdrawn : (m.operate (.drawSprite a b rows)).2.display =
        Display.draw m.display (Display.strokes (Sprite.dots a b rows)) :=
      Display.snd_drawDots _ _
    rw [hdrawn]
    exact hd.draw _
  | pixel a b => exact ⟨Prod.ext (congrArg Answer.lit (hview.pixel_eq _ a b).symm) rfl, hd⟩
  | renderDisplay =>
    exact ⟨congrArg (onDisplay _ Answer.shown) (render_view hview hd), hd.apply .render⟩

theorem watch_view (hd : NeverFails m.display) (operations : List Operation) :
    (m.viewed view).watch operations = m.watch operations := by
  induction operations generalizing m with
  | nil => rfl
  | cons operation operations ih =>
    obtain ⟨hoperate, hlater⟩ := operate_view hview hd operation
    have hpixel : Display.pixel (view (m.operate operation).2.display) =
        Display.pixel (m.operate operation).2.display :=
      funext fun a => funext fun b => (hview.pixel_eq _ a b).symm
    have hsight : ((m.operate operation).2.viewed view).sight (m.operate operation).1 =
        (m.operate operation).2.sight (m.operate operation).1 := congrArg (Sight.mk _ _) hpixel
    calc
      (m.viewed view).watch (operation :: operations) =
          ((m.operate operation).2.viewed view).sight (m.operate operation).1 ::
            ((m.operate operation).2.viewed view).watch operations := by
        rw [watch, hoperate]
        rfl
      _ = m.watch (operation :: operations) := by
        rw [hsight, ih hlater]
        rfl

end Pictures

section Blind

/-- A draw comes next, and it reports in VF that it has hit a lit pixel. -/
def Hits (m : Machine δ κ ρ) : Prop :=
  ∃ x y n, m.next? = some (.draw x y n) ∧ m.step.1 = .ok () ∧ m.step.2.core.getV .flag = 1

/-- In the course of the operation, a draw hits a lit pixel. -/
def Collides (m : Machine δ κ ρ) : Operation → Prop
  | .step => m.Hits
  | .run p clock => ∃ steps x, m.Reaches p clock steps x ∧ ¬ p.Exhausted steps ∧ x.Hits
  | _ => False

def NeverCollides (m : Machine δ κ ρ) : List Operation → Prop
  | [] => True
  | operation :: rest => ¬ m.Collides operation ∧ (m.operate operation).2.NeverCollides rest

def blind (_ : Picture) : Headless := ⟨⟩

variable {m : Machine Picture κ ρ}

theorem hits_of_draw {x y : Register} {n : UInt8} (hn : m.next? = some (.draw x y n))
    {sprite : List UInt8} (hs : m.core.memory.slice m.core.i.toNat n.toNat = .ok sprite)
    (hhit : (Display.drawSprite m.display (m.core.getV x).toNat (m.core.getV y).toNat sprite).1) :
    m.Hits := by
  obtain ⟨word, hf, hd⟩ := next?_eq_some_iff.1 hn
  have hrequest : m.core.advance.execute (.draw x y n) =
      .draw (m.core.getV x).toNat (m.core.getV y).toNat sprite fun hit =>
        m.core.advance.setV .flag hit.toUInt8 := by
    have hslice : m.core.advance.memory.slice m.core.advance.i.toNat n.toNat = .ok sprite := hs
    simp only [Core.execute, hslice]
    rfl
  have hserved : (m.served word (.draw x y n)).1 = .ok () ∧
      (m.served word (.draw x y n)).2.core = m.core.advance.setV .flag 1 := by
    rw [served, hrequest]
    refine ⟨rfl, ?_⟩
    change m.core.advance.setV .flag (Display.drawSprite m.display (m.core.getV x).toNat
      (m.core.getV y).toNat sprite).1.toUInt8 = _
    rw [hhit]
    rfl
  refine ⟨x, y, n, hn, (step_eq_ok_iff_of_decode hf hd).2 hserved.1, ?_⟩
  rw [step_of_decode hf hd]
  simp only [hserved.2, Core.getV_setV_self]

theorem mirrored_blind (h : ¬ m.Hits) {instruction : Instruction}
    (hn : m.next? = some instruction) :
    (m.core.advance.execute instruction).Mirrored blind m.display := by
  cases instruction with
  | clearScreen => rfl
  | ret => exact Request.mirrored_ofExcept _ _ _
  | call nnn => exact Request.mirrored_ofExcept _ _ _
  | draw x y n =>
    simp only [Core.execute]
    cases hs : m.core.advance.memory.slice m.core.advance.i.toNat n.toNat with
    | error fault => trivial
    | ok sprite =>
      have hmiss : (Display.drawSprite m.display (m.core.getV x).toNat (m.core.getV y).toNat
          sprite).1 = false := Bool.eq_false_iff.2 fun hhit => h (hits_of_draw hn hs hhit)
      exact Prod.ext ((congrArg Prod.fst (Headless.drawDots _ _)).trans hmiss.symm) rfl
  | storeDecimal x => exact Request.mirrored_ofExcept _ _ _
  | storeRegisters x => exact Request.mirrored_ofExcept _ _ _
  | loadRegisters x => exact Request.mirrored_ofExcept _ _ _
  | _ => trivial

theorem operate_blind {operation : Operation} (h : ¬ m.Collides operation) :
    ((m.viewed blind).operate operation).2 = (m.operate operation).2.viewed blind := by
  have hR : Correspondence (Views (κ := κ) (ρ := ρ) blind) := correspondence_views fun _ _ => rfl
  cases operation with
  | step => exact congrArg Prod.snd (step_viewed fun _ => mirrored_blind h)
  | run p clock =>
    refine (hR.run p clock ⟨rfl, m.display.neverFails⟩ ?_).2.1
    rintro steps x _ hx hlimit ⟨rfl, hd⟩
    have hmiss : ¬ x.Hits := fun hhits => h ⟨steps, x, hx, hlimit, hhits⟩
    rw [StepsAlike, step_viewed fun _ => mirrored_blind hmiss]
    exact ⟨rfl, rfl, neverFails_step hd⟩
  | load source offset => exact congrArg Prod.snd (load_viewed m source offset)
  | _ => rfl

/-- Without a display the core takes the same course, as long as no draw hits a lit pixel. -/
theorem watch_blind {operations : List Operation} (h : m.NeverCollides operations) :
    ((m.viewed blind).watch operations).map Sight.core = (m.watch operations).map Sight.core := by
  induction operations generalizing m with
  | nil => rfl
  | cons operation operations ih =>
    obtain ⟨hfirst, hrest⟩ := h
    have hleft := operate_blind hfirst
    have hcore : ((m.viewed blind).operate operation).2.core = (m.operate operation).2.core := by
      rw [hleft]
      rfl
    calc
      ((m.viewed blind).watch (operation :: operations)).map Sight.core =
          ((m.viewed blind).operate operation).2.core ::
            (((m.viewed blind).operate operation).2.watch operations).map Sight.core := rfl
      _ = (m.operate operation).2.core ::
            (((m.operate operation).2.viewed blind).watch operations).map Sight.core := by
        rw [hcore, hleft]
      _ = (m.watch (operation :: operations)).map Sight.core := by
        rw [ih hrest]
        rfl

end Blind

theorem watch_boot {view : δ → Picture} (hview : DrawingView view) {d : δ} (hd : NeverFails d)
    (config : Config) (keypad : κ) (random : ρ) (journal : Journal)
    (operations : List Operation) :
    (boot config d keypad random journal).map (·.watch operations) =
      (boot config (view d) keypad random journal).map (·.watch operations) := by
  rw [boot_viewed]
  cases hboot : boot config d keypad random journal with
  | error fault => rfl
  | ok m =>
    obtain ⟨core, _, rfl⟩ := boot_eq_ok_iff.1 hboot
    exact congrArg Except.ok (watch_view hview hd operations).symm

/-- A machine that prints its display, as a grid or on a terminal, cannot be told from one that
keeps the picture alone: each operation has the same answer, and after it core and pixels are the
same. Nor does rendering change a pixel. A machine without a display has the same core at least, as
long as no draw hits a lit pixel. -/
theorem displays_interchangeable (config : Config) (keypad : κ) (random : ρ) (journal : Journal)
    {w w' : Writer} (hw : w.AcceptsAll) (hw' : w'.AcceptsAll) (operations : List Operation) :
    (boot config (GridPrinter.start w) keypad random journal).map (·.watch operations) =
        (boot config Picture.blank keypad random journal).map (·.watch operations) ∧
      (∃ t, Terminal.start w' = .ok t ∧
        (boot config t keypad random journal).map (·.watch operations) =
          (boot config Picture.blank keypad random journal).map (·.watch operations)) ∧
      (Display.KeepsPixels Picture ∧ Display.KeepsPixels GridPrinter ∧
        Display.KeepsPixels Terminal) ∧
      ∀ m : Machine Picture κ ρ, boot config Picture.blank keypad random journal = .ok m →
        m.NeverCollides operations →
        ∃ m' : Machine Headless κ ρ, boot config ⟨⟩ keypad random journal = .ok m' ∧
          (m'.watch operations).map Sight.core = (m.watch operations).map Sight.core := by
  refine ⟨?_, ?_, ?_, ?_⟩
  · have hgrid := GridPrinter.neverFails (g := .start w) (Writer.acceptsAll_iff.1 hw)
    exact watch_boot GridPrinter.drawingView hgrid config keypad random journal operations
  · obtain ⟨t, hstart, hblank, hroom⟩ := Terminal.start_of_room (Writer.acceptsAll_iff.1 hw')
    refine ⟨t, hstart, ?_⟩
    rw [← hblank]
    exact watch_boot Terminal.drawingView (Terminal.neverFails hroom) config keypad random
      journal operations
  · exact ⟨Picture.drawingView.keepsPixels, GridPrinter.drawingView.keepsPixels,
      Terminal.drawingView.keepsPixels⟩
  · intro m hboot hmiss
    refine ⟨m.viewed blind, ?_, watch_blind hmiss⟩
    have hblind : boot config (blind Picture.blank) keypad random journal = _ := boot_viewed ..
    rw [hboot] at hblind
    exact hblind

/-- The glyph of 0 is drawn in the upper left corner and then shown. -/
def glyphShown : List Operation :=
  [.load (.ofBytes [0xD0, 0x05]) 0x50, .step, .renderDisplay, .pixel 0 0]

theorem displays_interchangeable_glyph :
    Writer.unlimited.AcceptsAll ∧
      ∃ t m m',
        boot ⟨96, 0x50, true⟩ Picture.blank NoKeypad.mk (ByteTape.ofBytes []) (.start none) =
          .ok m ∧
        m.NeverCollides glyphShown ∧ (m.watch glyphShown).map (·.pixel 0 0) =
          [false, true, true, true] ∧
        Terminal.start .unlimited = .ok t ∧
        (boot ⟨96, 0x50, true⟩ t NoKeypad.mk (ByteTape.ofBytes []) (.start none)).map
          (·.watch glyphShown) = .ok (m.watch glyphShown) ∧
        boot ⟨96, 0x50, true⟩ Headless.mk NoKeypad.mk (ByteTape.ofBytes []) (.start none) =
          .ok m' ∧
        (m'.watch glyphShown).map Sight.core = (m.watch glyphShown).map Sight.core := by
  have haccepts : Writer.unlimited.AcceptsAll := Writer.acceptsAll_iff.2 rfl
  have hboot := boot_fresh Picture.blank NoKeypad.mk (ByteTape.ofBytes [])
  have hflag : ((fresh Picture.blank NoKeypad.mk (ByteTape.ofBytes [])).operate
      (.load (.ofBytes [0xD0, 0x05]) 0x50)).2.step.2.core.getV .flag ≠ 1 := by
    decide +kernel
  have hmiss : (fresh Picture.blank NoKeypad.mk (ByteTape.ofBytes [])).NeverCollides glyphShown :=
    ⟨id, fun ⟨_, _, _, _, _, hhit⟩ => hflag hhit, id, id, trivial⟩
  obtain ⟨_, ⟨t, hstart, hterminal⟩, _, hheadless⟩ :=
    displays_interchangeable ⟨96, 0x50, true⟩ NoKeypad.mk (ByteTape.ofBytes []) (.start none)
      haccepts haccepts glyphShown
  obtain ⟨m', hboot', hcore⟩ := hheadless _ hboot hmiss
  rw [hboot] at hterminal
  exact ⟨haccepts, t, _, m', hboot, hmiss, by decide +kernel, hstart, hterminal, hboot', hcore⟩

end Machine

end ChipEight
