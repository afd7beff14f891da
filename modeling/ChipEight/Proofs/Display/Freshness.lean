import ChipEight.Proofs.Display.Stroke

namespace ChipEight

namespace Writer

/-- A writer only adds to what has been written; text that it does not refuse, it adds whole. -/
theorem exists_written_write (w : Writer) (text : List Char) :
    ∃ more, (w.write text).2.written.toList = w.written.toList ++ more ∧
      ((w.write text).1 = .ok () → more = Utf8.encode text) := by
  cases hroom : w.room with
  | none => exact ⟨Utf8.encode text, by simp [write, hroom], fun _ => rfl⟩
  | some room =>
    refine ⟨(Utf8.encode text).take room, by simp [write, hroom], fun h => ?_⟩
    exact List.take_of_length_le (by simpa [write, hroom] using h)

end Writer

namespace Terminal

open Display (apply draw)

inductive Call
  | stroke (s : Stroke)
  | drawSprite (x y : Nat) (rows : List UInt8)
  | pixel (x y : Nat)
  | limit (room : Option Nat)

namespace Call

/-- Whether the call clears the screen or switches a pixel. -/
def Draws : Call → Prop
  | .stroke .clear => True
  | .stroke (.setPixel _ _ on) => on = true
  | .stroke .render => False
  | .drawSprite x y rows => ∃ dot ∈ Sprite.dots x y rows, dot.on = true
  | .pixel _ _ => False
  | .limit _ => False

end Call

def perform (t : Terminal) : Call → Terminal
  | .stroke s => apply t s
  | .drawSprite x y rows => (Display.drawSprite t x y rows).2
  | .pixel _ _ => t
  | .limit room => { t with writer := t.writer.setRoom room }

def performAll (t : Terminal) (calls : List Call) : Terminal := calls.foldl perform t

theorem performAll_append (t : Terminal) (first second : List Call) :
    t.performAll (first ++ second) = (t.performAll first).performAll second :=
  List.foldl_append

theorem draw_eq_performAll (t : Terminal) (strokes : List Stroke) :
    draw t strokes = t.performAll (strokes.map .stroke) := by
  rw [performAll, List.foldl_map]
  rfl

/-- To render it would not write anything: with whatever writer, this succeeds and leaves the
terminal as it is. -/
def Silent (t : Terminal) : Prop :=
  ∀ writer, render { t with writer } = (.ok (), { t with writer })

theorem length_encode_frame_pos (p : Picture) : 0 < (Utf8.encode (frame p)).length := by
  have hhome : (Utf8.encode home).length = 6 := by decide
  rw [frame, Utf8.encode, List.flatMap_append, List.length_append, ← Utf8.encode, hhome]
  exact Nat.add_pos_left (by decide) _

theorem silent_iff {t : Terminal} : t.Silent ↔ t.stale = false := by
  constructor
  · intro h
    -- A writer that is full refuses every frame.
    cases hstale : t.stale with
    | false => rfl
    | true =>
      have hpos := length_encode_frame_pos t.picture
      have hok := congrArg Prod.fst (h ⟨#[], some 0⟩)
      simp [render, hstale, Writer.write, Nat.ne_of_gt hpos] at hok
  · intro h writer
    simp [render, h]

theorem stale_render {t : Terminal} : (render t).2.stale = false ↔ (render t).1 = .ok () := by
  unfold render
  cases hstale : t.stale with
  | false => simp [hstale]
  | true =>
    rcases t.writer.write (frame t.picture) with ⟨error | _, w⟩
    · simp
    · simp

theorem stale_draw_strokes (t : Terminal) (dots : List Dot) :
    (draw t (Display.strokes dots)).stale = (t.stale || dots.any (·.on)) := by
  induction dots generalizing t with
  | nil => exact (Bool.or_false _).symm
  | cons dot dots ih =>
    refine (ih _).trans ?_
    rw [List.any_cons, ← Bool.or_assoc]
    rfl

theorem stale_perform {t : Terminal} {call : Call} :
    (t.perform call).stale = false ↔
      ¬ call.Draws ∧ (t.stale = false ∨ call = .stroke .render ∧ (render t).1 = .ok ()) := by
  cases call with
  | stroke s =>
    cases s with
    | clear => simp [perform, apply, Display.clear, clear, Call.Draws]
    | setPixel x y on =>
      simp [perform, apply, Display.setPixel, setPixel, Call.Draws, and_comm]
    | render =>
      have hfresh : t.stale = false → (render t).1 = .ok () :=
        fun h => congrArg Prod.fst (render_of_fresh h)
      simp only [Call.Draws, not_false_eq_true, true_and]
      exact stale_render.trans ⟨.inr, Or.rec hfresh id⟩
  | drawSprite x y rows =>
    have hdrawn : (t.perform (.drawSprite x y rows)).stale =
        (t.stale || (Sprite.dots x y rows).any (·.on)) :=
      (congrArg stale (Display.snd_drawDots t _)).trans (stale_draw_strokes t _)
    simp only [hdrawn, Bool.or_eq_false_iff, List.any_eq_false, Call.Draws, not_exists, not_and,
      reduceCtorEq, false_and, or_false]
    exact and_comm
  | pixel x y => simp [perform, Call.Draws]
  | limit room => simp [perform, Call.Draws]

theorem stale_performAll_of_not_draws {t : Terminal} {calls : List Call} (h : t.stale = false)
    (hcalls : ∀ call ∈ calls, ¬ call.Draws) : (t.performAll calls).stale = false := by
  induction calls generalizing t with
  | nil => exact h
  | cons call calls ih =>
    obtain ⟨hfirst, hrest⟩ := List.forall_mem_cons.1 hcalls
    exact ih (stale_perform.2 ⟨hfirst, .inl h⟩) hrest

/-- The terminal is up to date if it was at first, or has been rendered, and nothing has been drawn
since. -/
theorem stale_performAll {t : Terminal} {calls : List Call} :
    (t.performAll calls).stale = false ↔
      (t.stale = false ∧ ∀ call ∈ calls, ¬ call.Draws) ∨
        ∃ before after, calls = before ++ .stroke .render :: after ∧
          (render (t.performAll before)).1 = .ok () ∧ ∀ call ∈ after, ¬ call.Draws := by
  constructor
  · intro h
    induction calls generalizing t with
    | nil => exact .inl ⟨h, List.forall_mem_nil _⟩
    | cons call calls ih =>
      obtain ⟨hfirst, hrest⟩ | ⟨before, after, rfl, hok, hafter⟩ := ih h
      · obtain ⟨hdraws, hfresh | ⟨rfl, hok⟩⟩ := stale_perform.1 hfirst
        · exact .inl ⟨hfresh, List.forall_mem_cons.2 ⟨hdraws, hrest⟩⟩
        · exact .inr ⟨[], calls, rfl, hok, hrest⟩
      · exact .inr ⟨call :: before, after, rfl, hok, hafter⟩
  · rintro (⟨h, hcalls⟩ | ⟨before, after, rfl, hok, hafter⟩)
    · exact stale_performAll_of_not_draws h hcalls
    · rw [performAll_append]
      exact stale_performAll_of_not_draws (t := (render (t.performAll before)).2)
        (stale_render.2 hok) hafter

/-- What has been written since the writer was `w` ends with the frame of the picture, unless the
terminal is stale. -/
def ShownSince (w : Writer) (t : Terminal) : Prop :=
  ∃ out, t.writer.written.toList = w.written.toList ++ out ∧
    (t.stale = false → Utf8.encode (frame t.picture) <:+ out)

namespace ShownSince

variable {w : Writer} {t : Terminal}

theorem start (h : Terminal.start w = .ok t) : ShownSince w t ∧ t.stale = true := by
  obtain ⟨more, hmore, _⟩ := w.exists_written_write (hideCursor ++ clearScreen)
  unfold Terminal.start at h
  rcases hw : w.write (hideCursor ++ clearScreen) with ⟨error | _, left⟩
  · simp [hw] at h
  · simp only [hw, Except.ok.injEq] at h
    subst h
    rw [hw] at hmore
    exact ⟨⟨more, hmore, nofun⟩, rfl⟩

theorem apply (h : ShownSince w t) (s : Stroke) : ShownSince w (Display.apply t s) := by
  obtain ⟨out, hout, hfresh⟩ := h
  cases s with
  | clear =>
    obtain ⟨more, hmore, _⟩ := t.writer.exists_written_write clearScreen
    refine ⟨out ++ more, ?_, nofun⟩
    rw [← List.append_assoc, ← hout]
    exact hmore
  | setPixel x y on =>
    refine ⟨out, hout, fun h => ?_⟩
    obtain ⟨hstale, rfl⟩ := Bool.or_eq_false_iff.1 h
    have hsame : (Display.apply t (.setPixel x y false)).picture = t.picture :=
      t.picture.setPixel_false x y
    rw [hsame]
    exact hfresh hstale
  | render =>
    cases hstale : t.stale with
    | false =>
      have hsame : Display.apply t .render = t := congrArg Prod.snd (render_of_fresh hstale)
      rw [hsame]
      exact ⟨out, hout, hfresh⟩
    | true =>
      obtain ⟨more, hmore, hall⟩ := t.writer.exists_written_write (frame t.picture)
      obtain ⟨hresult, hwriter⟩ := render_of_stale hstale
      refine ⟨out ++ more, ?_, ?_⟩
      · rw [← List.append_assoc, ← hout, ← hmore, ← hwriter]
        rfl
      · intro hnow
        have hsame : (Display.apply t .render).picture = t.picture := picture_render t
        rw [hsame, hall (hresult.symm.trans (stale_render.1 hnow))]
        exact List.suffix_append _ _

theorem draw (h : ShownSince w t) (strokes : List Stroke) :
    ShownSince w (Display.draw t strokes) := by
  induction strokes generalizing t with
  | nil => exact h
  | cons s strokes ih => exact ih (h.apply s)

theorem perform (h : ShownSince w t) (call : Call) : ShownSince w (t.perform call) := by
  cases call with
  | stroke s => exact h.apply s
  | drawSprite x y rows =>
    have hdrawn : t.perform (.drawSprite x y rows) =
        Display.draw t (Display.strokes (Sprite.dots x y rows)) := Display.snd_drawDots t _
    rw [hdrawn]
    exact h.draw _
  | pixel x y => exact h
  | limit room => exact h

theorem performAll (h : ShownSince w t) (calls : List Call) :
    ShownSince w (t.performAll calls) := by
  induction calls generalizing t with
  | nil => exact h
  | cons call calls ih => exact ih (h.perform call)

end ShownSince

end Terminal

end ChipEight
