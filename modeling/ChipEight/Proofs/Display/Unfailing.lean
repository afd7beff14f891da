import ChipEight.Proofs.Display.Stroke

namespace ChipEight

open Display

namespace Display

variable {δ : Type} [Display δ]

/-- Whatever has been drawn, clearing and rendering do not fail. -/
def NeverFails (d : δ) : Prop :=
  ∀ strokes, (clear (draw d strokes)).1 = .ok () ∧ (render (draw d strokes)).1 = .ok ()

def KeepsPixels (δ : Type) [Display δ] : Prop :=
  ∀ (d : δ) x y, pixel (render d).2 x y = pixel d x y

theorem NeverFails.draw {d : δ} (h : NeverFails d) (strokes : List Stroke) :
    NeverFails (draw d strokes) := by
  intro more
  rw [← draw_append]
  exact h _

theorem NeverFails.clear_eq {d : δ} (h : NeverFails d) : (clear d).1 = .ok () := (h []).1

theorem NeverFails.render_eq {d : δ} (h : NeverFails d) : (render d).1 = .ok () := (h []).2

theorem NeverFails.apply {d : δ} (h : NeverFails d) (stroke : Stroke) :
    NeverFails (Display.apply d stroke) :=
  h.draw [stroke]

end Display

namespace DrawingView

variable {δ ν : Type} [Display δ] [Display ν] {view : δ → ν}

theorem setPixel (h : DrawingView view) (d : δ) (x y : Nat) (on : Bool) :
    Display.setPixel (view d) x y on = (Display.setPixel d x y on).map id view :=
  Prod.ext (h.setPixel_eq d x y on).symm (h.view_setPixel d x y on).symm

theorem drawDots (h : DrawingView view) (d : δ) (dots : List Dot) :
    Display.drawDots (view d) dots = (Display.drawDots d dots).map id view := by
  induction dots generalizing d with
  | nil => rfl
  | cons dot dots ih =>
    simp only [Display.drawDots, h.setPixel, Prod.map, ih]
    rfl

theorem clear (h : DrawingView view) {d : δ} (hd : NeverFails d) (hview : NeverFails (view d)) :
    Display.clear (view d) = (Display.clear d).map id view :=
  Prod.ext (hview.clear_eq.trans hd.clear_eq.symm) (h.view_clear d).symm

theorem keepsPixels (h : DrawingView view) : KeepsPixels δ := by
  intro d x y
  rw [h.pixel_eq, h.pixel_eq, h.view_render]

end DrawingView

theorem Headless.drawDots (h : Headless) (dots : List Dot) :
    Display.drawDots h dots = (false, h) := by
  induction dots with
  | nil => rfl
  | cons dot dots ih =>
    rw [Display.drawDots]
    simp only [Display.setPixel, ih, Bool.or_self]

theorem Picture.neverFails (p : Picture) : NeverFails p := fun _ => ⟨rfl, rfl⟩

namespace Writer

def AcceptsAll (w : Writer) : Prop := ∀ text, (w.write text).1 = .ok ()

theorem write_of_room {w : Writer} (h : w.room = none) (text : List Char) :
    (w.write text).1 = .ok () ∧ (w.write text).2.room = none := by
  simp [write, h]

theorem acceptsAll_iff {w : Writer} : w.AcceptsAll ↔ w.room = none := by
  constructor
  · intro h
    cases hroom : w.room with
    | none => rfl
    | some room =>
      -- One character more than there is room for.
      have hlen : (Utf8.encode (.replicate (room + 1) 'a')).length = room + 1 := by
        have hone : String.utf8EncodeChar 'a' = [97] := by decide
        simp [Utf8.encode, List.flatMap_replicate, hone]
      have hwrite := h (.replicate (room + 1) 'a')
      simp [write, hroom, hlen] at hwrite
  · exact fun h text => (write_of_room h text).1

end Writer

namespace GridPrinter

theorem room_draw {g : GridPrinter} (h : g.writer.room = none) (strokes : List Stroke) :
    (draw g strokes).writer.room = none := by
  induction strokes generalizing g with
  | nil => exact h
  | cons stroke strokes ih =>
    refine ih ?_
    cases stroke with
    | render => exact (Writer.write_of_room h _).2
    | _ => exact h

theorem neverFails {g : GridPrinter} (h : g.writer.room = none) : NeverFails g :=
  fun strokes => ⟨rfl, (Writer.write_of_room (room_draw h strokes) _).1⟩

end GridPrinter

namespace Terminal

theorem room_render {t : Terminal} (h : t.writer.room = none) :
    (render t).1 = .ok () ∧ (render t).2.writer.room = none := by
  obtain ⟨hok, hroom⟩ := Writer.write_of_room h (frame t.picture)
  unfold render
  rcases hwrite : t.writer.write (frame t.picture) with ⟨result, w⟩
  rw [hwrite] at hok hroom
  obtain rfl : result = .ok () := hok
  split
  · exact ⟨rfl, hroom⟩
  · exact ⟨rfl, h⟩

theorem room_draw {t : Terminal} (h : t.writer.room = none) (strokes : List Stroke) :
    (draw t strokes).writer.room = none := by
  induction strokes generalizing t with
  | nil => exact h
  | cons stroke strokes ih =>
    refine ih ?_
    cases stroke with
    | clear => exact (Writer.write_of_room h _).2
    | setPixel x y on => exact h
    | render => exact (room_render h).2

theorem start_of_room {w : Writer} (h : w.room = none) :
    ∃ t, start w = .ok t ∧ t.picture = .blank ∧ t.writer.room = none := by
  obtain ⟨hok, hroom⟩ := Writer.write_of_room h (hideCursor ++ clearScreen)
  unfold start
  rcases hwrite : w.write (hideCursor ++ clearScreen) with ⟨result, left⟩
  rw [hwrite] at hok hroom
  obtain rfl : result = .ok () := hok
  exact ⟨_, rfl, rfl, hroom⟩

theorem neverFails {t : Terminal} (h : t.writer.room = none) : NeverFails t :=
  fun strokes =>
    ⟨(Writer.write_of_room (room_draw h strokes) _).1, (room_render (room_draw h strokes)).1⟩

end Terminal

end ChipEight
