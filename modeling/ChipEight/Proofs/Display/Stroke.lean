import ChipEight.Display.Screen

namespace ChipEight

inductive Stroke
  | clear
  | setPixel (x y : Nat) (on : Bool)
  | render
  deriving DecidableEq

namespace Stroke

def unrendered (strokes : List Stroke) : List Stroke := strokes.filter (· ≠ .render)

@[simp] theorem unrendered_nil : unrendered [] = [] := rfl

@[simp] theorem unrendered_render (strokes : List Stroke) :
    unrendered (.render :: strokes) = unrendered strokes := by simp [unrendered]

theorem unrendered_cons {stroke : Stroke} (h : stroke ≠ .render) (strokes : List Stroke) :
    unrendered (stroke :: strokes) = stroke :: unrendered strokes := by simp [unrendered, h]

@[simp] theorem unrendered_append (first second : List Stroke) :
    unrendered (first ++ second) = unrendered first ++ unrendered second := by simp [unrendered]

@[simp] theorem unrendered_unrendered (strokes : List Stroke) :
    unrendered (unrendered strokes) = unrendered strokes := by simp [unrendered]

end Stroke

namespace Display

open Stroke

variable {δ : Type} [Display δ]

def apply (d : δ) : Stroke → δ
  | .clear => (clear d).2
  | .setPixel x y on => (setPixel d x y on).2
  | .render => (render d).2

def draw (d : δ) (strokes : List Stroke) : δ := strokes.foldl apply d

@[simp] theorem draw_nil (d : δ) : draw d [] = d := rfl

@[simp] theorem draw_cons (d : δ) (stroke : Stroke) (strokes : List Stroke) :
    draw d (stroke :: strokes) = draw (apply d stroke) strokes := rfl

theorem draw_append (d : δ) (first second : List Stroke) :
    draw d (first ++ second) = draw (draw d first) second :=
  List.foldl_append

/-- Whatever has been drawn, rendering does not fail. -/
def AlwaysRenders (d : δ) : Prop := ∀ strokes, (render (draw d strokes)).1 = .ok ()

theorem AlwaysRenders.draw {d : δ} (h : AlwaysRenders d) (strokes : List Stroke) :
    AlwaysRenders (draw d strokes) := by
  intro more
  rw [← draw_append]
  exact h _

def strokes (dots : List Dot) : List Stroke := dots.map fun dot => .setPixel dot.x dot.y dot.on

@[simp] theorem unrendered_strokes (dots : List Dot) :
    unrendered (strokes dots) = strokes dots := by
  simp [unrendered, strokes]

theorem snd_drawDots (d : δ) (dots : List Dot) : (drawDots d dots).2 = draw d (strokes dots) := by
  induction dots generalizing d with
  | nil => rfl
  | cons dot dots ih => exact ih _

end Display

open Display Stroke

/-- As long as rendering does not fail, drawing takes the same course without it. -/
class LawfulDisplay (δ : Type) [Display δ] : Prop where
  clear_draw {d : δ} (h : AlwaysRenders d) (strokes : List Stroke) :
    (clear (draw d strokes)).1 = (clear (draw d (unrendered strokes))).1
  setPixel_draw {d : δ} (h : AlwaysRenders d) (strokes : List Stroke) (x y : Nat) (on : Bool) :
    (setPixel (draw d strokes) x y on).1 = (setPixel (draw d (unrendered strokes)) x y on).1
  pixel_draw {d : δ} (h : AlwaysRenders d) (strokes : List Stroke) (x y : Nat) :
    pixel (draw d strokes) x y = pixel (draw d (unrendered strokes)) x y

namespace LawfulDisplay

variable {δ : Type} [Display δ] [LawfulDisplay δ]

theorem drawDots_draw {d : δ} (h : AlwaysRenders d) (strokes : List Stroke) (dots : List Dot) :
    (drawDots (draw d strokes) dots).1 = (drawDots (draw d (unrendered strokes)) dots).1 := by
  induction dots generalizing strokes with
  | nil => rfl
  | cons dot dots ih =>
    have hrest := ih (strokes ++ [.setPixel dot.x dot.y dot.on])
    rw [unrendered_append, unrendered_cons (by simp), draw_append, draw_append] at hrest
    simp only [unrendered_nil, draw_cons, draw_nil, apply] at hrest
    simp only [drawDots, setPixel_draw h strokes, hrest]

end LawfulDisplay

/-- What matters of one display for drawing, as another display. -/
structure DrawingView {δ ν : Type} [Display δ] [Display ν] (view : δ → ν) : Prop where
  view_clear (d : δ) : view (clear d).2 = (clear (view d)).2
  view_setPixel (d : δ) (x y : Nat) (on : Bool) :
    view (setPixel d x y on).2 = (setPixel (view d) x y on).2
  setPixel_eq (d : δ) (x y : Nat) (on : Bool) : (setPixel d x y on).1 = (setPixel (view d) x y on).1
  pixel_eq (d : δ) (x y : Nat) : pixel d x y = pixel (view d) x y
  view_render (d : δ) : view (render d).2 = view d

namespace DrawingView

variable {δ ν : Type} [Display δ] [Display ν] {view : δ → ν}

theorem view_draw (h : DrawingView view) (d : δ) (strokes : List Stroke) :
    view (draw d strokes) = draw (view d) (unrendered strokes) := by
  induction strokes generalizing d with
  | nil => rfl
  | cons stroke strokes ih =>
    rw [draw_cons, ih]
    cases stroke with
    | clear => exact congrArg (draw · _) (h.view_clear d)
    | setPixel x y on => exact congrArg (draw · _) (h.view_setPixel d x y on)
    | render => exact congrArg (draw · _) (h.view_render d)

theorem view_draw_unrendered (h : DrawingView view) (d : δ) (strokes : List Stroke) :
    view (draw d (unrendered strokes)) = view (draw d strokes) := by
  rw [h.view_draw, h.view_draw, unrendered_unrendered]

theorem lawful (h : DrawingView view)
    (hclear : ∀ d : δ, AlwaysRenders d → (clear d).1 = .ok ()) : LawfulDisplay δ where
  clear_draw hd strokes := (hclear _ (hd.draw _)).trans (hclear _ (hd.draw _)).symm
  setPixel_draw _ strokes x y on := by rw [h.setPixel_eq, h.setPixel_eq, h.view_draw_unrendered]
  pixel_draw _ strokes x y := by rw [h.pixel_eq, h.pixel_eq, h.view_draw_unrendered]

end DrawingView

theorem Headless.drawingView : DrawingView (id : Headless → Headless) :=
  ⟨fun _ => rfl, fun _ _ _ _ => rfl, fun _ _ _ _ => rfl, fun _ _ _ => rfl, fun _ => rfl⟩

instance : LawfulDisplay Headless := Headless.drawingView.lawful fun _ _ => rfl

theorem Picture.drawingView : DrawingView (id : Picture → Picture) :=
  ⟨fun _ => rfl, fun _ _ _ _ => rfl, fun _ _ _ _ => rfl, fun _ _ _ => rfl, fun _ => rfl⟩

instance : LawfulDisplay Picture := Picture.drawingView.lawful fun _ _ => rfl

theorem GridPrinter.drawingView : DrawingView GridPrinter.picture :=
  ⟨fun _ => rfl, fun _ _ _ _ => rfl, fun _ _ _ _ => rfl, fun _ _ _ => rfl, fun _ => rfl⟩

instance : LawfulDisplay GridPrinter := GridPrinter.drawingView.lawful fun _ _ => rfl

namespace Terminal

theorem render_of_stale {t : Terminal} (h : t.stale = true) :
    (render t).1 = (t.writer.write (frame t.picture)).1 ∧
      (render t).2.writer = (t.writer.write (frame t.picture)).2 := by
  rw [render, if_pos h]
  rcases t.writer.write (frame t.picture) with ⟨_ | _, left⟩
  · exact ⟨rfl, rfl⟩
  · exact ⟨rfl, rfl⟩

theorem render_of_fresh {t : Terminal} (h : t.stale = false) : render t = (.ok (), t) := by
  simp [render, h]

theorem picture_render (t : Terminal) : (render t).2.picture = t.picture := by
  unfold render
  split
  · cases h : t.writer.write (frame t.picture) with
    | mk result writer => cases result <;> simp
  · rfl

theorem drawingView : DrawingView Terminal.picture :=
  ⟨fun _ => rfl, fun _ _ _ _ => rfl, fun _ _ _ _ => rfl, fun _ _ _ => rfl, picture_render⟩

theorem room_clear {t : Terminal} {room : Nat} (h : t.writer.room = some room) :
    (clear t).2.writer.room = some (room - 4) := by
  have hlen : (Utf8.encode clearScreen).length = 4 := by decide
  simp [clear, Writer.write, h, hlen]

/-- Each time the screen is cleared, four more bytes are spent. -/
theorem draw_clear {t : Terminal} {room : Nat} (h : t.writer.room = some room) (count : Nat) :
    (draw t (.replicate (count + 1) .clear)).stale = true ∧
      (draw t (.replicate (count + 1) .clear)).writer.room = some (room - 4 * (count + 1)) := by
  induction count generalizing t room with
  | zero => exact ⟨rfl, room_clear h⟩
  | succ count ih =>
    obtain ⟨hstale, hroom⟩ := ih (room_clear h)
    refine ⟨hstale, hroom.trans (congrArg some ?_)⟩
    omega

theorem room_eq_none {t : Terminal} (h : AlwaysRenders t) : t.writer.room = none := by
  cases hroom : t.writer.room with
  | none => rfl
  | some room =>
    -- So many clears leave no room for a frame, and a frame is due after each of them.
    obtain ⟨hstale, hzero⟩ := draw_clear hroom room
    have hrender := h (.replicate (room + 1) .clear)
    generalize draw t (.replicate (room + 1) .clear) = cleared at hstale hzero hrender
    have hfull : cleared.writer.room = some 0 := by
      rw [hzero]
      exact congrArg some (by omega)
    have hframe : (Utf8.encode (frame cleared.picture)).length ≠ 0 := by
      have hhome : (Utf8.encode home).length = 6 := by decide
      rw [frame, Utf8.encode, List.flatMap_append, List.length_append, ← Utf8.encode, hhome]
      omega
    simp [Display.render, render, hstale, Writer.write, hfull, hframe] at hrender

end Terminal

instance : LawfulDisplay Terminal :=
  Terminal.drawingView.lawful fun t h => by
    simp [Display.clear, Terminal.clear, Writer.write, Terminal.room_eq_none h]

namespace Screen

def canvas : Screen → Screen
  | .grid g => .picture g.picture
  | .terminal t => .picture t.picture
  | screen => screen

theorem drawingView : DrawingView canvas where
  view_clear s := by cases s <;> rfl
  view_setPixel s x y on := by cases s <;> rfl
  setPixel_eq s x y on := by cases s <;> rfl
  pixel_eq s x y := by cases s <;> rfl
  view_render s := by
    cases s with
    | terminal t => exact congrArg Screen.picture t.picture_render
    | _ => rfl

theorem draw_terminal (t : Terminal) (strokes : List Stroke) :
    draw (Screen.terminal t) strokes = .terminal (draw t strokes) := by
  induction strokes generalizing t with
  | nil => rfl
  | cons stroke strokes ih => cases stroke <;> exact ih _

theorem alwaysRenders_terminal {t : Terminal} (h : AlwaysRenders (Screen.terminal t)) :
    AlwaysRenders t := by
  intro strokes
  have hrender := h strokes
  rwa [draw_terminal] at hrender

end Screen

instance : LawfulDisplay Screen :=
  Screen.drawingView.lawful fun s h => by
    cases s with
    | terminal t =>
      have hroom := Terminal.room_eq_none (Screen.alwaysRenders_terminal h)
      simp [Display.clear, Screen.clear, Screen.lift, Terminal.clear, Writer.write, hroom]
    | _ => rfl

end ChipEight
