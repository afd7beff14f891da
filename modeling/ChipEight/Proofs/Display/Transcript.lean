import ChipEight.Display.Screen
import ChipEight.Proofs.Display.Printer
import ChipEight.Proofs.Text.Escape

namespace ChipEight

open Text (Plain Skips)

namespace Writer

/-- The writer takes everything, and the text is what it has taken. -/
def Holds (w : Writer) (text : List Char) : Prop :=
  w.room = none ∧ w.written.toList = Utf8.encode text

theorem holds_unlimited : unlimited.Holds [] := ⟨rfl, rfl⟩

variable {w : Writer} {text : List Char}

theorem Holds.write (h : w.Holds text) (more : List Char) :
    (w.write more).2.Holds (text ++ more) := by
  obtain ⟨hroom, hwritten⟩ := h
  constructor
  · exact (write_of_room hroom more).2
  · rw [toList_written_write hroom, hwritten, Utf8.encode_append]

theorem Holds.text_eq (h : w.Holds text) : w.text.toList = text := by
  rw [Writer.text, h.2, Utf8.decode_encode, String.toList_ofList]

end Writer

namespace GridPrinter

theorem plain_line (p : Picture) (y : Nat) : Plain (line p y) := by
  have hmark : ∀ on ∈ p.row y, mark on ≠ '\x1b' := by
    intro on _
    cases on <;> decide
  have hcolon : Plain [':'] := by decide
  have hnewline : Plain ['\n'] := by decide
  have hnumber : Plain (Numeral.padded 10 2 y) := .padded (by decide) (by decide) 2 y
  exact (hnumber.append (hcolon.append (.map hmark))).append hnewline

theorem plain_frame (p : Picture) : Plain (frame p) := .flatMap fun y _ => plain_line p y

end GridPrinter

namespace Terminal

theorem skips_of_plain {text : List Char} (h : Plain text) : Skips showCursor text := .of_plain h

theorem skips_hideCursor : Skips showCursor hideCursor := fun _ => rfl

theorem skips_clearScreen : Skips showCursor clearScreen := fun _ => rfl

theorem skips_home : Skips showCursor home := fun _ => rfl

theorem skips_nextLine : Skips showCursor nextLine := fun _ => rfl

theorem skips_frame (p : Picture) : Skips showCursor (frame p) := by
  have hmark (y : Nat) : ∀ on ∈ p.row y, mark on ≠ '\x1b' := by
    intro on _
    cases on <;> decide
  have hline (y : Nat) : Skips showCursor (line p y) :=
    (skips_of_plain (.map (hmark y))).append skips_nextLine
  exact skips_home.append (.flatMap hline)

end Terminal

namespace Screen

open Display (apply draw)
open Terminal (showCursor)

def Holds (s : Screen) (text : List Char) : Prop := ∃ w ∈ s.writer?, w.Holds text

/-- What the screen prints when it is closed. -/
def farewell : Screen → List Char
  | .terminal _ => showCursor
  | _ => []

theorem farewell_draw (s : Screen) (strokes : List Stroke) :
    (draw s strokes).farewell = s.farewell := by
  induction strokes generalizing s with
  | nil => rfl
  | cons stroke strokes ih =>
    rw [Display.draw_cons, ih]
    cases s <;> cases stroke <;> rfl

theorem farewell_print (s : Screen) (text : String) : (s.print text).farewell = s.farewell := by
  cases s <;> rfl

namespace Holds

variable {s : Screen} {text : List Char}

theorem text_eq (h : s.Holds text) : s.text.toList = text := by
  obtain ⟨w, hw, hholds⟩ := h
  rw [Screen.text, Option.mem_def.1 hw]
  exact hholds.text_eq

theorem print (h : s.Holds text) (more : String) : (s.print more).Holds (text ++ more.toList) := by
  obtain ⟨w, hw, hholds⟩ := h
  cases s with
  | headless h => cases hw
  | picture p => cases hw
  | grid g =>
    cases hw
    exact ⟨_, rfl, hholds.write _⟩
  | terminal t =>
    cases hw
    exact ⟨_, rfl, hholds.write _⟩

theorem close (h : s.Holds text) : (Display.close s).Holds (text ++ s.farewell) := by
  obtain ⟨w, hw, hholds⟩ := h
  cases s with
  | headless h => cases hw
  | picture p => cases hw
  | grid g =>
    have hnothing : (grid g).farewell = [] := rfl
    rw [hnothing, List.append_nil]
    exact ⟨w, hw, hholds⟩
  | terminal t =>
    cases hw
    exact ⟨_, rfl, hholds.write _⟩

theorem grid_apply {g : GridPrinter} (h : g.writer.Holds text) (stroke : Stroke) :
    ∃ more, Skips showCursor more ∧ (apply g stroke).writer.Holds (text ++ more) := by
  have hsame : g.writer.Holds (text ++ []) := (List.append_nil text).symm ▸ h
  cases stroke with
  | clear => exact ⟨[], .nil, hsame⟩
  | setPixel x y on => exact ⟨[], .nil, hsame⟩
  | render =>
    exact ⟨_, Terminal.skips_of_plain (GridPrinter.plain_frame g.picture), h.write _⟩

theorem terminal_apply {t : Terminal} (h : t.writer.Holds text) (stroke : Stroke) :
    ∃ more, Skips showCursor more ∧ (apply t stroke).writer.Holds (text ++ more) := by
  have hsame : t.writer.Holds (text ++ []) := (List.append_nil text).symm ▸ h
  cases stroke with
  | clear => exact ⟨_, Terminal.skips_clearScreen, h.write _⟩
  | setPixel x y on => exact ⟨[], .nil, hsame⟩
  | render =>
    cases hstale : t.stale with
    | false =>
      have hkept : apply t .render = t := congrArg Prod.snd (Terminal.render_of_fresh hstale)
      exact ⟨[], .nil, by rw [hkept]; exact hsame⟩
    | true =>
      have hwriter : (apply t .render).writer = (t.writer.write (Terminal.frame t.picture)).2 :=
        (Terminal.render_of_stale hstale).2
      exact ⟨_, Terminal.skips_frame t.picture, by rw [hwriter]; exact h.write _⟩

theorem apply (h : s.Holds text) (stroke : Stroke) :
    ∃ more, Skips showCursor more ∧ (apply s stroke).Holds (text ++ more) := by
  obtain ⟨w, hw, hholds⟩ := h
  cases s with
  | headless h => cases hw
  | picture p => cases hw
  | grid g =>
    cases hw
    obtain ⟨more, hskips, hmore⟩ := grid_apply hholds stroke
    cases stroke <;> exact ⟨more, hskips, _, rfl, hmore⟩
  | terminal t =>
    cases hw
    obtain ⟨more, hskips, hmore⟩ := terminal_apply hholds stroke
    cases stroke <;> exact ⟨more, hskips, _, rfl, hmore⟩

/-- Whatever is drawn is printed after what was there, and the cursor stays hidden. -/
theorem draw (h : s.Holds text) (strokes : List Stroke) :
    ∃ more, Skips showCursor more ∧ (draw s strokes).Holds (text ++ more) := by
  induction strokes generalizing s text with
  | nil => exact ⟨[], .nil, (List.append_nil text).symm ▸ h⟩
  | cons stroke strokes ih =>
    obtain ⟨first, hfirst, hholds⟩ := h.apply stroke
    obtain ⟨later, hlater, hrest⟩ := ih hholds
    rw [List.append_assoc] at hrest
    exact ⟨first ++ later, hfirst.append hlater, hrest⟩

end Holds

end Screen

end ChipEight
