import ChipEight.Proofs.Display.Frame
import ChipEight.Proofs.Run.Drawn
import ChipEight.Proofs.Run.Operation

namespace ChipEight

/-- What is done to a machine whose display is a terminal. -/
inductive Handling (κ : Type)
  | operation (o : Operation)
  | keypad (use : κ → κ)
  | limit (room : Option Nat)

namespace Machine

open Terminal (Call)

variable {κ ρ : Type} [Keypad κ] [RandomSource ρ]

def handle (m : Machine Terminal κ ρ) : Handling κ → Machine Terminal κ ρ
  | .operation o => (m.operate o).2
  | .keypad use => { m with keypad := use m.keypad }
  | .limit room => { m with display := m.display.perform (.limit room) }

def handleAll (m : Machine Terminal κ ρ) (handlings : List (Handling κ)) : Machine Terminal κ ρ :=
  handlings.foldl handle m

def callsOfOperation (m : Machine Terminal κ ρ) : Operation → List Call
  | .step => m.stepStrokes.map .stroke
  | .run p clock => (m.runStrokes p clock).map .stroke
  | .tick => []
  | .render => [.stroke .render]
  | .load _ _ => []
  | .clearDisplay => [.stroke .clear]
  | .setPixel x y on => [.stroke (.setPixel x y on)]
  | .drawSprite x y rows => [.drawSprite x y rows]
  | .pixel x y => [.pixel x y]
  | .renderDisplay => [.stroke .render]

def callsOf (m : Machine Terminal κ ρ) : Handling κ → List Call
  | .operation o => m.callsOfOperation o
  | .keypad _ => []
  | .limit room => [.limit room]

/-- The calls on the terminal, those that the machine makes and those that are made past it. -/
def calls (m : Machine Terminal κ ρ) : List (Handling κ) → List Call
  | [] => []
  | handling :: rest => m.callsOf handling ++ (m.handle handling).calls rest

theorem display_operate (m : Machine Terminal κ ρ) (o : Operation) :
    (m.operate o).2.display = m.display.performAll (m.callsOfOperation o) := by
  cases o with
  | step => exact m.display_step.trans (Terminal.draw_eq_performAll _ _)
  | run p clock => exact (m.display_run p clock).trans (Terminal.draw_eq_performAll _ _)
  | load source offset =>
    obtain ⟨memory, journal, he⟩ := m.exists_load_eq source offset
    change (m.load source offset).2.display = m.display
    rw [he]
  | _ => rfl

theorem display_handleAll (m : Machine Terminal κ ρ) (handlings : List (Handling κ)) :
    (m.handleAll handlings).display = m.display.performAll (m.calls handlings) := by
  induction handlings generalizing m with
  | nil => rfl
  | cons handling handlings ih =>
    have hfirst : (m.handle handling).display = m.display.performAll (m.callsOf handling) := by
      cases handling with
      | operation o => exact m.display_operate o
      | keypad use => rfl
      | limit room => rfl
    rw [calls, Terminal.performAll_append, ← hfirst]
    exact ih (m.handle handling)

end Machine

namespace Terminal

/-- A terminal is never stale after it has been rendered. Whatever has been called on it, by a
machine or past it, and whatever limits its writer has had in between, so that any of the calls may
have failed: if rendering succeeds, all that has been written since the terminal was started ends
with the frame of the picture, which is the cursor sent home and 32 rows of 64 cells, the cursor sent
to the next line behind each. And rendering writes nothing exactly if the terminal has been rendered
before and nothing has been drawn since, by a clear, failed or not, or by switching a pixel. -/
theorem never_stale {w : Writer} {t : Terminal} (hstart : start w = .ok t) :
    (∀ calls,
      ((render (t.performAll calls)).1 = .ok () →
        ∃ (before : List UInt8) (rows : List (List Char)),
          (render (t.performAll calls)).2.writer.written.toList =
            w.written.toList ++ before ++ Utf8.encode ("\x1b[1;1H".toList ++ rows.flatten) ∧
          rows.length = 32 ∧
          ∀ y < 32, ∃ cells : List Char, rows[y]? = some (cells ++ "\x1b[1E".toList) ∧
            cells.length = 64 ∧ ∀ x < 64, cells[x]? =
              some (if (t.performAll calls).picture.pixel x y then '█' else ' ')) ∧
      ((t.performAll calls).Silent ↔
        ∃ before after, calls = before ++ .stroke .render :: after ∧
          (render (t.performAll before)).1 = .ok () ∧ ∀ call ∈ after, ¬ call.Draws)) ∧
    ∀ {κ ρ : Type} [Keypad κ] [RandomSource ρ] (m : Machine Terminal κ ρ)
      (handlings : List (Handling κ)), m.display = t →
        (m.handleAll handlings).display = t.performAll (m.calls handlings) ∧
          ((m.handleAll handlings).render.1 = .ok () ↔
            (render (t.performAll (m.calls handlings))).1 = .ok ()) := by
  obtain ⟨hshown, hstale⟩ := ShownSince.start hstart
  refine ⟨fun calls => ⟨fun hok => ?_, ?_⟩, fun m handlings hm => ?_⟩
  · obtain ⟨before, bytes, hwritten, rows, hlength, rfl, hrows⟩ :=
      (hshown.performAll calls).exists_shows hok
    exact ⟨before, rows, hwritten, hlength, hrows⟩
  · rw [silent_iff, stale_performAll]
    simp [hstale]
  · subst hm
    have hdisplay := m.display_handleAll handlings
    refine ⟨hdisplay, ?_⟩
    rw [← hdisplay]
    exact mapError_eq_ok_iff

/-- A terminal whose writer is full from the start. -/
def cutOff : Terminal := ⟨.blank, ⟨(Utf8.encode (hideCursor ++ clearScreen)).toArray, some 0⟩, true⟩

/-- The first frame is refused; with a limit no more, it is written, and no other until something is
drawn. -/
theorem never_stale_resumed :
    start ⟨#[], some 10⟩ = .ok cutOff ∧
      (render cutOff).1 = .error Writer.gone ∧
      (∃ (before : List UInt8) (rows : List (List Char)),
        (render (cutOff.performAll [.stroke .render, .limit none])).2.writer.written.toList =
          before ++ Utf8.encode ("\x1b[1;1H".toList ++ rows.flatten) ∧
        rows.length = 32 ∧
        ∀ y < 32, ∃ cells : List Char, rows[y]? = some (cells ++ "\x1b[1E".toList) ∧
          cells.length = 64 ∧ ∀ x < 64, cells[x]? = some ' ') ∧
      (cutOff.performAll [.stroke .render, .limit none, .stroke .render]).Silent ∧
      ¬ (cutOff.performAll [.stroke .render, .limit none, .stroke .clear]).Silent := by
  have hlen : (Utf8.encode (hideCursor ++ clearScreen)).length = 10 := by decide
  have hstart : start ⟨#[], some 10⟩ = .ok cutOff := by
    simp [start, Writer.write, hlen, cutOff, List.take_of_length_le]
  have hok : (render (cutOff.performAll [.stroke .render, .limit none])).1 = .ok () :=
    (room_render rfl).1
  have hrefused : (render cutOff).1 = .error Writer.gone := by
    have hpos := length_encode_frame_pos .blank
    simp [render, cutOff, Writer.write, Nat.ne_of_gt hpos]
  have hsame (t : Terminal) :
      (t.performAll [.stroke .render, .limit none]).picture = t.picture := picture_render t
  obtain ⟨hcalls, _⟩ := never_stale hstart
  obtain ⟨hshown, _⟩ := hcalls [.stroke .render, .limit none]
  refine ⟨hstart, hrefused, ?_, ?_, fun h => ?_⟩
  · obtain ⟨before, rows, hwritten, hlength, hrows⟩ := hshown hok
    refine ⟨_, rows, hwritten, hlength, fun y hy => ?_⟩
    obtain ⟨cells, hrow, hcells, hcell⟩ := hrows y hy
    refine ⟨cells, hrow, hcells, fun x hx => (hcell x hx).trans ?_⟩
    rw [hsame, cutOff, Picture.pixel_blank]
    rfl
  · exact (hcalls _).2.2 ⟨[.stroke .render, .limit none], [], rfl, hok,
      List.forall_mem_nil _⟩
  · cases silent_iff.1 h

end Terminal

end ChipEight
