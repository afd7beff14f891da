import Mathlib.Data.List.OfFn
import Mathlib.Data.List.FinRange
import ChipEight.Proofs.Display.Freshness
import ChipEight.Proofs.Display.Unfailing

namespace ChipEight

namespace Picture

open Display

theorem map_range_eq_ofFn {α : Type} (f : Nat → α) (n : Nat) :
    (List.range n).map f = List.ofFn fun k : Fin n => f k := by
  rw [← List.map_coe_finRange_eq_range, List.map_map, List.ofFn_eq_map]
  rfl

theorem flatMap_row (p : Picture) : (List.range height).flatMap p.row = p.dots.toList := by
  have hdots : p.dots.toList =
      List.ofFn fun k : Fin (height * width) => p.dots[k.cast (Nat.mul_comm height width)] := by
    apply List.ext_getElem
    · rw [Vector.length_toList, List.length_ofFn, Nat.mul_comm]
    · intro k hk hk'
      rw [List.getElem_ofFn, Vector.getElem_toList]
      rfl
  rw [hdots, List.ofFn_mul, List.flatMap, map_range_eq_ofFn]
  congr 2
  funext y
  rw [row, map_range_eq_ofFn]
  congr 1
  funext x
  have hplace : (place x y).val = y * width + x := by
    simp only [place, Nat.mod_eq_of_lt x.isLt, Nat.mod_eq_of_lt y.isLt]
  simp only [pixel, Fin.getElem_fin, hplace]
  rfl

def ofDots? (dots : List Bool) : Option Picture :=
  if h : dots.toArray.size = width * height then some ⟨⟨dots.toArray, h⟩⟩ else none

theorem ofDots?_toList (p : Picture) : ofDots? p.dots.toList = some p := by
  obtain ⟨⟨dots, hsize⟩⟩ := p
  exact dif_pos hsize

end Picture

structure FrameLayout where
  lead : List Char
  front : Nat → List Char
  on : Char
  off : Char
  back : List Char
  on_ne_off : on ≠ off
  /-- There are no such characters but the cells. -/
  on_apart : on ∉ lead ∧ (∀ y < Display.height, on ∉ front y) ∧ on ∉ back
  off_apart : off ∉ lead ∧ (∀ y < Display.height, off ∉ front y) ∧ off ∉ back

theorem eq_map_range_iff {α : Type} {f : Nat → α} {n : Nat} {as : List α} :
    as = (List.range n).map f ↔ as.length = n ∧ ∀ k < n, as[k]? = some (f k) := by
  apply Iff.intro
  · rintro rfl
    refine ⟨by rw [List.length_map, List.length_range], ?_⟩
    intro k hk
    rw [List.getElem?_map, List.getElem?_range hk]
    rfl
  · rintro ⟨hlength, has⟩
    apply List.ext_getElem?
    intro k
    rcases Nat.lt_or_ge k n with hk | hk
    · rw [has k hk, List.getElem?_map, List.getElem?_range hk]
      rfl
    · rw [List.getElem?_eq_none (hlength.trans_le hk), List.getElem?_eq_none]
      rw [List.length_map, List.length_range]
      exact hk

namespace FrameLayout

variable (l : FrameLayout) {p : Picture} {bytes : List UInt8}

/-- The bytes are a frame of the picture: 32 rows of 64 cells, one for each pixel. -/
def Shows (p : Picture) (bytes : List UInt8) : Prop :=
  ∃ rows : List (List Char), rows.length = 32 ∧ bytes = Utf8.encode (l.lead ++ rows.flatten) ∧
    ∀ y < 32, ∃ cells : List Char, rows[y]? = some (l.front y ++ cells ++ l.back) ∧
      cells.length = 64 ∧ ∀ x < 64, cells[x]? = some (if p.pixel x y then l.on else l.off)

def mark (lit : Bool) : Char := if lit then l.on else l.off

def line (p : Picture) (y : Nat) : List Char := l.front y ++ (p.row y).map l.mark ++ l.back

def frame (p : Picture) : List Char := l.lead ++ (List.range Display.height).flatMap (l.line p)

def cell? (c : Char) : Option Bool :=
  if c = l.on then some true else if c = l.off then some false else none

/-- The picture that a frame shows. What is read is printed again and compared. -/
def read (bytes : List UInt8) : Option Picture :=
  (Picture.ofDots? ((Utf8.decode bytes).filterMap l.cell?)).filter fun p =>
    Utf8.encode (l.frame p) = bytes

theorem map_mark_row (p : Picture) (y : Nat) :
    (p.row y).map l.mark = (List.range 64).map fun x => if p.pixel x y then l.on else l.off := by
  rw [Picture.row, List.map_map]
  rfl

theorem shows_iff : l.Shows p bytes ↔ bytes = Utf8.encode (l.frame p) := by
  apply Iff.intro
  · rintro ⟨rows, hlength, rfl, hrows⟩
    have hlines : rows = (List.range 32).map (l.line p) := by
      apply eq_map_range_iff.2 ⟨hlength, _⟩
      intro y hy
      obtain ⟨cells, hrow, hcells⟩ := hrows y hy
      rw [hrow, eq_map_range_iff.2 hcells, line, map_mark_row]
    rw [hlines]
    rfl
  · rintro rfl
    obtain ⟨hlength, hlines⟩ := eq_map_range_iff.1 (rfl : (List.range 32).map (l.line p) = _)
    refine ⟨(List.range 32).map (l.line p), hlength, rfl, ?_⟩
    intro y hy
    exact ⟨(p.row y).map l.mark, hlines y hy, eq_map_range_iff.1 (l.map_mark_row p y)⟩

theorem cell?_mark (lit : Bool) : l.cell? (l.mark lit) = some lit := by
  cases lit with
  | true => exact if_pos rfl
  | false => exact (if_neg l.on_ne_off.symm).trans (if_pos rfl)

theorem filterMap_cell? {text : List Char} (hon : l.on ∉ text) (hoff : l.off ∉ text) :
    text.filterMap l.cell? = [] := by
  rw [List.filterMap_eq_nil_iff]
  intro c hc
  have hne : c ≠ l.on := by
    rintro rfl
    exact hon hc
  have hne' : c ≠ l.off := by
    rintro rfl
    exact hoff hc
  rw [cell?, if_neg hne, if_neg hne']

theorem filterMap_line (p : Picture) {y : Nat} (hy : y < Display.height) :
    (l.line p y).filterMap l.cell? = p.row y := by
  have hcells : ((p.row y).map l.mark).filterMap l.cell? = p.row y := by
    rw [List.filterMap_map]
    have hread : l.cell? ∘ l.mark = some := funext l.cell?_mark
    rw [hread, List.filterMap_some]
  rw [line, List.filterMap_append, List.filterMap_append, hcells,
    l.filterMap_cell? (l.on_apart.2.1 y hy) (l.off_apart.2.1 y hy),
    l.filterMap_cell? l.on_apart.2.2 l.off_apart.2.2, List.nil_append, List.append_nil]

theorem filterMap_frame (p : Picture) : (l.frame p).filterMap l.cell? = p.dots.toList := by
  rw [frame, List.filterMap_append, l.filterMap_cell? l.on_apart.1 l.off_apart.1, List.nil_append,
    List.filterMap_flatMap, ← p.flatMap_row]
  apply List.flatMap_congr
  intro y hy
  exact l.filterMap_line p (List.mem_range.1 hy)

theorem read_eq_some_iff : l.read bytes = some p ↔ l.Shows p bytes := by
  rw [shows_iff, read, Option.filter_eq_some_iff, decide_eq_true_eq]
  apply Iff.intro
  · rintro ⟨_, h⟩
    exact h.symm
  · rintro rfl
    rw [Utf8.decode_encode, filterMap_frame]
    exact ⟨p.ofDots?_toList, rfl⟩

end FrameLayout

open Display

theorem Picture.draw_unrendered (p : Picture) (strokes : List Stroke) :
    draw p (Stroke.unrendered strokes) = draw p strokes :=
  (Picture.drawingView.view_draw p strokes).symm

namespace GridPrinter

/-- A row is numbered with two digits and ends with a line break. -/
def layout : FrameLayout where
  lead := []
  front y := [Nat.digitChar (y / 10), Nat.digitChar (y % 10), ':']
  on := '*'
  off := '_'
  back := ['\n']
  on_ne_off := by decide
  on_apart := by decide
  off_apart := by decide

theorem frame_layout (p : Picture) : layout.frame p = frame p := by
  have hnumber : ∀ y < height,
      Numeral.padded 10 2 y = [Nat.digitChar (y / 10), Nat.digitChar (y % 10)] := by decide
  apply List.flatMap_congr
  intro y hy
  rw [line, hnumber y (List.mem_range.1 hy)]
  rfl

theorem picture_draw_start (w : Writer) (strokes : List Stroke) :
    (draw (start w) strokes).picture = draw Picture.blank strokes := by
  rw [drawingView.view_draw, start, Picture.draw_unrendered]

theorem exists_frame {g : GridPrinter} (h : (render g).1 = .ok ()) :
    ∃ bytes, (render g).2.writer.written.toList = g.writer.written.toList ++ bytes ∧
      layout.Shows g.picture bytes := by
  obtain ⟨bytes, hwritten, hall⟩ := g.writer.exists_written_write (frame g.picture)
  refine ⟨bytes, hwritten, ?_⟩
  rw [layout.shows_iff, frame_layout]
  exact hall h

end GridPrinter

namespace Terminal

/-- The cursor goes home before the first row, and to the next line behind each. -/
def layout : FrameLayout where
  lead := "\x1b[1;1H".toList
  front _ := []
  on := '█'
  off := ' '
  back := "\x1b[1E".toList
  on_ne_off := by decide
  on_apart := by decide
  off_apart := by decide

theorem frame_layout (p : Picture) : layout.frame p = frame p := rfl

theorem picture_of_start {w : Writer} {t : Terminal} (h : start w = .ok t) : t.picture = .blank := by
  unfold start at h
  split at h
  · cases h
    rfl
  · cases h

theorem picture_draw_of_start {w : Writer} {t : Terminal} (h : start w = .ok t)
    (strokes : List Stroke) : (draw t strokes).picture = draw Picture.blank strokes := by
  rw [drawingView.view_draw, picture_of_start h, Picture.draw_unrendered]

theorem exists_frame {t : Terminal} (hstale : t.stale = true) (h : (render t).1 = .ok ()) :
    ∃ bytes, (render t).2.writer.written.toList = t.writer.written.toList ++ bytes ∧
      layout.Shows t.picture bytes := by
  obtain ⟨bytes, hwritten, hall⟩ := t.writer.exists_written_write (frame t.picture)
  obtain ⟨hresult, hwriter⟩ := render_of_stale hstale
  refine ⟨bytes, ?_, ?_⟩
  · rw [hwriter]
    exact hwritten
  · rw [layout.shows_iff, frame_layout]
    exact hall (hresult.symm.trans h)

/-- Whether or not there was anything to write, all that was written since the writer was `w` ends
with a frame of the picture. -/
theorem ShownSince.exists_shows {w : Writer} {t : Terminal} (hshown : ShownSince w t)
    (h : (render t).1 = .ok ()) :
    ∃ before bytes,
      (render t).2.writer.written.toList = w.written.toList ++ before ++ bytes ∧
        layout.Shows t.picture bytes := by
  obtain ⟨out, hout, hfresh⟩ := hshown.apply .render
  obtain ⟨before, hbefore⟩ := hfresh (stale_render.2 h)
  refine ⟨before, Utf8.encode (frame t.picture), ?_, ?_⟩
  · rw [List.append_assoc, ← picture_render t]
    exact hout.trans (congrArg _ hbefore.symm)
  · rw [layout.shows_iff, frame_layout]

theorem exists_last_frame {w : Writer} {t : Terminal} (hshown : ShownSince w t)
    (h : (render t).1 = .ok ()) :
    ∃ before bytes, (render t).2.writer.written.toList = before ++ bytes ∧
      (t.stale = true → before = t.writer.written.toList) ∧ layout.Shows t.picture bytes := by
  cases hstale : t.stale with
  | true =>
    obtain ⟨bytes, hwritten, hshows⟩ := exists_frame hstale h
    exact ⟨_, bytes, hwritten, fun _ => rfl, hshows⟩
  | false =>
    obtain ⟨before, bytes, hwritten, hshows⟩ := hshown.exists_shows h
    exact ⟨_, bytes, hwritten, nofun, hshows⟩

end Terminal

/-- The same strokes lead to one picture on a grid, on a terminal and in memory. Each frame that is
printed shows this picture, row by row and cell by cell, and reads back as it; so two pictures never
have the same frame. A terminal that was up to date prints nothing, and the last frame that it
printed shows the picture. A writer without a limit refuses no frame. -/
theorem frames_decodable {w w' : Writer} {opened : Terminal}
    (hstart : Terminal.start w' = .ok opened) (strokes : List Stroke) {p : Picture}
    {g : GridPrinter} {t : Terminal} (hp : p = draw Picture.blank strokes)
    (hg : g = draw (GridPrinter.start w) strokes) (ht : t = draw opened strokes) :
    (∀ x y, pixel g x y = p.pixel x y ∧ pixel t x y = p.pixel x y) ∧
      ((render g).1 = .ok () →
        ∃ bytes, (render g).2.writer.written.toList = g.writer.written.toList ++ bytes ∧
          GridPrinter.layout.Shows p bytes ∧ GridPrinter.layout.read bytes = some p) ∧
      ((render t).1 = .ok () →
        ∃ before bytes, (render t).2.writer.written.toList = before ++ bytes ∧
          (t.stale = true → before = t.writer.written.toList) ∧
          Terminal.layout.Shows p bytes ∧ Terminal.layout.read bytes = some p) ∧
      (w.room = none → (render g).1 = .ok ()) ∧ (w'.room = none → (render t).1 = .ok ()) ∧
      ∀ layout ∈ [GridPrinter.layout, Terminal.layout], ∀ q bytes,
        (layout.read bytes = some q ↔ layout.Shows q bytes) ∧
        ∀ q', layout.Shows q bytes → layout.Shows q' bytes → q = q' := by
  have hpg : g.picture = p := by
    rw [hp, hg]
    exact GridPrinter.picture_draw_start w strokes
  have hpt : t.picture = p := by
    rw [hp, ht]
    exact Terminal.picture_draw_of_start hstart strokes
  refine ⟨?_, ?_, ?_, ?_, ?_, ?_⟩
  · intro x y
    exact ⟨congrArg (Picture.pixel · x y) hpg, congrArg (Picture.pixel · x y) hpt⟩
  · intro hok
    obtain ⟨bytes, hwritten, hshows⟩ := GridPrinter.exists_frame hok
    rw [hpg] at hshows
    exact ⟨bytes, hwritten, hshows, (FrameLayout.read_eq_some_iff _).2 hshows⟩
  · intro hok
    have hshown : Terminal.ShownSince w' t := by
      rw [ht]
      exact (Terminal.ShownSince.start hstart).1.draw strokes
    obtain ⟨before, bytes, hwritten, hbefore, hshows⟩ := Terminal.exists_last_frame hshown hok
    rw [hpt] at hshows
    exact ⟨before, bytes, hwritten, hbefore, hshows, (FrameLayout.read_eq_some_iff _).2 hshows⟩
  · intro hroom
    rw [hg]
    exact (GridPrinter.neverFails (g := .start w) hroom strokes).2
  · intro hroom
    obtain ⟨t', hstart', _, hroom'⟩ := Terminal.start_of_room hroom
    cases hstart.symm.trans hstart'
    rw [ht]
    exact (Terminal.room_render (Terminal.room_draw hroom' strokes)).1
  · intro layout _ q bytes
    refine ⟨layout.read_eq_some_iff, ?_⟩
    intro q' h h'
    have hread := layout.read_eq_some_iff.2 h
    rw [layout.read_eq_some_iff.2 h'] at hread
    exact (Option.some.inj hread).symm

/-- After a clear, one pixel past the right and the lower edge; then a frame. -/
def wrapping : List Stroke := [.setPixel 1 3 true, .clear, .setPixel 67 33 true, .render]

/-- The pixel is in the second row, and both displays show it there. The terminal is up to date. -/
theorem frames_decodable_wrapping :
    ∃ opened, Terminal.start .unlimited = .ok opened ∧
      (draw Picture.blank wrapping).pixel 3 1 = true ∧
      (draw Picture.blank wrapping).pixel 1 3 = false ∧
      (draw opened wrapping).stale = false ∧
      (∃ bytes,
        (render (draw (GridPrinter.start .unlimited) wrapping)).2.writer.written.toList =
            (draw (GridPrinter.start .unlimited) wrapping).writer.written.toList ++ bytes ∧
          GridPrinter.layout.read bytes = some (draw Picture.blank wrapping)) ∧
      ∃ before bytes,
        (render (draw opened wrapping)).2.writer.written.toList = before ++ bytes ∧
          Terminal.layout.read bytes = some (draw Picture.blank wrapping) := by
  obtain ⟨opened, hstart, _, hroom⟩ := Terminal.start_of_room (w := .unlimited) rfl
  obtain ⟨_, hgrid, hterminal, hgridOk, hterminalOk, _⟩ :=
    frames_decodable (w := .unlimited) hstart wrapping rfl rfl rfl
  obtain ⟨bytes, hwritten, _, hread⟩ := hgrid (hgridOk rfl)
  obtain ⟨before, bytes', hwritten', _, _, hread'⟩ := hterminal (hterminalOk rfl)
  refine ⟨opened, hstart, ?_, ?_, ?_, ⟨bytes, hwritten, hread⟩, before, bytes', hwritten', hread'⟩
  · exact (Picture.pixel_setPixel .blank 67 33 3 1 true).trans (by decide +kernel)
  · exact (Picture.pixel_setPixel .blank 67 33 1 3 true).trans (by decide +kernel)
  · have hdrawn := Terminal.room_draw hroom [.setPixel 1 3 true, .clear, .setPixel 67 33 true]
    exact Terminal.stale_render.2 (Terminal.room_render hdrawn).1

end ChipEight
