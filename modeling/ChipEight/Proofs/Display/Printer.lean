import ChipEight.Proofs.Display.Unfailing

namespace ChipEight

theorem Utf8.encode_append (first second : List Char) :
    encode (first ++ second) = encode first ++ encode second :=
  List.flatMap_append

namespace Writer

/-- The writer as it would be with room for `n` bytes, those that are written included. -/
def capped (n : Nat) (w : Writer) : Writer :=
  ⟨(w.written.toList.take n).toArray, some (n - w.written.size)⟩

def writeEach (w : Writer) : List (List Char) → Except IoError Unit × Writer
  | [] => (.ok (), w)
  | piece :: rest =>
    match w.write piece with
    | (.ok (), w) => w.writeEach rest
    | (.error error, w) => (.error error, w)

@[simp] theorem write_nil (w : Writer) : w.write [] = (.ok (), w) := by
  obtain ⟨written, room⟩ := w
  cases room <;> simp [write, Utf8.encode]

theorem write_append (w : Writer) (first second : List Char) :
    w.write (first ++ second) =
      match w.write first with
      | (.ok (), w) => w.write second
      | (.error error, w) => (.error error, w) := by
  obtain ⟨written, room⟩ := w
  cases room with
  | none => simp [write, Utf8.encode_append, ← Array.toList_inj]
  | some room =>
    by_cases hfits : (Utf8.encode first).length ≤ room
    · have hiff : (Utf8.encode first).length + (Utf8.encode second).length ≤ room ↔
          (Utf8.encode second).length ≤ room - (Utf8.encode first).length := by omega
      simp [write, Utf8.encode_append, hfits, List.take_append, List.take_of_length_le, hiff,
        Nat.sub_sub, ← Array.toList_inj]
    · have hover : ¬ (Utf8.encode first).length + (Utf8.encode second).length ≤ room := by omega
      have hnone : room - (Utf8.encode first).length = 0 := by omega
      have hleft : room - ((Utf8.encode first).length + (Utf8.encode second).length) = 0 := by
        omega
      simp [write, Utf8.encode_append, hfits, hover, hnone, hleft, List.take_append]

theorem snd_write_append (w : Writer) (first second : List Char) :
    (w.write (first ++ second)).2 = ((w.write first).2.write second).2 := by
  obtain ⟨written, room⟩ := w
  cases room with
  | none => simp [write, Utf8.encode_append, ← Array.toList_inj]
  | some room =>
    simp [write, Utf8.encode_append, List.take_append, Nat.sub_sub, ← Array.toList_inj]

/-- It makes no difference in how many pieces a text is written. -/
theorem writeEach_eq (w : Writer) (pieces : List (List Char)) :
    w.writeEach pieces = w.write pieces.flatten := by
  induction pieces generalizing w with
  | nil => exact (write_nil w).symm
  | cons piece pieces ih =>
    rw [writeEach, List.flatten_cons, write_append]
    rcases w.write piece with ⟨_ | _, left⟩
    · rfl
    · exact ih left

section Unlimited

variable {w : Writer} (h : w.room = none)

include h

theorem write_of_room_eq_none (text : List Char) :
    w.write text = (.ok (), ⟨(w.written.toList ++ Utf8.encode text).toArray, none⟩) := by
  simp [write, h, ← Array.toList_inj]

theorem toList_written_write (text : List Char) :
    (w.write text).2.written.toList = w.written.toList ++ Utf8.encode text := by
  rw [write_of_room_eq_none h]

theorem capped_write {n : Nat} (hfull : n ≤ w.written.size) (text : List Char) :
    (w.write text).2.capped n = w.capped n := by
  have hnone : n - w.written.size = 0 := Nat.sub_eq_zero_of_le hfull
  have hleft : n - (w.written.size + (Utf8.encode text).length) = 0 := by omega
  simp [write_of_room_eq_none h, capped, List.take_append, hnone, hleft]

omit h in
theorem write_capped_of_full {n : Nat} (hfull : n ≤ w.written.size) (text : List Char) :
    ((w.capped n).write text).2 = w.capped n := by
  simp [write, capped, Nat.sub_eq_zero_of_le hfull]

/-- With room for `n` bytes, a writer accepts the first `n` bytes of what it would accept. -/
theorem snd_write_capped (n : Nat) (text : List Char) :
    ((w.capped n).write text).2 = (w.write text).2.capped n := by
  rw [write_of_room_eq_none h]
  simp [write, capped, List.take_append, Nat.sub_sub]

theorem fst_write_capped {n : Nat} (hle : w.written.size ≤ n) (text : List Char) :
    ((w.capped n).write text).1 =
      if (w.write text).2.written.size ≤ n then .ok () else .error gone := by
  have hiff : (Utf8.encode text).length ≤ n - w.written.size ↔
      w.written.size + (Utf8.encode text).length ≤ n := by omega
  rw [write_of_room_eq_none h]
  simp [write, capped, hiff]

end Unlimited

end Writer

class HasWriter (σ : Type) where
  writer : σ → Writer
  onto : σ → Writer → σ
  writer_onto (s : σ) (w : Writer) : writer (onto s w) = w
  onto_writer (s : σ) : onto s (writer s) = s
  onto_onto (s : σ) (w w' : Writer) : onto (onto s w) w' = onto s w'

namespace HasWriter

variable {σ τ α β : Type} [HasWriter σ] [HasWriter τ]

def written (s : σ) : List UInt8 := (writer s).written.toList

def capped (n : Nat) (s : σ) : σ := onto s ((writer s).capped n)

def Unlimited (s : σ) : Prop := (writer s).room = none

def Grows (s : σ) (t : τ) : Prop := ∃ text, writer t = ((writer s).write text).2

theorem writer_capped (n : Nat) (s : σ) : writer (capped n s) = (writer s).capped n :=
  writer_onto s _

theorem written_of_writer {s : σ} {t : τ} {n : Nat} (h : writer t = (writer s).capped n) :
    written t = (written s).take n := by
  rw [written, h]
  rfl

theorem onto_capped (s : σ) (w : Writer) (n : Nat) :
    onto s (w.capped n) = capped n (onto s w) := by
  rw [capped, onto_onto, writer_onto]

theorem Grows.of_eq {s : σ} {t : τ} (h : writer t = writer s) : Grows s t :=
  ⟨[], by rw [h, Writer.write_nil]⟩

theorem Grows.trans {υ : Type} [HasWriter υ] {s : σ} {t : τ} {u : υ} (h : Grows s t)
    (h' : Grows t u) : Grows s u := by
  obtain ⟨first, hfirst⟩ := h
  obtain ⟨second, hsecond⟩ := h'
  exact ⟨first ++ second, by rw [hsecond, hfirst, Writer.snd_write_append]⟩

namespace Unlimited

variable {s : σ} {t : τ}

theorem grows (h : Unlimited s) (hg : Grows s t) : Unlimited t := by
  obtain ⟨text, hw⟩ := hg
  rw [Unlimited, hw]
  exact (Writer.write_of_room h text).2

theorem exists_written (h : Unlimited s) (hg : Grows s t) :
    ∃ more, written t = written s ++ more := by
  obtain ⟨text, hw⟩ := hg
  refine ⟨Utf8.encode text, ?_⟩
  rw [written, hw]
  exact Writer.toList_written_write h text

theorem length_le (h : Unlimited s) (hg : Grows s t) :
    (written s).length ≤ (written t).length := by
  obtain ⟨more, hmore⟩ := h.exists_written hg
  rw [hmore, List.length_append]
  exact Nat.le_add_right _ _

theorem capped_writer (h : Unlimited s) (hg : Grows s t) {n : Nat} (hn : n < (written s).length) :
    (writer t).capped n = (writer s).capped n := by
  obtain ⟨text, hw⟩ := hg
  rw [hw]
  exact Writer.capped_write h (Nat.le_of_lt hn) text

end Unlimited

theorem Grows.writer_eq {s : σ} {t : τ} (hg : Grows s t) {w : Writer} {n : Nat}
    (hs : writer s = w.capped n) (hn : n < w.written.size) : writer t = writer s := by
  obtain ⟨text, hw⟩ := hg
  rw [hw, hs]
  exact Writer.write_capped_of_full (Nat.le_of_lt hn) text

/-- The result `r'` is what comes of `r` with room for `n` bytes. As long as no more are written, it
is the same; otherwise it fails. Either way the first `n` bytes are accepted. -/
structure Cut (n : Nat) (Fails : α → Prop) (r r' : α × σ) : Prop where
  same (h : (written r.2).length ≤ n) : r' = r.map id (capped n)
  fails (h : n < (written r.2).length) : Fails r'.1
  accepted : writer r'.2 = (writer r.2).capped n

namespace Cut

variable {n : Nat} {Fails : α → Prop} {Fails' : β → Prop} {r r' : α × σ}

theorem of_same (hle : (written r.2).length ≤ n) (h : r' = r.map id (capped n)) :
    Cut n Fails r r' where
  same _ := h
  fails hlt := absurd hle (Nat.not_le.2 hlt)
  accepted := by
    rw [h]
    exact writer_capped n r.2

theorem mono {Fails' : α → Prop} (h : Cut n Fails r r') (himp : ∀ a, Fails a → Fails' a) :
    Cut n Fails' r r' :=
  ⟨h.same, fun hlt => himp _ (h.fails hlt), h.accepted⟩

theorem bind {k : α × σ → β × τ} (h : Cut n Fails r r') (hr : Unlimited r.2)
    (hk : ∀ r, Grows r.2 (k r).2)
    (hon : (written r.2).length ≤ n → Cut n Fails' (k r) (k (r.map id (capped n))))
    (hoff : n < (written r.2).length → ∀ a s, Fails a → Fails' (k (a, s)).1) :
    Cut n Fails' (k r) (k r') := by
  by_cases hle : (written r.2).length ≤ n
  · rw [h.same hle]
    exact hon hle
  · -- The writer is full, and nothing that follows adds to it.
    have hlt : n < (written r.2).length := Nat.not_le.1 hle
    refine ⟨fun hsmall => ?_, fun _ => hoff hlt _ _ (h.fails hlt), ?_⟩
    · exact absurd (Nat.le_trans (hr.length_le (hk r)) hsmall) hle
    · rw [(hk r').writer_eq h.accepted hlt, h.accepted, hr.capped_writer (hk r) hlt]

theorem map (h : Cut n Fails r r') {f : α → β} {g : σ → τ}
    (hwriter : ∀ s, writer (g s) = writer s) (hcapped : ∀ s, g (capped n s) = capped n (g s))
    (hfails : n < (written r.2).length → ∀ a, Fails a → Fails' (f a)) :
    Cut n Fails' (r.map f g) (r'.map f g) where
  same hle := by
    have hle' : (written r.2).length ≤ n := by
      rwa [Prod.map_snd, written, hwriter] at hle
    rw [h.same hle']
    exact Prod.ext rfl (hcapped r.2)
  fails hlt := by
    rw [Prod.map_snd, written, hwriter] at hlt
    exact hfails hlt _ (h.fails hlt)
  accepted := by
    rw [Prod.map_snd, Prod.map_snd, hwriter, hwriter]
    exact h.accepted

end Cut

instance : HasWriter Writer := ⟨id, fun _ w => w, fun _ _ => rfl, fun _ => rfl, fun _ _ _ => rfl⟩

theorem cut_write {w : Writer} (hw : w.room = none) {n : Nat} (hle : w.written.size ≤ n)
    (text : List Char) :
    Cut n (· = .error Writer.gone) (w.write text) ((w.capped n).write text) where
  same h := by
    refine Prod.ext ?_ (Writer.snd_write_capped hw n text)
    rw [Writer.fst_write_capped hw hle, Prod.map_fst, (Writer.write_of_room hw text).1]
    exact if_pos h
  fails h := by
    rw [Writer.fst_write_capped hw hle]
    exact if_neg (Nat.not_le.2 h)
  accepted := Writer.snd_write_capped hw n text

def settle (done undone : σ) : Except IoError Unit × Writer → Except IoError Unit × σ
  | (.ok (), w) => (.ok (), onto done w)
  | (.error error, w) => (.error error, onto undone w)

theorem settle_self (s : σ) (result : Except IoError Unit × Writer) :
    settle s s result = result.map id (onto s) := by
  rcases result with ⟨_ | _, w⟩ <;> rfl

theorem writer_settle (done undone : σ) (result : Except IoError Unit × Writer) :
    writer (settle done undone result).2 = result.2 := by
  rcases result with ⟨_ | _, w⟩
  · exact writer_onto undone w
  · exact writer_onto done w

/-- All that an operation does with the writer is to write one text. -/
def Prints (operation : σ → Except IoError Unit × σ) : Prop :=
  ∀ s, ∃ text done undone, ∀ w, operation (onto s w) = settle done undone (w.write text)

namespace Prints

variable {operation : σ → Except IoError Unit × σ}

theorem exists_eq (h : Prints operation) (s : σ) : ∃ text done undone,
    operation s = settle done undone ((writer s).write text) ∧
      ∀ n, operation (capped n s) = settle done undone (((writer s).capped n).write text) := by
  obtain ⟨text, done, undone, hprints⟩ := h s
  refine ⟨text, done, undone, ?_, fun n => hprints _⟩
  have hs := hprints (writer s)
  rwa [onto_writer] at hs

theorem grows (h : Prints operation) (s : σ) : Grows s (operation s).2 := by
  obtain ⟨text, done, undone, hs, _⟩ := h.exists_eq s
  refine ⟨text, ?_⟩
  rw [hs, writer_settle]

theorem cut (h : Prints operation) {s : σ} (hs : Unlimited s) {n : Nat}
    (hle : (written s).length ≤ n) :
    Cut n (· = .error Writer.gone) (operation s) (operation (capped n s)) := by
  obtain ⟨text, done, undone, hs', hcapped⟩ := h.exists_eq s
  rw [hs', hcapped]
  refine (cut_write hs hle text).bind (Writer.write_of_room hs text).2
    (fun _ => .of_eq (writer_settle _ _ _)) (fun hfits => .of_same ?_ ?_) ?_
  · rwa [written, writer_settle]
  · rcases (writer s).write text with ⟨_ | _, w⟩
    · exact Prod.ext rfl (onto_capped undone w n)
    · exact Prod.ext rfl (onto_capped done w n)
  · rintro _ _ w rfl
    rfl

end Prints

end HasWriter

/-- A display whose picture does not depend on its writer. -/
class Printer (δ : Type) [Display δ] extends HasWriter δ where
  pixel_onto (d : δ) (w : Writer) : Display.pixel (onto d w) = Display.pixel d
  setPixel_onto (d : δ) (w : Writer) (x y : Nat) (on : Bool) :
    Display.setPixel (onto d w) x y on = (Display.setPixel d x y on).map id (onto · w)
  prints_clear : HasWriter.Prints (Display.clear (δ := δ))
  prints_render : HasWriter.Prints (Display.render (δ := δ))
  close_onto (d : δ) : ∃ text, ∀ w, Display.close (onto d w) = onto d (w.write text).2

namespace Printer

open HasWriter

variable {δ : Type} [Display δ] [Printer δ] {d : δ}

theorem setPixel_capped (d : δ) (n x y : Nat) (on : Bool) :
    Display.setPixel (capped n d) x y on = (Display.setPixel d x y on).map id (capped n) ∧
      writer (Display.setPixel d x y on).2 = writer d := by
  have hwriter : writer (Display.setPixel d x y on).2 = writer d := by
    have hd := setPixel_onto d (writer d) x y on
    rw [onto_writer] at hd
    rw [hd]
    exact writer_onto _ _
  refine ⟨?_, hwriter⟩
  rw [capped, setPixel_onto]
  refine Prod.ext rfl ?_
  rw [Prod.map_snd, Prod.map_snd, capped, hwriter]

theorem drawDots_capped (d : δ) (n : Nat) (dots : List Dot) :
    Display.drawDots (capped n d) dots = (Display.drawDots d dots).map id (capped n) ∧
      writer (Display.drawDots d dots).2 = writer d := by
  induction dots generalizing d with
  | nil => exact ⟨rfl, rfl⟩
  | cons dot dots ih =>
    obtain ⟨hdot, hwriter⟩ := setPixel_capped d n dot.x dot.y dot.on
    obtain ⟨hdots, hrest⟩ := ih (Display.setPixel d dot.x dot.y dot.on).2
    refine ⟨?_, hrest.trans hwriter⟩
    simp only [Display.drawDots, hdot, Prod.map, hdots]
    rfl

theorem cut_setPixel {n : Nat} (hle : (written d).length ≤ n) (x y : Nat) (on : Bool) :
    Cut n (fun _ => False) (Display.setPixel d x y on) (Display.setPixel (capped n d) x y on) := by
  obtain ⟨hsame, hwriter⟩ := setPixel_capped d n x y on
  refine .of_same ?_ hsame
  rwa [written, hwriter]

theorem cut_drawDots {n : Nat} (hle : (written d).length ≤ n) (dots : List Dot) :
    Cut n (fun _ => False) (Display.drawDots d dots) (Display.drawDots (capped n d) dots) := by
  obtain ⟨hsame, hwriter⟩ := drawDots_capped d n dots
  refine .of_same ?_ hsame
  rwa [written, hwriter]

theorem grows_apply (d : δ) (s : Stroke) : Grows d (Display.apply d s) := by
  cases s with
  | clear => exact prints_clear.grows d
  | setPixel x y on => exact .of_eq (setPixel_capped d 0 x y on).2
  | render => exact prints_render.grows d

theorem grows_draw (d : δ) (strokes : List Stroke) : Grows d (Display.draw d strokes) := by
  induction strokes generalizing d with
  | nil => exact .of_eq rfl
  | cons s strokes ih => exact (grows_apply d s).trans (ih _)

theorem grows_close (d : δ) : Grows d (Display.close d) := by
  obtain ⟨text, hclose⟩ := close_onto d
  have hd := hclose (writer d)
  rw [onto_writer] at hd
  exact ⟨text, by rw [hd, writer_onto]⟩

theorem close_capped (hd : Unlimited d) (n : Nat) :
    Display.close (capped n d) = capped n (Display.close d) := by
  obtain ⟨text, hclose⟩ := close_onto d
  have hd' := hclose (writer d)
  rw [onto_writer] at hd'
  rw [hd', capped, hclose, ← onto_capped]
  exact congrArg (onto d) (Writer.snd_write_capped hd n text)

theorem cut_close (hd : Unlimited d) (n : Nat) :
    Cut n (fun _ : Unit => True) ((), Display.close d) ((), Display.close (capped n d)) where
  same _ := congrArg (Prod.mk ()) (close_capped hd n)
  fails _ := trivial
  accepted := by
    rw [close_capped hd]
    exact writer_capped n _

end Printer

instance : HasWriter GridPrinter where
  writer := GridPrinter.writer
  onto g writer := { g with writer }
  writer_onto _ _ := rfl
  onto_writer _ := rfl
  onto_onto _ _ _ := rfl

instance : HasWriter Terminal where
  writer := Terminal.writer
  onto t writer := { t with writer }
  writer_onto _ _ := rfl
  onto_writer _ := rfl
  onto_onto _ _ _ := rfl

open HasWriter (Prints settle_self)

theorem GridPrinter.prints_clear : Prints (Display.clear (δ := GridPrinter)) := by
  refine fun g => ⟨[], { g with picture := .blank }, g, fun w => ?_⟩
  rw [Writer.write_nil]
  rfl

theorem GridPrinter.prints_render : Prints render := by
  refine fun g => ⟨frame g.picture, g, g, fun w => ?_⟩
  rw [settle_self]
  rfl

theorem Terminal.prints_clear : Prints clear := by
  intro t
  refine ⟨clearScreen, { t with picture := .blank, stale := true },
    { t with picture := .blank, stale := true }, fun w => ?_⟩
  rw [settle_self]
  rfl

theorem Terminal.prints_render : Prints render := by
  intro t
  cases hstale : t.stale with
  | false =>
    refine ⟨[], t, t, fun w => ?_⟩
    rw [Writer.write_nil]
    exact if_neg (by simp [HasWriter.onto, hstale])
  | true =>
    refine ⟨frame t.picture, { t with stale := false }, t, fun w => ?_⟩
    refine (if_pos hstale).trans ?_
    rcases w.write (frame t.picture) with ⟨_ | _, left⟩ <;> rfl

instance : Printer GridPrinter where
  pixel_onto _ _ := rfl
  setPixel_onto _ _ _ _ _ := rfl
  prints_clear := GridPrinter.prints_clear
  prints_render := GridPrinter.prints_render
  close_onto g := ⟨[], fun w => by rw [Writer.write_nil]; rfl⟩

instance : Printer Terminal where
  pixel_onto _ _ := rfl
  setPixel_onto _ _ _ _ _ := rfl
  prints_clear := Terminal.prints_clear
  prints_render := Terminal.prints_render
  close_onto _ := ⟨Terminal.showCursor, fun _ => rfl⟩

end ChipEight
