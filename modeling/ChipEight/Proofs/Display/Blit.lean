import ChipEight.Display.Picture

namespace ChipEight

theorem ite_eq_toNat (b : Bool) : (if b = true then 1 else 0) = b.toNat := by
  cases b <;> rfl

theorem decide_odd_add (n m : Nat) :
    decide ((n + m) % 2 = 1) = (decide (n % 2 = 1) ^^ decide (m % 2 = 1)) := by
  rcases Nat.mod_two_eq_zero_or_one n with hn | hn <;>
    rcases Nat.mod_two_eq_zero_or_one m with hm | hm <;> simp [Nat.add_mod, hn, hm]

namespace Dot

def flips (a b : Nat) (dot : Dot) : Bool :=
  dot.on && decide (Picture.place a b = Picture.place dot.x dot.y)

def meets (p : Picture) (dot : Dot) : Bool := dot.on && p.pixel dot.x dot.y

def Apart (dot dot' : Dot) : Prop := Picture.place dot.x dot.y ≠ Picture.place dot'.x dot'.y

end Dot

theorem Display.drawDots_append {δ : Type} [Display δ] (d : δ) (first second : List Dot) :
    drawDots d (first ++ second) =
      ((drawDots d first).1 || (drawDots (drawDots d first).2 second).1,
        (drawDots (drawDots d first).2 second).2) := by
  induction first generalizing d with
  | nil => simp [drawDots]
  | cons dot first ih => simp [drawDots, ih, Bool.or_assoc]

namespace Picture

open Display Dot

theorem ext_pixel {p q : Picture} (h : ∀ x y, p.pixel x y = q.pixel x y) : p = q := by
  obtain ⟨dots⟩ := p
  obtain ⟨dots'⟩ := q
  congr 1
  apply Vector.ext
  intro k hk
  have hplace : (place (k % width) (k / width)).val = k := by
    simp only [place, width, height] at hk ⊢
    omega
  have hpixel := h (k % width) (k / width)
  simpa only [pixel, Fin.getElem_fin, hplace] using hpixel

/-- A pixel is flipped once for each dot that falls on it. -/
theorem pixel_drawDots (p : Picture) (dots : List Dot) (a b : Nat) :
    (drawDots p dots).2.pixel a b =
      (p.pixel a b ^^ decide (dots.countP (flips a b) % 2 = 1)) := by
  -- The first dot changes the picture that the others are drawn on.
  induction dots generalizing p with
  | nil => exact (Bool.xor_false _).symm
  | cons dot dots ih =>
    have hone : decide ((if flips a b dot = true then 1 else 0) % 2 = 1) = flips a b dot := by
      cases flips a b dot <;> rfl
    have hfirst : (p.setPixel dot.x dot.y dot.on).2.pixel a b = (p.pixel a b ^^ flips a b dot) :=
      p.pixel_setPixel dot.x dot.y a b dot.on
    calc (drawDots p (dot :: dots)).2.pixel a b
        = ((p.setPixel dot.x dot.y dot.on).2.pixel a b ^^
            decide (dots.countP (flips a b) % 2 = 1)) := ih _
      _ = (p.pixel a b ^^ decide ((dot :: dots).countP (flips a b) % 2 = 1)) := by
        rw [hfirst, List.countP_cons, decide_odd_add, hone, Bool.xor_assoc,
          Bool.xor_comm (flips a b dot)]

theorem drawDots_twice (p : Picture) (dots : List Dot) :
    (drawDots (drawDots p dots).2 dots).2 = p := by
  apply ext_pixel
  intro a b
  rw [pixel_drawDots, pixel_drawDots, Bool.xor_assoc, Bool.xor_self, Bool.xor_false]

theorem drawDots_comm (p : Picture) (first second : List Dot) :
    (drawDots (drawDots p first).2 second).2 = (drawDots (drawDots p second).2 first).2 := by
  apply ext_pixel
  intro a b
  simp only [pixel_drawDots, Bool.xor_assoc]
  rw [Bool.xor_comm (decide _)]

theorem drawDots_filter_on (p : Picture) (dots : List Dot) :
    drawDots p (dots.filter (·.on)) = drawDots p dots := by
  induction dots generalizing p with
  | nil => rfl
  | cons dot dots ih =>
    cases hon : dot.on with
    | false =>
      have hoff : Display.setPixel p dot.x dot.y false = (false, p) :=
        Prod.ext rfl (p.setPixel_false dot.x dot.y)
      rw [List.filter_cons_of_neg (by simp [hon]), ih]
      simp only [drawDots, hon, hoff, Bool.false_or]
    | true =>
      rw [List.filter_cons_of_pos hon]
      simp only [drawDots, ih]

/-- A hit is reported exactly if some dot meets a pixel that is lit when its turn comes. -/
theorem fst_drawDots_iff {p : Picture} {dots : List Dot} :
    (drawDots p dots).1 = true ↔
      ∃ before dot after, dots = before ++ dot :: after ∧
        meets (drawDots p before).2 dot = true := by
  constructor
  · induction dots generalizing p with
    | nil => exact nofun
    | cons dot dots ih =>
      intro h
      rcases Bool.or_eq_true_iff.1 h with hfirst | hlater
      · exact ⟨[], dot, dots, rfl, hfirst⟩
      · obtain ⟨before, later, after, rfl, hmeets⟩ := ih hlater
        exact ⟨dot :: before, later, after, rfl, hmeets⟩
  · rintro ⟨before, dot, after, rfl, hmeets⟩
    have hfirst : (drawDots (drawDots p before).2 (dot :: after)).1 = true :=
      Bool.or_eq_true_iff.2 (.inl hmeets)
    rw [drawDots_append, hfirst, Bool.or_true]

section Apart

variable {dots : List Dot}

theorem meets_setPixel {p : Picture} {dot dot' : Dot} (h : Apart dot dot') :
    meets (p.setPixel dot.x dot.y dot.on).2 dot' = meets p dot' := by
  have hne : place dot'.x dot'.y ≠ place dot.x dot.y := Ne.symm h
  simp only [meets, pixel_setPixel, hne, decide_false, Bool.and_false, Bool.xor_false]

theorem fst_drawDots_of_apart (p : Picture) (h : dots.Pairwise Apart) :
    (drawDots p dots).1 = dots.any (meets p) := by
  induction h generalizing p with
  | nil => rfl
  | @cons dot dots hdot hdots ih =>
    have hrest : dots.any (meets (p.setPixel dot.x dot.y dot.on).2) = dots.any (meets p) := by
      rw [Bool.eq_iff_iff, List.any_eq_true, List.any_eq_true]
      constructor
      · rintro ⟨dot', hmem, hmeets⟩
        exact ⟨dot', hmem, meets_setPixel (hdot dot' hmem) ▸ hmeets⟩
      · rintro ⟨dot', hmem, hmeets⟩
        exact ⟨dot', hmem, (meets_setPixel (hdot dot' hmem)).trans hmeets⟩
    calc (drawDots p (dot :: dots)).1
        = (meets p dot || (drawDots (p.setPixel dot.x dot.y dot.on).2 dots).1) := rfl
      _ = (dot :: dots).any (meets p) := by rw [ih, hrest, List.any_cons]

theorem lit_setPixel (p : Picture) (x y : Nat) (on : Bool) :
    (p.setPixel x y on).2.lit + 2 * (on && p.pixel x y).toNat = p.lit + on.toNat := by
  have hlt : (place x y).val < p.dots.toList.length := by
    rw [Vector.length_toList]
    exact (place x y).isLt
  have hget : p.dots.toList[(place x y).val] = p.pixel x y := by simp [pixel]
  have hcount : (p.setPixel x y on).2.lit =
      p.lit - (p.pixel x y).toNat + (p.pixel x y ^^ on).toNat := by
    simp only [lit, setPixel, Vector.toList_set, List.count_set hlt, hget, beq_true, ite_eq_toNat]
  have hpos : (p.pixel x y).toNat ≤ p.lit := by
    cases hp : p.pixel x y with
    | false => exact Nat.zero_le _
    | true =>
      rw [← hget] at hp
      exact List.count_pos_iff.2 (hp ▸ List.getElem_mem hlt)
  -- On a lit pixel the subtraction is not cut off at zero.
  cases on <;> cases hp : p.pixel x y <;> simp [hp] at hcount hpos ⊢ <;> omega

/-- Dots that are apart light a pixel each, or switch one off that was lit before. -/
theorem lit_drawDots_of_apart (p : Picture) (h : dots.Pairwise Apart) :
    (drawDots p dots).2.lit + 2 * dots.countP (meets p) = p.lit + dots.countP (·.on) := by
  induction h generalizing p with
  | nil => rfl
  | @cons dot dots hdot hdots ih =>
    have hrest : dots.countP (meets (p.setPixel dot.x dot.y dot.on).2) =
        dots.countP (meets p) :=
      List.countP_congr fun dot' hmem => by rw [meets_setPixel (hdot dot' hmem)]
    have hfirst := p.lit_setPixel dot.x dot.y dot.on
    have hlater : (drawDots p (dot :: dots)).2.lit +
        2 * dots.countP (meets (p.setPixel dot.x dot.y dot.on).2) =
          (p.setPixel dot.x dot.y dot.on).2.lit + dots.countP (·.on) := ih _
    rw [List.countP_cons, List.countP_cons, ite_eq_toNat, ite_eq_toNat, meets]
    omega

end Apart

end Picture

namespace Sprite

open Display

/-- The places of a sprite, each as its row and its place in the row, in the order in which they are
drawn. -/
def places (rows : List UInt8) : List (Nat × Nat) :=
  (List.range rows.length).flatMap fun row => (List.range 8).map fun bit => (row, bit)

/-- Whether the sprite has a dot at the place: the bit `7 - bit` of the row is set. -/
def isSet (rows : List UInt8) (place : Nat × Nat) : Bool :=
  rows[place.1]?.any fun byte => byte.toNat.testBit (7 - place.2)

def marks (rows : List UInt8) : List (Nat × Nat) := (places rows).filter (isSet rows)

theorem mem_places {rows : List UInt8} {row bit : Nat} :
    (row, bit) ∈ places rows ↔ row < rows.length ∧ bit < 8 := by
  simp [places]

theorem pairwise_places (rows : List UInt8) : (places rows).Pairwise (· ≠ ·) := by
  rw [places, List.pairwise_flatMap]
  constructor
  · intro row _
    rw [List.pairwise_map]
    exact List.nodup_range.imp fun hne heq => hne (Prod.mk.inj heq).2
  · apply List.nodup_range.imp
    intro row row' hne place hplace place' hplace' heq
    simp only [List.mem_map] at hplace hplace'
    obtain ⟨bit, _, rfl⟩ := hplace
    obtain ⟨bit', _, rfl⟩ := hplace'
    exact hne (Prod.mk.inj heq).1

def dotAt (x y : Nat) (on : Bool) (place : Nat × Nat) : Dot :=
  ⟨(x + place.2) % width, (y + place.1) % height, on⟩

theorem filter_on_dots (x y : Nat) (rows : List UInt8) :
    (dots x y rows).filter (·.on) = (marks rows).map (dotAt x y true) := by
  have hrows : rows.mapIdx (fun k row => rowDots x (y + k) row) =
      (List.range rows.length).map fun row =>
        ((List.range 8).map fun bit => (row, bit)).map fun place =>
          dotAt x y (isSet rows place) place := by
    apply List.ext_getElem
    · simp
    · intro k hk _
      have hlt : k < rows.length := by simpa using hk
      apply List.ext_getElem
      · simp [rowDots, bits]
      · intro bit _ _
        simp [rowDots, bits, dotAt, isSet, hlt]
  have hdots : dots x y rows = (places rows).map fun place =>
      dotAt x y (isSet rows place) place := by
    rw [dots, hrows, places, List.map_flatMap, List.flatMap_def]
  rw [hdots, List.filter_map, marks]
  apply List.map_congr_left
  intro place hmem
  have hset : isSet rows place = true := (List.mem_filter.1 hmem).2
  rw [hset, dotAt]

theorem drawSprite_eq (p : Picture) (x y : Nat) (rows : List UInt8) :
    drawSprite p x y rows = drawDots p ((marks rows).map (dotAt x y true)) := by
  rw [drawSprite, ← Picture.drawDots_filter_on, filter_on_dots]

/-- Whether a mark of a sprite drawn at `(x, y)` falls on the pixel at `(px, py)`. -/
def fallsOn (x y px py : Nat) (mark : Nat × Nat) : Bool :=
  (x + mark.2) % width = px % width ∧ (y + mark.1) % height = py % height

theorem flips_dotAt (x y px py : Nat) (mark : Nat × Nat) :
    (dotAt x y true mark).flips px py = fallsOn x y px py mark := by
  simp only [Dot.flips, dotAt, fallsOn, Picture.place_eq_iff, Bool.true_and, Nat.mod_mod]
  apply decide_eq_decide.2
  constructor <;> rintro ⟨hx, hy⟩ <;> exact ⟨hx.symm, hy.symm⟩

theorem meets_dotAt (p : Picture) (x y : Nat) (mark : Nat × Nat) :
    (dotAt x y true mark).meets p = p.pixel (x + mark.2) (y + mark.1) := by
  have hplace : Picture.place ((x + mark.2) % width) ((y + mark.1) % height) =
      Picture.place (x + mark.2) (y + mark.1) :=
    Picture.place_eq_iff.2 ⟨Nat.mod_mod _ _, Nat.mod_mod _ _⟩
  simp only [Dot.meets, dotAt, Picture.pixel, hplace, Bool.true_and]

/-- Whether the pixel at `(px, py)` is lit once some marks of a sprite at `(x, y)` are drawn: each
that falls on it has flipped it. -/
def litAfter (p : Picture) (x y : Nat) (drawn : List (Nat × Nat)) (px py : Nat) : Bool :=
  p.pixel px py ^^ decide (drawn.countP (fallsOn x y px py) % 2 = 1)

theorem pixel_drawMarks (p : Picture) (x y : Nat) (drawn : List (Nat × Nat)) (px py : Nat) :
    (drawDots p (drawn.map (dotAt x y true))).2.pixel px py = litAfter p x y drawn px py := by
  have hcount : (drawn.map (dotAt x y true)).countP (Dot.flips px py) =
      drawn.countP (fallsOn x y px py) := by
    rw [List.countP_map]
    exact congrArg (drawn.countP ·) (funext (flips_dotAt x y px py))
  rw [Picture.pixel_drawDots, hcount, litAfter]

theorem fst_drawMarks_iff {p : Picture} {x y : Nat} {drawn : List (Nat × Nat)} :
    (drawDots p (drawn.map (dotAt x y true))).1 = true ↔
      ∃ before mark after, drawn = before ++ mark :: after ∧
        litAfter p x y before (x + mark.2) (y + mark.1) = true := by
  rw [Picture.fst_drawDots_iff]
  constructor
  · rintro ⟨first, dot, last, heq, hmeets⟩
    obtain ⟨before, rest, rfl, rfl, hrest⟩ := List.map_eq_append_iff.1 heq
    obtain ⟨mark, after, rfl, rfl, rfl⟩ := List.map_eq_cons_iff.1 hrest
    rw [meets_dotAt, pixel_drawMarks] at hmeets
    exact ⟨before, mark, after, rfl, hmeets⟩
  · rintro ⟨before, mark, after, rfl, hlit⟩
    rw [← pixel_drawMarks, ← meets_dotAt] at hlit
    exact ⟨_, _, after.map (dotAt x y true), List.map_append, hlit⟩

theorem apart_dotAt {rows : List UInt8} (h : rows.length ≤ height) (x y : Nat) :
    ((marks rows).map (dotAt x y true)).Pairwise Dot.Apart := by
  rw [List.pairwise_map]
  apply ((pairwise_places rows).filter _).imp_of_mem
  rintro ⟨row, bit⟩ ⟨row', bit'⟩ hmem hmem' hne heq
  obtain ⟨hrow, hbit⟩ := mem_places.1 (List.mem_filter.1 hmem).1
  obtain ⟨hrow', hbit'⟩ := mem_places.1 (List.mem_filter.1 hmem').1
  obtain ⟨hacross, hdown⟩ := Picture.place_eq_iff.1 heq
  simp only [dotAt, width, height] at hacross hdown h
  apply hne
  rw [Prod.mk.injEq]
  omega

/-- The picture `q` is `p` with a sprite drawn at `(x, y)`, and `hit` says whether one of its marks
fell on a pixel that was lit when the turn of the mark came. If the sprite is not taller than the
display, that is a pixel that was lit before the draw. -/
structure Blits (p : Picture) (x y : Nat) (rows : List UInt8) (hit : Bool) (q : Picture) :
    Prop where
  pixel_eq : ∀ px py, q.pixel px py = litAfter p x y (marks rows) px py
  hit_iff : hit = true ↔
    ∃ before mark after, marks rows = before ++ mark :: after ∧
      litAfter p x y before (x + mark.2) (y + mark.1) = true
  hit_iff_of_le : rows.length ≤ height →
    (hit = true ↔ ∃ mark ∈ marks rows, p.pixel (x + mark.2) (y + mark.1) = true)
  lit_of_le : rows.length ≤ height →
    q.lit + 2 * (marks rows).countP (fun mark => p.pixel (x + mark.2) (y + mark.1)) =
      p.lit + (marks rows).length

theorem blits_drawSprite (p : Picture) (x y : Nat) (rows : List UInt8) :
    Blits p x y rows (drawSprite p x y rows).1 (drawSprite p x y rows).2 := by
  have hmeets : Dot.meets p ∘ dotAt x y true = fun mark => p.pixel (x + mark.2) (y + mark.1) :=
    funext (meets_dotAt p x y)
  rw [drawSprite_eq]
  constructor
  case pixel_eq => exact pixel_drawMarks p x y (marks rows)
  case hit_iff => exact fst_drawMarks_iff
  case hit_iff_of_le =>
    intro hle
    rw [Picture.fst_drawDots_of_apart p (apart_dotAt hle x y), List.any_map, hmeets,
      List.any_eq_true]
  case lit_of_le =>
    intro hle
    have hlit := Picture.lit_drawDots_of_apart p (apart_dotAt hle x y)
    have hon : (marks rows).countP ((·.on) ∘ dotAt x y true) = (marks rows).length :=
      List.countP_eq_length.2 fun _ _ => rfl
    rwa [List.countP_map, List.countP_map, hmeets, hon] at hlit

theorem drawSprite_twice (p : Picture) (x y : Nat) (rows : List UInt8) :
    (drawSprite (drawSprite p x y rows).2 x y rows).2 = p :=
  p.drawDots_twice _

theorem drawSprite_comm (p : Picture) (x y x' y' : Nat) (rows rows' : List UInt8) :
    (drawSprite (drawSprite p x y rows).2 x' y' rows').2 =
      (drawSprite (drawSprite p x' y' rows').2 x y rows).2 :=
  p.drawDots_comm _ _

end Sprite

end ChipEight
