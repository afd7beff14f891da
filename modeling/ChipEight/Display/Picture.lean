import ChipEight.Display.Basic

namespace ChipEight

structure Picture where
  dots : Vector Bool (Display.width * Display.height)
  deriving DecidableEq

namespace Picture

def blank : Picture := ⟨.replicate _ false⟩

def place (x y : Nat) : Fin (Display.width * Display.height) :=
  ⟨y % Display.height * Display.width + x % Display.width, by
    simp only [Display.height, Display.width]; omega⟩

def pixel (p : Picture) (x y : Nat) : Bool := p.dots[place x y]

@[simp] theorem pixel_blank (x y : Nat) : blank.pixel x y = false := by
  simp [blank, pixel]

theorem place_eq_iff {a b x y : Nat} :
    place a b = place x y ↔
      a % Display.width = x % Display.width ∧ b % Display.height = y % Display.height := by
  simp only [place, Fin.mk.injEq, Display.width, Display.height]
  omega

def setPixel (p : Picture) (x y : Nat) (on : Bool) : Bool × Picture :=
  let lit := p.pixel x y
  (on && lit, ⟨p.dots.set (place x y) (lit ^^ on)⟩)

theorem pixel_setPixel (p : Picture) (x y a b : Nat) (on : Bool) :
    (p.setPixel x y on).2.pixel a b = (p.pixel a b ^^ (on && decide (place a b = place x y))) := by
  by_cases h : place a b = place x y
  · simp [setPixel, pixel, h]
  · have hval : (place x y).val ≠ (place a b).val := fun e => h (Fin.ext e.symm)
    simp [setPixel, pixel, hval, h]

theorem setPixel_false (p : Picture) (x y : Nat) : (p.setPixel x y false).2 = p := by
  simp [setPixel, pixel]

def lit (p : Picture) : Nat := p.dots.toList.count true

def row (p : Picture) (y : Nat) : List Bool := (List.range Display.width).map (p.pixel · y)

def rows (p : Picture) : List (List Bool) := (List.range Display.height).map p.row

end Picture

instance : Display Picture where
  clear _ := (.ok (), .blank)
  pixel := Picture.pixel
  setPixel := Picture.setPixel
  render p := (.ok (), p)
  close p := p

end ChipEight
