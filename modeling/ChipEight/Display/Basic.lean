import ChipEight.Fault

namespace ChipEight

/-- Drawing is exclusive or, and coordinates wrap around. `setPixel` answers whether a lit pixel was
switched off. -/
class Display (δ : Type) where
  clear : δ → Except IoError Unit × δ
  pixel : δ → Nat → Nat → Bool
  setPixel : δ → Nat → Nat → Bool → Bool × δ
  render : δ → Except IoError Unit × δ
  close : δ → δ

namespace Display

def width : Nat := 64

def height : Nat := 32

end Display

structure Dot where
  x : Nat
  y : Nat
  on : Bool
  deriving DecidableEq

namespace Sprite

def bits (row : UInt8) : List Bool :=
  (List.range 8).map fun k => row.toNat.testBit (7 - k)

def rowDots (x y : Nat) (row : UInt8) : List Dot :=
  (bits row).mapIdx fun k on => ⟨(x + k) % Display.width, y % Display.height, on⟩

def dots (x y : Nat) (rows : List UInt8) : List Dot :=
  (rows.mapIdx fun k row => rowDots x (y + k) row).flatten

end Sprite

namespace Display

variable {δ : Type} [Display δ]

def drawDots (d : δ) : List Dot → Bool × δ
  | [] => (false, d)
  | dot :: rest =>
    let (hit, d) := setPixel d dot.x dot.y dot.on
    let (later, d) := drawDots d rest
    (hit || later, d)

def drawSprite (d : δ) (x y : Nat) (rows : List UInt8) : Bool × δ :=
  drawDots d (Sprite.dots x y rows)

end Display

structure Headless where
  deriving DecidableEq

instance : Display Headless where
  clear d := (.ok (), d)
  pixel _ _ _ := false
  setPixel d _ _ _ := (false, d)
  render d := (.ok (), d)
  close d := d

end ChipEight
