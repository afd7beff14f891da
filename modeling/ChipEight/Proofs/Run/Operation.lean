import ChipEight.Run

namespace ChipEight

inductive Operation
  | step
  | run (p : Pacing) (clock : Nat → Nat)
  | tick
  | render
  | load (source : ByteSource) (offset : UInt16)
  -- The others are operations of the display itself.
  | clearDisplay
  | setPixel (x y : Nat) (on : Bool)
  | drawSprite (x y : Nat) (rows : List UInt8)
  | pixel (x y : Nat)
  | renderDisplay

inductive Answer
  | nothing
  | stepped (result : Except Fault Unit)
  | ran (result : Option (Except Fault Outcome))
  | loaded (result : Except Fault Nat)
  | shown (result : Except IoError Unit)
  /-- Whether a pixel is lit, or whether a lit one was hit. -/
  | lit (answer : Bool)

structure Sight where
  answer : Answer
  core : Core
  pixel : Nat → Nat → Bool

namespace Machine

variable {δ κ ρ : Type} [Display δ] [Keypad κ] [RandomSource ρ]

def onDisplay {α : Type} (m : Machine δ κ ρ) (answer : α → Answer) (result : α × δ) :
    Answer × Machine δ κ ρ :=
  result.map answer fun display => { m with display }

def operate (m : Machine δ κ ρ) : Operation → Answer × Machine δ κ ρ
  | .step => m.step.map .stepped id
  | .run p clock => (m.run p clock).map .ran id
  | .tick => (.nothing, m.tick)
  | .render => m.render.map .stepped id
  | .load source offset => (m.load source offset).map .loaded id
  | .clearDisplay => m.onDisplay .shown (Display.clear m.display)
  | .setPixel x y on => m.onDisplay .lit (Display.setPixel m.display x y on)
  | .drawSprite x y rows => m.onDisplay .lit (Display.drawSprite m.display x y rows)
  | .pixel x y => (.lit (Display.pixel m.display x y), m)
  | .renderDisplay => m.onDisplay .shown (Display.render m.display)

def sight (answer : Answer) (m : Machine δ κ ρ) : Sight :=
  ⟨answer, m.core, Display.pixel m.display⟩

/-- What is seen of a machine in the course of some operations, one after the other. -/
def watch (m : Machine δ κ ρ) : List Operation → List Sight
  | [] => []
  | operation :: rest =>
    let (answer, m) := m.operate operation
    m.sight answer :: m.watch rest

end Machine

end ChipEight
