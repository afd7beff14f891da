import ChipEight.Display.GridPrinter
import ChipEight.Display.Terminal

namespace ChipEight

inductive Screen
  | headless (display : Headless)
  | picture (picture : Picture)
  | grid (grid : GridPrinter)
  | terminal (terminal : Terminal)
  deriving DecidableEq

namespace Screen

def lift {α δ : Type} (choose : δ → Screen) (answer : α × δ) : α × Screen :=
  (answer.1, choose answer.2)

def writer? : Screen → Option Writer
  | .headless _ | .picture _ => none
  | .grid g => some g.writer
  | .terminal t => some t.writer

def mapWriter (f : Writer → Writer) : Screen → Screen
  | .grid g => .grid { g with writer := f g.writer }
  | .terminal t => .terminal { t with writer := f t.writer }
  | screen => screen

def text (s : Screen) : String := (s.writer?.map Writer.text).getD ""

def drain (s : Screen) : String × Screen := (s.text, s.mapWriter fun w => w.drain.2)

def print (s : Screen) (text : String) : Screen := s.mapWriter fun w => (w.write text.toList).2

def clear : Screen → Except IoError Unit × Screen
  | .headless h => lift .headless (Display.clear h)
  | .picture p => lift .picture (Display.clear p)
  | .grid g => lift .grid (Display.clear g)
  | .terminal t => lift .terminal (Display.clear t)

def pixel : Screen → Nat → Nat → Bool
  | .headless h => Display.pixel h
  | .picture p => Display.pixel p
  | .grid g => Display.pixel g
  | .terminal t => Display.pixel t

def setPixel (s : Screen) (x y : Nat) (on : Bool) : Bool × Screen :=
  match s with
  | .headless h => lift .headless (Display.setPixel h x y on)
  | .picture p => lift .picture (Display.setPixel p x y on)
  | .grid g => lift .grid (Display.setPixel g x y on)
  | .terminal t => lift .terminal (Display.setPixel t x y on)

def render : Screen → Except IoError Unit × Screen
  | .headless h => lift .headless (Display.render h)
  | .picture p => lift .picture (Display.render p)
  | .grid g => lift .grid (Display.render g)
  | .terminal t => lift .terminal (Display.render t)

def close : Screen → Screen
  | .headless h => .headless (Display.close h)
  | .picture p => .picture (Display.close p)
  | .grid g => .grid (Display.close g)
  | .terminal t => .terminal (Display.close t)

end Screen

instance : Display Screen where
  clear := Screen.clear
  pixel := Screen.pixel
  setPixel := Screen.setPixel
  render := Screen.render
  close := Screen.close

end ChipEight
