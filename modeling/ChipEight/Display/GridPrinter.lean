import ChipEight.Display.Picture
import ChipEight.Display.Writer

namespace ChipEight

structure GridPrinter where
  picture : Picture
  writer : Writer
  deriving DecidableEq

namespace GridPrinter

def start (writer : Writer) : GridPrinter := ⟨.blank, writer⟩

def mark (on : Bool) : Char := if on then '*' else '_'

def line (p : Picture) (y : Nat) : List Char :=
  Numeral.padded 10 2 y ++ ':' :: (p.row y).map mark ++ ['\n']

def frame (p : Picture) : List Char := (List.range Display.height).flatMap (line p)

def setPixel (g : GridPrinter) (x y : Nat) (on : Bool) : Bool × GridPrinter :=
  let (hit, picture) := g.picture.setPixel x y on
  (hit, { g with picture })

def render (g : GridPrinter) : Except IoError Unit × GridPrinter :=
  let (result, writer) := g.writer.write (frame g.picture)
  (result, { g with writer })

end GridPrinter

instance : Display GridPrinter where
  clear g := (.ok (), { g with picture := .blank })
  pixel g := g.picture.pixel
  setPixel := GridPrinter.setPixel
  render := GridPrinter.render
  close g := g

end ChipEight
