import ChipEight.Display.Picture
import ChipEight.Display.Writer

namespace ChipEight

structure Terminal where
  picture : Picture
  writer : Writer
  /-- Whether the screen may differ from the picture. -/
  stale : Bool
  deriving DecidableEq

namespace Terminal

def hideCursor : List Char := "\x1b[?25l".toList

def showCursor : List Char := "\x1b[?25h".toList

def clearScreen : List Char := "\x1b[2J".toList

def home : List Char := "\x1b[1;1H".toList

def nextLine : List Char := "\x1b[1E".toList

def start (writer : Writer) : Except (IoError × Writer) Terminal :=
  match writer.write (hideCursor ++ clearScreen) with
  | (.ok (), writer) => .ok ⟨.blank, writer, true⟩
  | (.error error, writer) => .error (error, writer)

def mark (on : Bool) : Char := if on then '█' else ' '

def line (p : Picture) (y : Nat) : List Char := (p.row y).map mark ++ nextLine

def frame (p : Picture) : List Char := home ++ (List.range Display.height).flatMap (line p)

def clear (t : Terminal) : Except IoError Unit × Terminal :=
  let (result, writer) := t.writer.write clearScreen
  (result, { picture := .blank, writer, stale := true })

def setPixel (t : Terminal) (x y : Nat) (on : Bool) : Bool × Terminal :=
  let stale := t.stale || on
  let (hit, picture) := t.picture.setPixel x y on
  (hit, { t with picture, stale })

def render (t : Terminal) : Except IoError Unit × Terminal :=
  if t.stale then
    match t.writer.write (frame t.picture) with
    | (.ok (), writer) => (.ok (), { t with writer, stale := false })
    | (.error error, writer) => (.error error, { t with writer })
  else (.ok (), t)

def close (t : Terminal) : Terminal := { t with writer := (t.writer.write showCursor).2 }

end Terminal

instance : Display Terminal where
  clear := Terminal.clear
  pixel t := t.picture.pixel
  setPixel := Terminal.setPixel
  render := Terminal.render
  close := Terminal.close

end ChipEight
