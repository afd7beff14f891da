import ChipEight.Fault
import ChipEight.Text.Utf8

namespace ChipEight

structure Writer where
  written : Array UInt8
  /-- How many more bytes are accepted; `none` is without a limit. -/
  room : Option Nat
  deriving DecidableEq

namespace Writer

def unlimited : Writer := ⟨#[], none⟩

def gone : IoError := .device .other "display gone"

def write (w : Writer) (text : List Char) : Except IoError Unit × Writer :=
  let bytes := Utf8.encode text
  match w.room with
  | none => (.ok (), { w with written := w.written ++ bytes })
  | some room =>
    (if bytes.length ≤ room then .ok () else .error gone,
      { written := w.written ++ bytes.take room, room := some (room - bytes.length) })

/-- The text written; a character of which only a part was accepted reads as a replacement. -/
def text (w : Writer) : String := .ofList (Utf8.decode w.written.toList)

def drain (w : Writer) : String × Writer := (w.text, { w with written := #[] })

def setRoom (w : Writer) (room : Option Nat) : Writer := { w with room }

end Writer

end ChipEight
