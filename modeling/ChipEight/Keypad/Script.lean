import ChipEight.Keypad.Basic

namespace ChipEight

structure KeyScript where
  held : Vector Bool 16
  presses : List UInt8
  deriving DecidableEq

namespace KeyScript

def ofPresses (presses : List UInt8) : KeyScript := ⟨.replicate 16 false, presses⟩

def place (key : UInt8) : Fin 16 := ⟨key.toNat % 16, Nat.mod_lt _ (by decide)⟩

def setHeld (k : KeyScript) (key : UInt8) (down : Bool) : KeyScript :=
  { k with held := k.held.set (place key) down }

def hold (k : KeyScript) (key : UInt8) : KeyScript := k.setHeld key true

def release (k : KeyScript) (key : UInt8) : KeyScript := k.setHeld key false

def pending (k : KeyScript) : Nat := k.presses.length

def exhausted : IoError := .device .unexpectedEof "key script exhausted"

def isDown (k : KeyScript) (key : UInt8) : Bool := k.held[key.toNat]?.getD false

def awaitPress (k : KeyScript) : Except IoError UInt8 × KeyScript :=
  match k.presses with
  | [] => (.error exhausted, k)
  | key :: presses => (.ok key, { k with presses })

end KeyScript

instance : Keypad KeyScript where
  isDown k key := (k.isDown key, k)
  awaitPress := KeyScript.awaitPress

end ChipEight
