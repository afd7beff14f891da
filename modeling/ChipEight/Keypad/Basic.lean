import ChipEight.Fault

namespace ChipEight

class Keypad (κ : Type) where
  isDown : κ → UInt8 → Bool × κ
  awaitPress : κ → Except IoError UInt8 × κ

structure NoKeypad where
  deriving DecidableEq

namespace NoKeypad

def notAttached : IoError := .device .unexpectedEof "no keypad attached"

end NoKeypad

instance : Keypad NoKeypad where
  isDown k _ := (false, k)
  awaitPress k := (.error NoKeypad.notAttached, k)

instance {κ κ₂ : Type} [Keypad κ] [Keypad κ₂] : Keypad (κ ⊕ κ₂) where
  isDown
    | .inl k, key => (Keypad.isDown k key).map id .inl
    | .inr k, key => (Keypad.isDown k key).map id .inr
  awaitPress
    | .inl k => (Keypad.awaitPress k).map id .inl
    | .inr k => (Keypad.awaitPress k).map id .inr

end ChipEight
