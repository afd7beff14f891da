import ChipEight.Proofs.Keypad.Layout
import ChipEight.Proofs.Machine.Action
import ChipEight.Proofs.Machine.Failure

namespace ChipEight

namespace KeyScript

inductive Call
  | hold (key : UInt8)
  | release (key : UInt8)
  | isDown (key : UInt8)

def call (k : KeyScript) : Call → KeyScript
  | .hold key => k.hold key
  | .release key => k.release key
  | .isDown key => (Keypad.isDown k key).2

end KeyScript

namespace Machine

variable {δ κ ρ : Type} [Display δ] [RandomSource ρ]

section Waiting

variable [Keypad κ]

end Waiting

variable {m : Machine δ KeyScript ρ}

end Machine

end ChipEight
