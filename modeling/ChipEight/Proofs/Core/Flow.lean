import ChipEight.Proofs.Core.Frame

namespace ChipEight

namespace Instruction

/-- Whether the instruction sets `pc` itself. -/
def Transfers : Instruction → Prop
  | .ret | .jump _ | .call _ | .jumpOffset _ => True
  | _ => False

def CanSkip : Instruction → Prop
  | .skipEqByte _ _ | .skipNeByte _ _ | .skipEq _ _ | .skipNe _ _ => True
  | .skipKeyDown _ | .skipKeyUp _ => True
  | _ => False

theorem CanSkip.not_transfers {instruction : Instruction} (h : instruction.CanSkip) :
    ¬ instruction.Transfers := by
  intro ht
  cases instruction with
  | ret => exact h
  | jump nnn => exact h
  | call nnn => exact h
  | jumpOffset nnn => exact h
  | _ => exact ht

end Instruction

namespace Core

theorem pc_setRegisters (c : Core) (bytes : List UInt8) : (c.setRegisters bytes).pc = c.pc := by
  rw [setRegisters]

theorem pc_execute (c : Core) {instruction : Instruction} (ht : ¬ instruction.Transfers)
    (hs : ¬ instruction.CanSkip) : (c.execute instruction).Leaves (·.pc = c.pc) := by
  cases instruction with
  | ret => exact absurd trivial ht
  | jump nnn => exact absurd trivial ht
  | call nnn => exact absurd trivial ht
  | jumpOffset nnn => exact absurd trivial ht
  | skipEqByte x kk => exact absurd trivial hs
  | skipNeByte x kk => exact absurd trivial hs
  | skipEq x y => exact absurd trivial hs
  | skipNe x y => exact absurd trivial hs
  | skipKeyDown x => exact absurd trivial hs
  | skipKeyUp x => exact absurd trivial hs
  | random x kk => exact fun b => rfl
  | draw x y n => exact leaves_draw fun hit => rfl
  | awaitKey x => exact leaves_awaitKey fun key => rfl
  | storeDecimal x => exact leaves_storeAtIndex fun memory _ => rfl
  | storeRegisters x => exact leaves_storeAtIndex fun memory _ => rfl
  | loadRegisters x => exact leaves_loadRegisters c.pc_setRegisters
  | _ => rfl

end Core

end ChipEight
