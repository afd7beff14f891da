import ChipEight.Core.Execute

namespace ChipEight

namespace Request

def map (f : Core → Core) : Request → Request
  | .done core => .done (f core)
  | .fail fault => .fail fault
  | .clearScreen core => .clearScreen (f core)
  | .draw x y sprite resume => .draw x y sprite fun hit => f (resume hit)
  | .testKey key resume => .testKey key fun down => f (resume down)
  | .awaitKey resume => .awaitKey fun key => (resume key).map f
  | .randomByte resume => .randomByte fun b => f (resume b)

theorem map_ofExcept (f : Core → Core) (result : Except Fault Core) :
    (ofExcept result).map f = ofExcept (result.map f) := by
  cases result with
  | error fault => rfl
  | ok core => rfl

end Request

namespace Core

def untimed (c : Core) : Core := { c with delay := 0, sound := 0 }

theorem untimed_skipIf (c : Core) (condition : Bool) :
    (c.untimed.skipIf condition).untimed = (c.skipIf condition).untimed := by
  cases condition with
  | false => rfl
  | true => rfl

theorem untimed_call (c : Core) (target : UInt16) :
    (c.untimed.call target).map untimed = (c.call target).map untimed := by
  unfold call
  by_cases h : c.sp.toNat < stackDepth
  · rw [dif_pos h, dif_pos (show c.untimed.sp.toNat < stackDepth from h)]
    rfl
  · rw [dif_neg h, dif_neg (show ¬ c.untimed.sp.toNat < stackDepth from h)]

theorem untimed_ret (c : Core) : c.untimed.ret.map untimed = c.ret.map untimed := by
  have hreturn : c.untimed.returnAddress? = c.returnAddress? := rfl
  unfold ret
  rw [hreturn]
  cases c.returnAddress? with
  | none => rfl
  | some target => rfl

theorem untimed_storeAtIndex (c : Core) (bytes : List UInt8) :
    (c.untimed.storeAtIndex bytes).map untimed = (c.storeAtIndex bytes).map untimed := by
  have hwrite : c.untimed.memory.writeAll c.untimed.i.toNat bytes =
      c.memory.writeAll c.i.toNat bytes := rfl
  unfold storeAtIndex
  rw [hwrite]
  cases c.memory.writeAll c.i.toNat bytes with
  | error fault => rfl
  | ok memory => rfl

theorem untimed_loadRegisters (c : Core) (x : Register) :
    (c.untimed.loadRegisters x).map untimed = (c.loadRegisters x).map untimed := by
  have hslice : c.untimed.memory.slice c.untimed.i.toNat (x.val + 1) =
      c.memory.slice c.i.toNat (x.val + 1) := rfl
  unfold loadRegisters
  rw [hslice]
  cases c.memory.slice c.i.toNat (x.val + 1) with
  | error fault => rfl
  | ok bytes => rfl

theorem untimed_acceptKey (c : Core) (x : Register) (key : UInt8) :
    (c.untimed.acceptKey x key).map untimed = (c.acceptKey x key).map untimed := by
  unfold acceptKey
  by_cases h : key ≤ 0xF
  · rw [if_pos h, if_pos h]
    rfl
  · rw [if_neg h, if_neg h]

/-- Without the timers, an instruction that does not read them ends in the same request. -/
theorem untimed_execute (c : Core) {instruction : Instruction}
    (h : ∀ x, instruction ≠ .readDelay x) :
    (c.untimed.execute instruction).map untimed = (c.execute instruction).map untimed := by
  cases instruction with
  | ret => simp only [execute, Request.map_ofExcept, untimed_ret]
  | call nnn => simp only [execute, Request.map_ofExcept, untimed_call]
  | skipEqByte x kk => exact congrArg Request.done (untimed_skipIf c _)
  | skipNeByte x kk => exact congrArg Request.done (untimed_skipIf c _)
  | skipEq x y => exact congrArg Request.done (untimed_skipIf c _)
  | skipNe x y => exact congrArg Request.done (untimed_skipIf c _)
  | skipKeyDown x => exact congrArg (Request.testKey _) (funext fun down => untimed_skipIf c down)
  | skipKeyUp x => exact congrArg (Request.testKey _) (funext fun down => untimed_skipIf c !down)
  | draw x y n =>
    have hslice : c.untimed.memory.slice c.untimed.i.toNat n.toNat =
        c.memory.slice c.i.toNat n.toNat := rfl
    simp only [execute, hslice]
    cases c.memory.slice c.i.toNat n.toNat with
    | error fault => rfl
    | ok sprite => rfl
  | awaitKey x => exact congrArg Request.awaitKey (funext (untimed_acceptKey c x))
  | readDelay x => exact absurd rfl (h x)
  | storeDecimal x =>
    simp only [execute, Request.map_ofExcept]
    exact congrArg Request.ofExcept (untimed_storeAtIndex c _)
  | storeRegisters x =>
    simp only [execute, Request.map_ofExcept]
    exact congrArg Request.ofExcept (untimed_storeAtIndex c _)
  | loadRegisters x => simp only [execute, Request.map_ofExcept, untimed_loadRegisters]
  | _ => rfl

end Core

end ChipEight
