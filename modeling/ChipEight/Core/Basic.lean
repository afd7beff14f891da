import ChipEight.Font

namespace ChipEight

def stackDepth : Nat := 16

structure Core where
  v : Vector UInt8 16
  i : UInt16
  pc : UInt16
  sp : UInt16
  stack : Vector UInt16 stackDepth
  delay : UInt8
  sound : UInt8
  memory : Memory
  deriving DecidableEq

namespace Core

def boot (memorySize : UInt64) (start : UInt16) : Except Fault Core := do
  let memory ← (Memory.zeroed memorySize).writeAll Font.address.toNat Font.spriteSheet
  return {
    v := .replicate 16 0
    i := 0
    pc := start
    sp := 0
    stack := .replicate stackDepth 0
    delay := 0
    sound := 0
    memory }

def getV (c : Core) (x : Register) : UInt8 := c.v[x]

def setV (c : Core) (x : Register) (value : UInt8) : Core :=
  { c with v := c.v.set x value }

@[simp] theorem getV_setV_self (c : Core) (x : Register) (value : UInt8) :
    (c.setV x value).getV x = value := by
  simp [getV, setV]

theorem getV_setV_of_ne (c : Core) {x y : Register} (h : x ≠ y) (value : UInt8) :
    (c.setV x value).getV y = c.getV y := by
  have hval : x.val ≠ y.val := fun e => h (Fin.ext e)
  simp [getV, setV, hval]

/-- The flag goes into VF before the value goes into Vx, so that the value stays when x is F. -/
def setFlagged (c : Core) (x : Register) (flag : Bool) (value : UInt8) : Core :=
  (c.setV .flag flag.toUInt8).setV x value

def slot? (c : Core) : Option UInt16 := c.stack[c.sp.toNat]?

def returnAddress? (c : Core) : Option UInt16 :=
  if c.sp = 0 then none else c.stack[c.sp.toNat - 1]?

def advance (c : Core) : Core := { c with pc := c.pc + 2 }

def skipIf (c : Core) (condition : Bool) : Core := if condition then c.advance else c

def fetch (c : Core) : Except Fault Word := c.memory.word c.pc.toNat

def tick (c : Core) : Core :=
  { c with
    delay := if c.delay = 0 then 0 else c.delay - 1
    sound := if c.sound = 0 then 0 else c.sound - 1 }

def soundActive (c : Core) : Bool := 0 < c.sound

def calls (c : Core) : List UInt16 := c.stack.toList.take c.sp.toNat

end Core

end ChipEight
