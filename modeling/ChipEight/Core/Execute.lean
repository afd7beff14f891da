import ChipEight.Core.Basic
import ChipEight.Instruction.Decode

namespace ChipEight

/-- What is left to do when the core has looked at an instruction. -/
inductive Request
  | done (core : Core)
  | fail (fault : Fault)
  | clearScreen (core : Core)
  | draw (x y : Nat) (sprite : List UInt8) (resume : Bool → Core)
  | testKey (key : UInt8) (resume : Bool → Core)
  | awaitKey (resume : UInt8 → Except Fault Core)
  | randomByte (resume : UInt8 → Core)

namespace Request

def ofExcept : Except Fault Core → Request
  | .ok core => .done core
  | .error fault => .fail fault

end Request

namespace Core

/-- The call is made from the word before `pc`, so `pc` is where it returns to. -/
def call (c : Core) (target : UInt16) : Except Fault Core :=
  if h : c.sp.toNat < stackDepth then
    .ok { c with stack := c.stack.set c.sp.toNat c.pc, sp := c.sp + 1, pc := target }
  else .error (.stackOverflow stackDepth)

def ret (c : Core) : Except Fault Core :=
  match c.returnAddress? with
  | some target => .ok { c with sp := c.sp - 1, pc := target }
  | none => .error .stackUnderflow

def decimalDigits (b : UInt8) : List UInt8 := [b / 100, b / 10 % 10, b % 10]

def registersTo (c : Core) (x : Register) : List UInt8 := c.v.toList.take (x.val + 1)

def storeAtIndex (c : Core) (bytes : List UInt8) : Except Fault Core := do
  let memory ← c.memory.writeAll c.i.toNat bytes
  return { c with memory }

def setRegisters (c : Core) (bytes : List UInt8) : Core :=
  { c with v := .ofFn fun r => bytes[r.val]?.getD (c.getV r) }

def loadRegisters (c : Core) (x : Register) : Except Fault Core := do
  let bytes ← c.memory.slice c.i.toNat (x.val + 1)
  return c.setRegisters bytes

def acceptKey (c : Core) (x : Register) (key : UInt8) : Except Fault Core :=
  if key ≤ 0xF then .ok (c.setV x key) else .error (.invalidKey key)

def execute (c : Core) : Instruction → Request
  | .sys _ => .done c
  | .clearScreen => .clearScreen c
  | .ret => .ofExcept c.ret
  | .jump nnn => .done { c with pc := nnn }
  | .call nnn => .ofExcept (c.call nnn)
  | .skipEqByte x kk => .done (c.skipIf (c.getV x = kk))
  | .skipNeByte x kk => .done (c.skipIf (c.getV x ≠ kk))
  | .skipEq x y => .done (c.skipIf (c.getV x = c.getV y))
  | .loadByte x kk => .done (c.setV x kk)
  | .addByte x kk => .done (c.setV x (c.getV x + kk))
  | .move x y => .done (c.setV x (c.getV y))
  | .or x y => .done (c.setV x (c.getV x ||| c.getV y))
  | .and x y => .done (c.setV x (c.getV x &&& c.getV y))
  | .xor x y => .done (c.setV x (c.getV x ^^^ c.getV y))
  | .add x y =>
    .done (c.setFlagged x (255 < (c.getV x).toNat + (c.getV y).toNat) (c.getV x + c.getV y))
  | .sub x y => .done (c.setFlagged x (c.getV y < c.getV x) (c.getV x - c.getV y))
  | .shiftRight x => .done (c.setFlagged x (c.getV x &&& 1 = 1) (c.getV x >>> 1))
  | .subFrom x y => .done (c.setFlagged x (c.getV x < c.getV y) (c.getV y - c.getV x))
  | .shiftLeft x => .done (c.setFlagged x (c.getV x >>> 7 = 1) (c.getV x <<< 1))
  | .skipNe x y => .done (c.skipIf (c.getV x ≠ c.getV y))
  | .loadIndex nnn => .done { c with i := nnn }
  | .jumpOffset nnn => .done { c with pc := nnn + (c.getV .first).toUInt16 }
  | .random x kk => .randomByte fun b => c.setV x (b &&& kk)
  | .draw x y n =>
    match c.memory.slice c.i.toNat n.toNat with
    | .ok sprite =>
      .draw (c.getV x).toNat (c.getV y).toNat sprite fun hit => c.setV .flag hit.toUInt8
    | .error fault => .fail fault
  | .skipKeyDown x => .testKey (c.getV x &&& 0xF) fun down => c.skipIf down
  | .skipKeyUp x => .testKey (c.getV x &&& 0xF) fun down => c.skipIf !down
  | .readDelay x => .done (c.setV x c.delay)
  | .awaitKey x => .awaitKey (c.acceptKey x)
  | .setDelay x => .done { c with delay := c.getV x }
  | .setSound x => .done { c with sound := c.getV x }
  | .addIndex x => .done { c with i := c.i + (c.getV x).toUInt16 }
  | .loadGlyph x => .done { c with i := Font.glyph (c.getV x) }
  | .storeDecimal x => .ofExcept (c.storeAtIndex (decimalDigits (c.getV x)))
  | .storeRegisters x => .ofExcept (c.storeAtIndex (c.registersTo x))
  | .loadRegisters x => .ofExcept (c.loadRegisters x)

end Core

end ChipEight
