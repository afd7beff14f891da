import ChipEight.Instruction.Basic

namespace ChipEight.Instruction

def decodeArithmetic (x y : Register) (n : Nat) : Option Instruction :=
  match n with
  | 0x0 => some (.move x y)
  | 0x1 => some (.or x y)
  | 0x2 => some (.and x y)
  | 0x3 => some (.xor x y)
  | 0x4 => some (.add x y)
  | 0x5 => some (.sub x y)
  | 0x6 => some (.shiftRight x)
  | 0x7 => some (.subFrom x y)
  | 0xE => some (.shiftLeft x)
  | _ => none

def decodeTransfer (x : Register) (kk : Nat) : Option Instruction :=
  match kk with
  | 0x07 => some (.readDelay x)
  | 0x0A => some (.awaitKey x)
  | 0x15 => some (.setDelay x)
  | 0x18 => some (.setSound x)
  | 0x1E => some (.addIndex x)
  | 0x29 => some (.loadGlyph x)
  | 0x33 => some (.storeDecimal x)
  | 0x55 => some (.storeRegisters x)
  | 0x65 => some (.loadRegisters x)
  | _ => none

def decode (w : Word) : Option Instruction :=
  match w.family.val with
  | 0x0 =>
    if w.nnn = 0x0E0 then some .clearScreen
    else if w.nnn = 0x0EE then some .ret
    else some (.sys w.nnn)
  | 0x1 => some (.jump w.nnn)
  | 0x2 => some (.call w.nnn)
  | 0x3 => some (.skipEqByte w.x w.kk)
  | 0x4 => some (.skipNeByte w.x w.kk)
  | 0x5 => if w.n = 0 then some (.skipEq w.x w.y) else none
  | 0x6 => some (.loadByte w.x w.kk)
  | 0x7 => some (.addByte w.x w.kk)
  | 0x8 => decodeArithmetic w.x w.y w.n.toNat
  | 0x9 => if w.n = 0 then some (.skipNe w.x w.y) else none
  | 0xA => some (.loadIndex w.nnn)
  | 0xB => some (.jumpOffset w.nnn)
  | 0xC => some (.random w.x w.kk)
  | 0xD => some (.draw w.x w.y w.n)
  | 0xE =>
    if w.kk = 0x9E then some (.skipKeyDown w.x)
    else if w.kk = 0xA1 then some (.skipKeyUp w.x)
    else none
  | _ => decodeTransfer w.x w.kk.toNat

end ChipEight.Instruction
