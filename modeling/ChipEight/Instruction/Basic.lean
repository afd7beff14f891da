import ChipEight.Instruction.Word

namespace ChipEight

/-- An instruction over the registers `R`: `x` and `y` are registers, `kk` is a byte, `nnn` an
address. -/
inductive InstructionOver (R : Type)
  /-- Call a machine routine; nothing happens. -/
  | sys (nnn : UInt16)
  | clearScreen
  | ret
  | jump (nnn : UInt16)
  | call (nnn : UInt16)
  | skipEqByte (x : R) (kk : UInt8)
  | skipNeByte (x : R) (kk : UInt8)
  | skipEq (x y : R)
  | loadByte (x : R) (kk : UInt8)
  | addByte (x : R) (kk : UInt8)
  | move (x y : R)
  | or (x y : R)
  | and (x y : R)
  | xor (x y : R)
  | add (x y : R)
  /-- `Vx := Vx - Vy`, with `Vx > Vy` in VF. -/
  | sub (x y : R)
  | shiftRight (x : R)
  /-- `Vx := Vy - Vx`, with `Vy > Vx` in VF. -/
  | subFrom (x y : R)
  | shiftLeft (x : R)
  | skipNe (x y : R)
  | loadIndex (nnn : UInt16)
  | jumpOffset (nnn : UInt16)
  | random (x : R) (kk : UInt8)
  /-- Draw `n` rows from the index on at `(Vx, Vy)`, with the collision in VF. -/
  | draw (x y : R) (n : UInt8)
  | skipKeyDown (x : R)
  | skipKeyUp (x : R)
  | readDelay (x : R)
  | awaitKey (x : R)
  | setDelay (x : R)
  | setSound (x : R)
  | addIndex (x : R)
  | loadGlyph (x : R)
  | storeDecimal (x : R)
  | storeRegisters (x : R)
  | loadRegisters (x : R)
  deriving DecidableEq

abbrev Instruction := InstructionOver Register

end ChipEight
