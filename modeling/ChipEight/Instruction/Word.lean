import ChipEight.Text.Numeral

namespace ChipEight

abbrev Register := Fin 16

def Register.first : Register := ⟨0, by decide⟩

/-- VF, which takes carries, borrows, lost bits and collisions. -/
def Register.flag : Register := ⟨15, by decide⟩

structure Word where
  bits : UInt16
  deriving DecidableEq

namespace Word

def ofBytes (high low : UInt8) : Word :=
  ⟨high.toUInt16 <<< 8 ||| low.toUInt16⟩

def nibble (w : Word) (shift : Nat) : Fin 16 :=
  ⟨w.bits.toNat >>> shift % 16, Nat.mod_lt _ (by decide)⟩

def family (w : Word) : Fin 16 := w.nibble 12

def x (w : Word) : Register := w.nibble 8

def y (w : Word) : Register := w.nibble 4

def n (w : Word) : UInt8 := w.bits.toUInt8 &&& 0x0F

def kk (w : Word) : UInt8 := w.bits.toUInt8

def nnn (w : Word) : UInt16 := w.bits &&& 0x0FFF

def text (w : Word) : String := Numeral.hex 4 w.bits.toNat

end Word

end ChipEight
