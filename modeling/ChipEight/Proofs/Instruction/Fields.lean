import ChipEight.Instruction.Decode
import ChipEight.Proofs.Text.Numeral

namespace ChipEight

namespace Word

def transfer (x : Register) (kk : UInt8) : Word := ⟨.ofNat (0xF000 + 0x100 * x.val + kk.toNat)⟩

variable (w : Word)

theorem toNat_family : w.family.val = w.bits.toNat / 0x1000 % 16 := by
  simp only [family, nibble, Nat.shiftRight_eq_div_pow, Nat.reducePow]

theorem toNat_x : w.x.val = w.bits.toNat / 0x100 % 16 := by
  simp only [x, nibble, Nat.shiftRight_eq_div_pow, Nat.reducePow]

theorem toNat_y : w.y.val = w.bits.toNat / 0x10 % 16 := by
  simp only [y, nibble, Nat.shiftRight_eq_div_pow, Nat.reducePow]

theorem toNat_kk : w.kk.toNat = w.bits.toNat % 256 := by
  simp only [kk, UInt16.toNat_toUInt8, Nat.reducePow]

theorem toNat_n : w.n.toNat = w.bits.toNat % 16 := by
  have hmask : w.n.toNat = w.kk.toNat % 16 := Nat.and_two_pow_sub_one_eq_mod w.kk.toNat 4
  rw [hmask, toNat_kk]
  omega

theorem toList_text : w.text.toList = Numeral.padded 16 4 w.bits.toNat :=
  Numeral.toList_hex 4 w.bits.toNat

theorem length_text : w.text.length = 4 := by
  rw [← String.length_toList, toList_text]
  exact Numeral.length_padded_of_lt (by decide) w.bits.toNat_lt

theorem denotes_text : Numeral.Denotes 16 w.text.toList w.bits.toNat := by
  rw [toList_text]
  exact Numeral.denotes_padded (by decide) (by decide) 4 w.bits.toNat

end Word

namespace Instruction

variable {w : Word} {x y : Register}

theorem decode_of_arithmetic {n : Nat} (hn : n < 16)
    (h : w.bits.toNat = 0x8000 + 0x100 * x.val + 0x10 * y.val + n) :
    decode w = decodeArithmetic x y n := by
  have hx := x.isLt
  have hy := y.isLt
  have hfamily : w.family.val = 0x8 := by rw [w.toNat_family]; omega
  have hwx : w.x = x := Fin.ext (by rw [w.toNat_x]; omega)
  have hwy : w.y = y := Fin.ext (by rw [w.toNat_y]; omega)
  have hwn : w.n.toNat = n := by rw [w.toNat_n]; omega
  simp only [decode, hfamily, hwx, hwy, hwn]

theorem decode_of_addByte {kk : UInt8} (h : w.bits.toNat = 0x7000 + 0x100 * x.val + kk.toNat) :
    decode w = some (.addByte x kk) := by
  have hx := x.isLt
  have hk := kk.toNat_lt
  have hfamily : w.family.val = 0x7 := by rw [w.toNat_family]; omega
  have hwx : w.x = x := Fin.ext (by rw [w.toNat_x]; omega)
  have hwk : w.kk = kk := UInt8.toNat_inj.1 (by rw [w.toNat_kk]; omega)
  simp only [decode, hfamily, hwx, hwk]

theorem decode_of_draw {n : UInt8} (hn : n.toNat < 16)
    (h : w.bits.toNat = 0xD000 + 0x100 * x.val + 0x10 * y.val + n.toNat) :
    decode w = some (.draw x y n) := by
  have hx := x.isLt
  have hy := y.isLt
  have hfamily : w.family.val = 0xD := by rw [w.toNat_family]; omega
  have hwx : w.x = x := Fin.ext (by rw [w.toNat_x]; omega)
  have hwy : w.y = y := Fin.ext (by rw [w.toNat_y]; omega)
  have hwn : w.n = n := UInt8.toNat_inj.1 (by rw [w.toNat_n]; omega)
  simp only [decode, hfamily, hwx, hwy, hwn]

theorem decode_transfer (x : Register) (kk : UInt8) :
    decode (.transfer x kk) = decodeTransfer x kk.toNat := by
  have hx := x.isLt
  have hk := kk.toNat_lt
  have hbits : (Word.transfer x kk).bits.toNat = 0xF000 + 0x100 * x.val + kk.toNat :=
    UInt16.toNat_ofNat_of_lt' (show _ < 65536 by omega)
  have hfamily : (Word.transfer x kk).family.val = 0xF := by rw [Word.toNat_family]; omega
  have hwx : (Word.transfer x kk).x = x := Fin.ext (by rw [Word.toNat_x]; omega)
  have hwk : (Word.transfer x kk).kk.toNat = kk.toNat := by rw [Word.toNat_kk]; omega
  simp only [decode, hfamily, hwx, hwk]

theorem toNat_of_decode_jumpOffset {w : Word} {nnn : UInt16}
    (h : decode w = some (.jumpOffset nnn)) : nnn.toNat ≤ 0xFFF := by
  obtain rfl : w.nnn = nnn := by
    have harithmetic (n : Nat) : decodeArithmetic w.x w.y n ≠ some (.jumpOffset nnn) := by
      unfold decodeArithmetic
      split <;> nofun
    have htransfer (kk : Nat) : decodeTransfer w.x kk ≠ some (.jumpOffset nnn) := by
      unfold decodeTransfer
      split <;> nofun
    unfold decode at h
    split at h
    case h_9 => exact absurd h (harithmetic _)
    case h_12 =>
      cases h
      rfl
    case h_16 => exact absurd h (htransfer _)
    all_goals
      repeat' split at h
      all_goals cases h
  rw [Word.nnn, UInt16.toNat_and]
  exact Nat.and_le_right

end Instruction

end ChipEight
