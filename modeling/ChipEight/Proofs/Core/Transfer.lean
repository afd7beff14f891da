import ChipEight.Proofs.Core.Frame

namespace ChipEight.Core

variable {c c' : Core} {x r : Register} {bytes : List UInt8}

@[simp] theorem length_registersTo (c : Core) (x : Register) :
    (c.registersTo x).length = x.val + 1 := by
  rw [registersTo, List.length_take, Vector.length_toList]
  exact Nat.min_eq_left x.isLt

theorem getElem?_registersTo (c : Core) (h : r ≤ x) :
    (c.registersTo x)[r.val]? = some (c.getV r) := by
  have hlt : r.val < x.val + 1 := Nat.lt_succ_of_le h
  rw [registersTo, List.getElem?_take_of_lt hlt]
  simp [getV]

theorem memory_setRegisters (c : Core) (bytes : List UInt8) :
    (c.setRegisters bytes).memory = c.memory := by
  rw [setRegisters]

theorem i_setRegisters (c : Core) (bytes : List UInt8) : (c.setRegisters bytes).i = c.i := by
  rw [setRegisters]

theorem getV_setRegisters (c : Core) (bytes : List UInt8) (r : Register) :
    (c.setRegisters bytes).getV r = bytes[r.val]?.getD (c.getV r) := by
  simp [setRegisters, getV]

theorem getV_setRegisters_of_le (c : Core) (h : bytes.length ≤ r.val) :
    (c.setRegisters bytes).getV r = c.getV r := by
  rw [getV_setRegisters, List.getElem?_eq_none h, Option.getD_none]

theorem registersTo_setRegisters (c : Core) (hlen : bytes.length = x.val + 1) :
    (c.setRegisters bytes).registersTo x = bytes := by
  apply List.ext_getElem?
  intro k
  by_cases hk : k ≤ x.val
  · obtain ⟨r, rfl⟩ : ∃ r : Register, r.val = k := ⟨⟨k, Nat.lt_of_le_of_lt hk x.isLt⟩, rfl⟩
    rw [getElem?_registersTo _ hk, getV_setRegisters, List.getElem?_eq_getElem (by omega),
      Option.getD_some]
  · rw [List.getElem?_eq_none (by rw [length_registersTo]; omega),
      List.getElem?_eq_none (by omega)]

/-- What has been stored is loaded, whatever was in the registers in between. -/
theorem loadRegisters_of_storeAtIndex (h : c.storeAtIndex bytes = .ok c')
    (hlen : bytes.length = x.val + 1) (v : Vector UInt8 16) :
    { c' with v }.loadRegisters x = .ok ({ c' with v }.setRegisters bytes) := by
  obtain ⟨memory, hwrite, rfl⟩ := storeAtIndex_eq_ok_iff.1 h
  refine loadRegisters_eq_ok_iff.2 ⟨bytes, ?_, rfl⟩
  rw [← hlen]
  exact Memory.slice_of_writeAll hwrite

theorem storeAtIndex_eq_self (h : c.memory.writeAll c.i.toNat bytes = .ok c.memory) :
    c.storeAtIndex bytes = .ok c :=
  storeAtIndex_eq_ok_iff.2 ⟨_, h, rfl⟩

theorem storeAtIndex_of_loadRegisters (h : c.loadRegisters x = .ok c') :
    c'.storeAtIndex (c'.registersTo x) = .ok c' := by
  obtain ⟨bytes, hslice, rfl⟩ := loadRegisters_eq_ok_iff.1 h
  rw [registersTo_setRegisters c (Memory.length_of_slice hslice)]
  apply storeAtIndex_eq_self
  rw [memory_setRegisters, i_setRegisters]
  exact Memory.writeAll_of_slice hslice

theorem decimalDigits_eq (b : UInt8) :
    ∃ hundreds tens ones : UInt8, decimalDigits b = [hundreds, tens, ones] ∧
      hundreds ≤ 9 ∧ tens ≤ 9 ∧ ones ≤ 9 ∧
      100 * hundreds.toNat + 10 * tens.toNat + ones.toNat = b.toNat := by
  have hb := b.toNat_lt
  refine ⟨_, _, _, rfl, ?_⟩
  simp only [UInt8.le_iff_toNat_le, UInt8.toNat_div, UInt8.toNat_mod, UInt8.reduceToNat]
  omega

end ChipEight.Core
