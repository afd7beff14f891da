import ChipEight.Proofs.Core.Untimed
import ChipEight.Proofs.Machine.Failure

namespace ChipEight

namespace Memory

theorem size_append_lt (m : Memory) (size : UInt64) :
    (m.cells ++ Array.replicate (size.toNat - m.size) 0).size < UInt64.size := by
  have hold := m.size_lt
  have hnew := size.toNat_lt_size
  rw [Array.size_append, Array.size_replicate, Memory.size]
  omega

/-- The memory with zeros behind it, up to `size` bytes. -/
def widen (m : Memory) (size : UInt64) : Memory :=
  ⟨m.cells ++ Array.replicate (size.toNat - m.size) 0, m.size_append_lt size⟩

variable {m m' : Memory} {size : UInt64} {address len : Nat}

theorem size_widen (h : m.size ≤ size.toNat) : (m.widen size).size = size.toNat := by
  unfold Memory.size at *
  rw [widen, Array.size_append, Array.size_replicate, Memory.size]
  omega

theorem zeroed_widen {less more : UInt64} (h : less.toNat ≤ more.toNat) :
    (zeroed less).widen more = zeroed more := by
  ext1
  simp only [widen, zeroed, Memory.size, Array.size_replicate, Array.replicate_append_replicate,
    Nat.add_sub_cancel' h]

theorem Fits.widen (h : m.Fits address len) : (m.widen size).Fits address len := by
  rw [fits_iff] at *
  unfold Memory.size at *
  rw [Memory.widen, Array.size_append]
  omega

theorem byte?_widen (h : address < m.size) : (m.widen size).byte? address = m.byte? address :=
  Array.getElem?_append_left h

theorem lt_size_of_byte? {b : UInt8} (h : m.byte? address = some b) : address < m.size :=
  Nat.lt_of_not_le fun hle => by simp [byte?_eq_none_iff.2 hle] at h

theorem byte?_widen_of_le (hle : m.size ≤ address) (hlt : address < size.toNat) :
    (m.widen size).byte? address = some 0 := by
  unfold Memory.size at *
  rw [byte?, Memory.widen, Array.getElem?_append_right hle, Array.getElem?_replicate, Memory.size]
  exact if_pos (by omega)

theorem word_widen {word : Word} (h : m.word address = .ok word) :
    (m.widen size).word address = .ok word := by
  unfold Memory.word at *
  cases hh : m.byte? address with
  | none => simp [hh] at h
  | some high =>
    cases hl : m.byte? (address + 1) with
    | none => simp [hh, hl] at h
    | some low =>
      rw [byte?_widen (lt_size_of_byte? hh), byte?_widen (lt_size_of_byte? hl), hh, hl]
      simpa [hh, hl] using h

theorem slice_widen (h : m.Fits address len) :
    (m.widen size).slice address len = m.slice address len := by
  have hnone : (Array.replicate (size.toNat - m.size) (0 : UInt8)).extract (address - m.cells.size)
      (address + len - m.cells.size) = #[] := by
    refine Array.extract_eq_empty_of_le ?_
    have hle : address + len ≤ m.cells.size := fits_iff.1 h
    omega
  rw [slice, slice, if_pos h, if_pos h.widen, Memory.widen, Array.extract_append, hnone,
    Array.append_empty]

theorem overlay_append (cells more : Array UInt8) {address : Nat} {bytes : List UInt8}
    (h : address + bytes.length ≤ cells.size) :
    overlay (cells ++ more) address bytes = overlay cells address bytes ++ more := by
  induction bytes generalizing cells address with
  | nil => rfl
  | cons b bytes ih =>
    rw [List.length_cons] at h
    rw [overlay, overlay, Array.setIfInBounds_append_left (by omega)]
    exact ih _ (by rw [Array.size_setIfInBounds]; omega)

theorem writeAll_widen {bytes : List UInt8} (h : m.Fits address bytes.length) :
    (m.widen size).writeAll address bytes = (m.writeAll address bytes).map (·.widen size) := by
  rw [writeAll, writeAll, if_pos h, if_pos h.widen]
  refine congrArg Except.ok (Memory.ext ?_)
  simp only [put, Memory.widen, overlay_append _ _ (fits_iff.1 h), Memory.size, size_overlay]

end Memory

def Fault.IsOutOfBounds (fault : Fault) : Prop :=
  ∃ address len size, fault.root = .outOfBounds address len size

/-- The instruction reaches past the end of memory. -/
def Request.Overreaches (r : Request) : Prop := ∃ fault, r = .fail fault ∧ fault.IsOutOfBounds

namespace Core

def widen (c : Core) (size : UInt64) : Core := { c with memory := c.memory.widen size }

theorem widen_skipIf (c : Core) (size : UInt64) (condition : Bool) :
    (c.widen size).skipIf condition = (c.skipIf condition).widen size := by
  cases condition with
  | false => rfl
  | true => rfl

theorem widen_call (c : Core) (size : UInt64) (target : UInt16) :
    (c.widen size).call target = (c.call target).map (·.widen size) := by
  unfold call
  by_cases h : c.sp.toNat < stackDepth
  · rw [dif_pos h, dif_pos (show (c.widen size).sp.toNat < stackDepth from h)]
    rfl
  · rw [dif_neg h, dif_neg (show ¬ (c.widen size).sp.toNat < stackDepth from h)]
    rfl

theorem widen_ret (c : Core) (size : UInt64) :
    (c.widen size).ret = c.ret.map (·.widen size) := by
  have hreturn : (c.widen size).returnAddress? = c.returnAddress? := rfl
  unfold ret
  rw [hreturn]
  cases c.returnAddress? with
  | none => rfl
  | some target => rfl

theorem widen_acceptKey (c : Core) (size : UInt64) (x : Register) (key : UInt8) :
    (c.widen size).acceptKey x key = (c.acceptKey x key).map (·.widen size) := by
  unfold acceptKey
  by_cases h : key ≤ 0xF
  · rw [if_pos h, if_pos h]
    rfl
  · rw [if_neg h, if_neg h]
    rfl

theorem widen_storeAtIndex (c : Core) (size : UInt64) (bytes : List UInt8) :
    (Request.ofExcept (c.storeAtIndex bytes)).Overreaches ∨
      (c.widen size).storeAtIndex bytes = (c.storeAtIndex bytes).map (·.widen size) := by
  by_cases h : c.memory.Fits c.i.toNat bytes.length
  · have hwrite : (c.widen size).memory.writeAll (c.widen size).i.toNat bytes =
      (c.memory.writeAll c.i.toNat bytes).map (·.widen size) := Memory.writeAll_widen h
    right
    unfold storeAtIndex
    rw [hwrite]
    cases c.memory.writeAll c.i.toNat bytes with
    | error fault => rfl
    | ok memory => rfl
  · left
    rw [storeAtIndex_eq_error_iff.2 ⟨Memory.not_fits_iff.1 h, rfl⟩]
    exact ⟨_, rfl, _, _, _, rfl⟩

theorem widen_loadRegisters (c : Core) (size : UInt64) (x : Register) :
    (Request.ofExcept (c.loadRegisters x)).Overreaches ∨
      (c.widen size).loadRegisters x = (c.loadRegisters x).map (·.widen size) := by
  by_cases h : c.memory.Fits c.i.toNat (x.val + 1)
  · have hslice : (c.widen size).memory.slice (c.widen size).i.toNat (x.val + 1) =
      c.memory.slice c.i.toNat (x.val + 1) := Memory.slice_widen h
    right
    unfold loadRegisters
    rw [hslice]
    cases c.memory.slice c.i.toNat (x.val + 1) with
    | error fault => rfl
    | ok bytes => rfl
  · left
    rw [loadRegisters_eq_error_iff.2 ⟨Memory.not_fits_iff.1 h, rfl⟩]
    exact ⟨_, rfl, _, _, _, rfl⟩

/-- An instruction that stays within the shorter memory is executed alike in the longer one. -/
theorem widen_execute (c : Core) (size : UInt64) (instruction : Instruction) :
    (c.execute instruction).Overreaches ∨
      (c.widen size).execute instruction = (c.execute instruction).map (·.widen size) := by
  have hstore (bytes : List UInt8) : (Request.ofExcept (c.storeAtIndex bytes)).Overreaches ∨
      Request.ofExcept ((c.widen size).storeAtIndex bytes) =
        (Request.ofExcept (c.storeAtIndex bytes)).map (·.widen size) := by
    rw [Request.map_ofExcept]
    exact (c.widen_storeAtIndex size bytes).imp_right (congrArg Request.ofExcept)
  cases instruction with
  | ret =>
    right
    simp only [execute, Request.map_ofExcept, widen_ret]
  | call nnn =>
    right
    simp only [execute, Request.map_ofExcept, widen_call]
  | skipEqByte x kk => exact .inr (congrArg Request.done (c.widen_skipIf size _))
  | skipNeByte x kk => exact .inr (congrArg Request.done (c.widen_skipIf size _))
  | skipEq x y => exact .inr (congrArg Request.done (c.widen_skipIf size _))
  | skipNe x y => exact .inr (congrArg Request.done (c.widen_skipIf size _))
  | skipKeyDown x =>
    exact .inr (congrArg (Request.testKey _) (funext fun down => c.widen_skipIf size down))
  | skipKeyUp x =>
    exact .inr (congrArg (Request.testKey _) (funext fun down => c.widen_skipIf size !down))
  | draw x y n =>
    by_cases h : c.memory.Fits c.i.toNat n.toNat
    · have hslice : (c.widen size).memory.slice (c.widen size).i.toNat n.toNat =
        c.memory.slice c.i.toNat n.toNat := Memory.slice_widen h
      right
      simp only [execute, hslice]
      cases c.memory.slice c.i.toNat n.toNat with
      | error fault => rfl
      | ok sprite => rfl
    · left
      simp only [execute, Memory.slice_eq_error_iff.2 ⟨Memory.not_fits_iff.1 h, rfl⟩]
      exact ⟨_, rfl, _, _, _, rfl⟩
  | awaitKey x => exact .inr (congrArg Request.awaitKey (funext (c.widen_acceptKey size x)))
  | storeDecimal x => exact hstore _
  | storeRegisters x => exact hstore _
  | loadRegisters x =>
    simp only [execute, Request.map_ofExcept]
    exact (c.widen_loadRegisters size x).imp_right (congrArg Request.ofExcept)
  | _ => exact .inr rfl

end Core

end ChipEight
