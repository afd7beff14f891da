import ChipEight.Proofs.Instruction.Fields
import ChipEight.Proofs.Machine.Failure

namespace ChipEight

/-- Why an operation has no result where nothing is taken for granted: an index that is not in its
table, a sum that does not fit its width, a divisor of zero, or a copy to another length. -/
inductive Undefined
  | range
  | overflow
  | divisor
  | length
  deriving DecidableEq

abbrev Guarded (α : Type) : Type := Except Undefined α

namespace Guarded

variable {α β : Type}

def get (xs : List α) (place : Nat) : Guarded α :=
  match xs[place]? with
  | some a => .ok a
  | none => .error .range

def put {n : Nat} (xs : Vector α n) (place : Nat) (a : α) : Guarded (Vector α n) :=
  if h : place < n then .ok (xs.set place a) else .error .range

/-- The items from `first` up to `past`, which is not among them. -/
def stretch (xs : List α) (first past : Nat) : Guarded (List α) :=
  if first ≤ past ∧ past ≤ xs.length then .ok (xs.extract first past) else .error .range

def below (bound value : Nat) : Guarded Nat :=
  if value < bound then .ok value else .error .overflow

def minus (a b : Nat) : Guarded Nat := if b ≤ a then .ok (a - b) else .error .overflow

def quotient (a b : Nat) : Guarded Nat := if b = 0 then .error .divisor else .ok (a / b)

def remainder (a b : Nat) : Guarded Nat := if b = 0 then .error .divisor else .ok (a % b)

def sameLength (xs ys : List α) : Guarded Unit :=
  if xs.length = ys.length then .ok () else .error .length

@[simp] theorem ok_bind (a : α) (f : α → Guarded β) : (Except.ok a >>= f) = f a := rfl

theorem get_eq_ok {xs : List α} {place : Nat} {a : α} (h : xs[place]? = some a) :
    get xs place = .ok a := by
  rw [get, h]

theorem put_eq_ok {n : Nat} {xs : Vector α n} {place : Nat} {a : α} (h : place < n) :
    put xs place a = .ok (xs.set place a) :=
  dif_pos h

theorem stretch_eq_ok {xs : List α} {first past : Nat} (h : first ≤ past)
    (hpast : past ≤ xs.length) : stretch xs first past = .ok (xs.extract first past) :=
  if_pos ⟨h, hpast⟩

theorem below_eq_ok {bound value : Nat} (h : value < bound) : below bound value = .ok value :=
  if_pos h

theorem minus_eq_ok {a b : Nat} (h : b ≤ a) : minus a b = .ok (a - b) := if_pos h

theorem quotient_eq_ok {b : Nat} (a : Nat) (h : 0 < b) : quotient a b = .ok (a / b) :=
  if_neg (Nat.ne_of_gt h)

theorem remainder_eq_ok {b : Nat} (a : Nat) (h : 0 < b) : remainder a b = .ok (a % b) :=
  if_neg (Nat.ne_of_gt h)

theorem sameLength_eq_ok {xs ys : List α} (h : xs.length = ys.length) : sameLength xs ys = .ok () :=
  if_pos h

theorem mapM_eq_ok {f : α → Guarded β} {g : α → β} {xs : List α} (h : ∀ a ∈ xs, f a = .ok (g a)) :
    xs.mapM f = .ok (xs.map g) := by
  induction xs with
  | nil => rfl
  | cons a xs ih =>
    rw [List.mapM_cons, h a List.mem_cons_self, ih fun b hb => h b (List.mem_cons_of_mem a hb)]
    rfl

end Guarded

open Guarded

def shortBound : Nat := 0x10000

def longBound : Nat := 0x10000000000000000

namespace Memory

def guardedSlice (m : Memory) (address len : Nat) : Guarded (Except Fault (List UInt8)) :=
  if m.Fits address len then do
    let bytes ← stretch m.cells.toList address (address + len)
    return .ok bytes
  else return .error (m.outOfBounds address len)

def guardedRead (m : Memory) (address : Nat) : Guarded (Except Fault UInt8) := do
  match ← m.guardedSlice address 1 with
  | .error fault => return .error fault
  | .ok bytes =>
    let b ← get bytes 0
    return .ok b

def guardedWord (m : Memory) (address : Nat) : Guarded (Except Fault Word) := do
  match ← m.guardedSlice address 2 with
  | .error fault => return .error fault
  | .ok bytes =>
    let high ← get bytes 0
    let low ← get bytes 1
    return .ok (.ofBytes high low)

def guardedWriteAll (m : Memory) (address : Nat) (bytes : List UInt8) :
    Guarded (Except Fault Memory) :=
  if m.Fits address bytes.length then do
    let old ← stretch m.cells.toList address (address + bytes.length)
    sameLength old bytes
    return .ok (m.put address bytes)
  else return .error (m.outOfBounds address bytes.length)

def guardedLoad (m : Memory) (source : ByteSource) (offset : Nat) :
    Guarded (Except Fault (Nat × Memory)) :=
  match source.drain with
  | .error fault => return .error fault
  | .ok bytes => do
    let written ← m.guardedWriteAll offset bytes
    return written.map (bytes.length, ·)

variable (m : Memory) (address : Nat)

theorem stretch_of_fits {m : Memory} {address len : Nat} (h : m.Fits address len) :
    stretch m.cells.toList address (address + len) =
      .ok (m.cells.extract address (address + len)).toList := by
  rw [stretch_eq_ok (Nat.le_add_right _ _) (fits_iff.1 h), Array.toList_extract]

theorem guardedSlice_eq_ok (len : Nat) :
    m.guardedSlice address len = .ok (m.slice address len) := by
  unfold guardedSlice slice
  split
  next hfits =>
    rw [stretch_of_fits hfits]
    rfl
  next => rfl

theorem exists_get_slice {m : Memory} {address len k : Nat} (h : m.Fits address len)
    (hk : k < len) :
    ∃ b, m.byte? (address + k) = some b ∧
      get (m.cells.extract address (address + len)).toList k = .ok b := by
  have hsize : address + len ≤ m.cells.size := fits_iff.1 h
  have hlt : address + k < m.cells.size := by omega
  have hbyte := Array.getElem?_eq_getElem hlt
  refine ⟨_, hbyte, get_eq_ok ?_⟩
  rw [Array.getElem?_toList, Array.getElem?_extract, if_pos (by omega), hbyte]

theorem guardedRead_eq_ok : m.guardedRead address = .ok (m.read address) := by
  rw [guardedRead, guardedSlice_eq_ok, ok_bind, slice, read]
  by_cases h : m.Fits address 1
  · obtain ⟨b, hbyte, hget⟩ := exists_get_slice h (k := 0) (by decide)
    rw [Nat.add_zero] at hbyte
    simp only [if_pos h, hget, ok_bind, hbyte]
    rfl
  · have hbyte : m.byte? address = none :=
      Array.getElem?_eq_none (Nat.le_of_lt_succ (not_fits_iff.1 h))
    rw [if_neg h, hbyte]
    rfl

theorem guardedWord_eq_ok : m.guardedWord address = .ok (m.word address) := by
  rw [guardedWord, guardedSlice_eq_ok, ok_bind, slice, word]
  by_cases h : m.Fits address 2
  · obtain ⟨high, hhigh, hfirst⟩ := exists_get_slice h (k := 0) (by decide)
    obtain ⟨low, hlow, hsecond⟩ := exists_get_slice h (k := 1) (by decide)
    rw [Nat.add_zero] at hhigh
    simp only [if_pos h, hfirst, hsecond, ok_bind, hhigh, hlow]
    rfl
  · have hlow : m.byte? (address + 1) = none :=
      Array.getElem?_eq_none (Nat.le_of_lt_succ (not_fits_iff.1 h))
    rw [if_neg h, hlow]
    cases m.byte? address <;> rfl

theorem guardedWriteAll_eq_ok (bytes : List UInt8) :
    m.guardedWriteAll address bytes = .ok (m.writeAll address bytes) := by
  unfold guardedWriteAll writeAll
  split
  next hfits =>
    have hlen := length_of_slice (m := m) (if_pos hfits)
    rw [stretch_of_fits hfits, ok_bind, sameLength_eq_ok hlen]
    rfl
  next => rfl

theorem guardedLoad_eq_ok (source : ByteSource) (offset : Nat) :
    m.guardedLoad source offset = .ok (m.load source offset) := by
  unfold guardedLoad load
  cases source.drain with
  | error fault => rfl
  | ok bytes =>
    simp only [guardedWriteAll_eq_ok]
    change Except.ok _ = Except.ok (m.writeAll offset bytes >>= fun _ => _)
    cases m.writeAll offset bytes with
    | error fault => rfl
    | ok m' => rfl

end Memory

def guardedRegister (place : Nat) : Guarded Register :=
  if h : place < 16 then .ok ⟨place, h⟩ else .error .range

namespace Word

def field (w : Word) (mask shift : UInt16) : Nat := ((w.bits &&& mask) >>> shift).toNat

theorem field_eq (w : Word) {mask shift : UInt16} (hshift : shift.toNat < 16)
    (hmask : mask.toNat >>> shift.toNat = 15) :
    w.field mask shift = w.bits.toNat >>> shift.toNat % 16 := by
  rw [field, UInt16.toNat_shiftRight, UInt16.toNat_and, Nat.mod_eq_of_lt hshift,
    Nat.shiftRight_and_distrib, hmask]
  exact Nat.and_two_pow_sub_one_eq_mod _ 4

theorem guardedRegister_field (w : Word) {mask shift : UInt16} (hshift : shift.toNat < 16)
    (hmask : mask.toNat >>> shift.toNat = 15) :
    guardedRegister (w.field mask shift) = .ok (w.nibble shift.toNat) := by
  have hfield := w.field_eq hshift hmask
  have hlt : w.field mask shift < 16 := hfield ▸ Nat.mod_lt _ (by decide)
  rw [guardedRegister, dif_pos hlt]
  exact congrArg Except.ok (Fin.ext hfield)

end Word

namespace Instruction

/-- The same instructions, of registers that have to be there. -/
def guardedDecode (w : Word) : Guarded (Option Instruction) := do
  let x ← guardedRegister (w.field 0x0F00 8)
  let y ← guardedRegister (w.field 0x00F0 4)
  return match w.field 0xF000 12 with
    | 0x0 =>
      if w.nnn = 0x0E0 then some .clearScreen
      else if w.nnn = 0x0EE then some .ret
      else some (.sys w.nnn)
    | 0x1 => some (.jump w.nnn)
    | 0x2 => some (.call w.nnn)
    | 0x3 => some (.skipEqByte x w.kk)
    | 0x4 => some (.skipNeByte x w.kk)
    | 0x5 => if w.n = 0 then some (.skipEq x y) else none
    | 0x6 => some (.loadByte x w.kk)
    | 0x7 => some (.addByte x w.kk)
    | 0x8 => decodeArithmetic x y w.n.toNat
    | 0x9 => if w.n = 0 then some (.skipNe x y) else none
    | 0xA => some (.loadIndex w.nnn)
    | 0xB => some (.jumpOffset w.nnn)
    | 0xC => some (.random x w.kk)
    | 0xD => some (.draw x y w.n)
    | 0xE =>
      if w.kk = 0x9E then some (.skipKeyDown x)
      else if w.kk = 0xA1 then some (.skipKeyUp x)
      else none
    | _ => decodeTransfer x w.kk.toNat

theorem guardedDecode_eq_ok (w : Word) : guardedDecode w = .ok (decode w) := by
  have hx : guardedRegister (w.field 0x0F00 8) = .ok w.x :=
    w.guardedRegister_field (by decide) (by decide)
  have hy : guardedRegister (w.field 0x00F0 4) = .ok w.y :=
    w.guardedRegister_field (by decide) (by decide)
  have hfamily : w.field 0xF000 12 = w.family.val := w.field_eq (by decide) (by decide)
  unfold guardedDecode
  rw [hx, hy, hfamily]
  rfl

end Instruction

namespace Core

def guardedFetch (c : Core) : Guarded (Except Fault Word) := c.memory.guardedWord c.pc.toNat

def guardedRet (c : Core) : Guarded Request :=
  if c.sp = 0 then return .fail .stackUnderflow
  else do
    let sp ← minus c.sp.toNat 1
    let target ← get c.stack.toList sp
    return .done { c with sp := .ofNat sp, pc := target }

def guardedCall (c : Core) (target : UInt16) : Guarded Request :=
  if h : c.sp.toNat < stackDepth then do
    let sp ← below shortBound (c.sp.toNat + 1)
    return .done { c with stack := c.stack.set c.sp.toNat c.pc, sp := .ofNat sp, pc := target }
  else return .fail (.stackOverflow stackDepth)

def guardedJumpOffset (c : Core) (nnn : UInt16) : Guarded Request := do
  let pc ← below shortBound (nnn.toNat + (c.getV .first).toNat)
  return .done { c with pc := .ofNat pc }

def guardedLoadGlyph (c : Core) (x : Register) : Guarded Request := do
  let offset ← below shortBound ((c.getV x).toNat * Font.glyphSize.toNat)
  let i ← below shortBound (Font.address.toNat + offset)
  return .done { c with i := .ofNat i }

def guardedDigits (b : UInt8) : Guarded (List UInt8) := do
  let hundreds ← quotient b.toNat 100
  let tens ← quotient b.toNat 10
  let tens ← remainder tens 10
  let ones ← remainder b.toNat 10
  return [.ofNat hundreds, .ofNat tens, .ofNat ones]

def guardedStoreAtIndex (c : Core) (bytes : List UInt8) : Guarded Request := do
  let written ← c.memory.guardedWriteAll c.i.toNat bytes
  return .ofExcept (written.map fun memory => { c with memory })

def guardedRegistersTo (c : Core) (x : Register) : Guarded (List UInt8) := do
  let len ← below longBound (x.val + 1)
  stretch c.v.toList 0 len

def guardedLoadRegisters (c : Core) (x : Register) : Guarded Request := do
  let len ← below longBound (x.val + 1)
  match ← c.memory.guardedSlice c.i.toNat len with
  | .error fault => return .fail fault
  | .ok bytes =>
    let old ← c.guardedRegistersTo x
    sameLength old bytes
    return .done (c.setRegisters bytes)

def guardedDraw (c : Core) (x y : Register) (n : UInt8) : Guarded Request := do
  match ← c.memory.guardedSlice c.i.toNat n.toNat with
  | .ok sprite =>
    return .draw (c.getV x).toNat (c.getV y).toNat sprite fun hit => c.setV .flag hit.toUInt8
  | .error fault => return .fail fault

def guardedExecute (c : Core) : Instruction → Guarded Request
  | .ret => c.guardedRet
  | .call nnn => c.guardedCall nnn
  | .jumpOffset nnn => c.guardedJumpOffset nnn
  | .draw x y n => c.guardedDraw x y n
  | .loadGlyph x => c.guardedLoadGlyph x
  | .storeDecimal x => do
    let digits ← guardedDigits (c.getV x)
    c.guardedStoreAtIndex digits
  | .storeRegisters x => do
    let bytes ← c.guardedRegistersTo x
    c.guardedStoreAtIndex bytes
  | .loadRegisters x => c.guardedLoadRegisters x
  -- What is left looks at registers and wraps its sums.
  | instruction => return c.execute instruction

variable (c : Core)

theorem guardedRet_eq_ok (h : c.sp.toNat ≤ stackDepth) :
    c.guardedRet = .ok (c.execute .ret) := by
  simp only [execute, ret, returnAddress?, guardedRet]
  by_cases hzero : c.sp = 0
  · rw [if_pos hzero, if_pos hzero]
    rfl
  · have hone : (1 : UInt16) ≤ c.sp := UInt16.le_iff_toNat_le.2
      (Nat.one_le_iff_ne_zero.2 fun h0 => hzero (UInt16.toNat_inj.1 h0))
    have hpos : 1 ≤ c.sp.toNat := UInt16.le_iff_toNat_le.1 hone
    have hlt : c.sp.toNat - 1 < stackDepth := by omega
    have hslot : c.stack[c.sp.toNat - 1]? = some c.stack[c.sp.toNat - 1] :=
      Vector.getElem?_eq_getElem hlt
    have hget : get c.stack.toList (c.sp.toNat - 1) = .ok c.stack[c.sp.toNat - 1] :=
      get_eq_ok (by rw [Vector.getElem?_toList, hslot])
    have hsp : UInt16.ofNat (c.sp.toNat - 1) = c.sp - 1 := by
      rw [← UInt16.toNat_inj, UInt16.toNat_sub_of_le _ _ hone, UInt16.toNat_one,
        UInt16.toNat_ofNat_of_lt' (Nat.lt_of_le_of_lt (Nat.sub_le _ _) c.sp.toNat_lt)]
    rw [if_neg hzero, if_neg hzero, minus_eq_ok hpos, ok_bind, hget, hslot, ← hsp]
    rfl

theorem guardedCall_eq_ok (target : UInt16) :
    c.guardedCall target = .ok (c.execute (.call target)) := by
  simp only [execute, call, guardedCall]
  by_cases h : c.sp.toNat < stackDepth
  · have hsp : UInt16.ofNat (c.sp.toNat + 1) = c.sp + 1 := by
      rw [UInt16.ofNat_add, UInt16.ofNat_toNat]
      rfl
    rw [dif_pos h, dif_pos h, below_eq_ok (by unfold stackDepth at h; unfold shortBound; omega),
      ← hsp]
    rfl
  · rw [dif_neg h, dif_neg h]
    rfl

theorem guardedJumpOffset_eq_ok {nnn : UInt16} (h : nnn.toNat ≤ 0xFFF) :
    c.guardedJumpOffset nnn = .ok (c.execute (.jumpOffset nnn)) := by
  have hv := (c.getV .first).toNat_lt
  have hpc : UInt16.ofNat (nnn.toNat + (c.getV .first).toNat) =
      nnn + (c.getV .first).toUInt16 := by
    rw [UInt16.ofNat_add, UInt16.ofNat_toNat, UInt16.ofNat_uInt8ToNat]
  rw [guardedJumpOffset, below_eq_ok (by unfold shortBound; omega), ok_bind, hpc]
  rfl

theorem guardedLoadGlyph_eq_ok (x : Register) :
    c.guardedLoadGlyph x = .ok (c.execute (.loadGlyph x)) := by
  have hv := (c.getV x).toNat_lt
  have hsize : Font.glyphSize.toNat = 5 := rfl
  have hstart : Font.address.toNat = 0 := rfl
  have hi : UInt16.ofNat (Font.address.toNat + (c.getV x).toNat * Font.glyphSize.toNat) =
      Font.glyph (c.getV x) := by
    rw [UInt16.ofNat_add, UInt16.ofNat_mul, UInt16.ofNat_toNat, UInt16.ofNat_toNat,
      UInt16.ofNat_uInt8ToNat]
    rfl
  rw [guardedLoadGlyph, below_eq_ok (by rw [hsize, shortBound]; omega), ok_bind,
    below_eq_ok (by rw [hsize, hstart, shortBound]; omega), ok_bind, hi]
  rfl

theorem guardedDigits_eq_ok (b : UInt8) : guardedDigits b = .ok (decimalDigits b) := by
  have hdigits : decimalDigits b =
      [.ofNat (b.toNat / 100), .ofNat (b.toNat / 10 % 10), .ofNat (b.toNat % 10)] := by
    have hb := b.toNat_lt
    simp [decimalDigits, ← UInt8.toNat_inj]
    omega
  rw [hdigits]
  rfl

theorem guardedStoreAtIndex_eq_ok (bytes : List UInt8) :
    c.guardedStoreAtIndex bytes = .ok (.ofExcept (c.storeAtIndex bytes)) := by
  rw [guardedStoreAtIndex, Memory.guardedWriteAll_eq_ok, storeAtIndex]
  cases c.memory.writeAll c.i.toNat bytes with
  | error fault => rfl
  | ok memory => rfl

theorem guardedRegistersTo_eq_ok (x : Register) :
    c.guardedRegistersTo x = .ok (c.registersTo x) := by
  have hx := x.isLt
  rw [guardedRegistersTo, below_eq_ok (by unfold longBound; omega), ok_bind,
    stretch_eq_ok (Nat.zero_le _) (by rw [Vector.length_toList]; exact hx)]
  rfl

theorem guardedLoadRegisters_eq_ok (x : Register) :
    c.guardedLoadRegisters x = .ok (c.execute (.loadRegisters x)) := by
  have hx := x.isLt
  rw [guardedLoadRegisters, below_eq_ok (by unfold longBound; omega), ok_bind,
    Memory.guardedSlice_eq_ok, ok_bind, execute, loadRegisters]
  cases hs : c.memory.slice c.i.toNat (x.val + 1) with
  | error fault => rfl
  | ok bytes =>
    have hlen : (c.registersTo x).length = bytes.length := by
      rw [length_registersTo, Memory.length_of_slice hs]
    simp only [guardedRegistersTo_eq_ok, ok_bind, sameLength_eq_ok hlen]
    rfl

theorem guardedDraw_eq_ok (x y : Register) (n : UInt8) :
    c.guardedDraw x y n = .ok (c.execute (.draw x y n)) := by
  rw [guardedDraw, Memory.guardedSlice_eq_ok]
  simp only [execute]
  cases c.memory.slice c.i.toNat n.toNat with
  | error fault => rfl
  | ok sprite => rfl

theorem guardedExecute_eq_ok (hsp : c.sp.toNat ≤ stackDepth) {w : Word} {instruction : Instruction}
    (hd : Instruction.decode w = some instruction) :
    c.guardedExecute instruction = .ok (c.execute instruction) := by
  cases instruction with
  | ret => exact c.guardedRet_eq_ok hsp
  | call nnn => exact c.guardedCall_eq_ok nnn
  | jumpOffset nnn => exact c.guardedJumpOffset_eq_ok (Instruction.toNat_of_decode_jumpOffset hd)
  | draw x y n => exact c.guardedDraw_eq_ok x y n
  | loadGlyph x => exact c.guardedLoadGlyph_eq_ok x
  | storeDecimal x =>
    rw [guardedExecute, guardedDigits_eq_ok]
    exact c.guardedStoreAtIndex_eq_ok _
  | storeRegisters x =>
    rw [guardedExecute, guardedRegistersTo_eq_ok]
    exact c.guardedStoreAtIndex_eq_ok _
  | loadRegisters x => exact c.guardedLoadRegisters_eq_ok x
  | _ => rfl

end Core

end ChipEight
