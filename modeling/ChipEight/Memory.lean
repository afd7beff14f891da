import ChipEight.Fault

namespace ChipEight

/-- Bytes to be loaded: all of `bytes`, then the failure, if there is one. -/
structure ByteSource where
  bytes : List UInt8
  failure : Option IoError
  deriving DecidableEq

namespace ByteSource

def ofBytes (bytes : List UInt8) : ByteSource := ⟨bytes, none⟩

def drain (s : ByteSource) : Except Fault (List UInt8) :=
  match s.failure with
  | none => .ok s.bytes
  | some error => .error (.io error)

end ByteSource

@[ext] structure Memory where
  cells : Array UInt8
  size_lt : cells.size < UInt64.size
  deriving DecidableEq

namespace Memory

def zeroed (size : UInt64) : Memory where
  cells := .replicate size.toNat 0
  size_lt := by
    rw [Array.size_replicate]
    exact size.toNat_lt_size

def size (m : Memory) : Nat := m.cells.size

@[simp] theorem size_zeroed (size : UInt64) : (zeroed size).size = size.toNat := by
  simp [zeroed, Memory.size]

def byte? (m : Memory) (address : Nat) : Option UInt8 := m.cells[address]?

/-- A sum in 64 bits, unless it overflows. -/
def checkedAdd (a b : Nat) : Option Nat := if a + b < UInt64.size then some (a + b) else none

/-- Whether the `len` bytes from `address` on are all in memory. An empty access may stand at the
end of memory, not past it. -/
def Fits (m : Memory) (address len : Nat) : Prop :=
  match checkedAdd address len with
  | some stop => stop ≤ m.size
  | none => False

instance (m : Memory) (address len : Nat) : Decidable (m.Fits address len) :=
  match h : checkedAdd address len with
  | some stop => decidable_of_iff (stop ≤ m.size) (by simp only [Fits, h])
  | none => isFalse (by simp only [Fits, h, not_false_eq_true])

/-- A sum that overflows is past the end of any memory. -/
theorem fits_iff {m : Memory} {address len : Nat} : m.Fits address len ↔ address + len ≤ m.size := by
  have hsize : m.size < UInt64.size := m.size_lt
  unfold Fits checkedAdd
  by_cases h : address + len < UInt64.size
  · rw [if_pos h]
  · rw [if_neg h]
    exact iff_of_false id fun hle => h (Nat.lt_of_le_of_lt hle hsize)

theorem not_fits_iff {m : Memory} {address len : Nat} :
    ¬ m.Fits address len ↔ m.size < address + len := by
  rw [fits_iff, Nat.not_le]

def outOfBounds (m : Memory) (address len : Nat) : Fault := .outOfBounds address len m.size

def slice (m : Memory) (address len : Nat) : Except Fault (List UInt8) :=
  if m.Fits address len then .ok (m.cells.extract address (address + len)).toList
  else .error (m.outOfBounds address len)

def read (m : Memory) (address : Nat) : Except Fault UInt8 :=
  match m.byte? address with
  | some b => .ok b
  | none => .error (m.outOfBounds address 1)

def word (m : Memory) (address : Nat) : Except Fault Word :=
  match m.byte? address, m.byte? (address + 1) with
  | some high, some low => .ok (.ofBytes high low)
  | _, _ => .error (m.outOfBounds address 2)

/-- Puts `bytes` into the cells from `address` on; those past the end are dropped. -/
def overlay (cells : Array UInt8) (address : Nat) : List UInt8 → Array UInt8
  | [] => cells
  | b :: bytes => overlay (cells.setIfInBounds address b) (address + 1) bytes

@[simp] theorem size_overlay (cells : Array UInt8) (address : Nat) (bytes : List UInt8) :
    (overlay cells address bytes).size = cells.size := by
  induction bytes generalizing cells address with
  | nil => rfl
  | cons b bytes ih => simp [overlay, ih]

theorem getElem?_overlay (cells : Array UInt8) (address : Nat) (bytes : List UInt8) (k : Nat) :
    (overlay cells address bytes)[k]? =
      if address ≤ k ∧ k < address + bytes.length ∧ k < cells.size then bytes[k - address]?
      else cells[k]? := by
  induction bytes generalizing cells address with
  | nil =>
    simp only [overlay, List.length_nil, Nat.add_zero]
    rw [if_neg (by omega)]
  | cons b bytes ih =>
    rw [overlay, ih, Array.size_setIfInBounds, Array.getElem?_setIfInBounds, List.length_cons]
    by_cases hk : address = k
    · subst hk
      rw [if_neg (by omega), if_pos rfl, Nat.sub_self, List.getElem?_cons_zero]
      by_cases hs : address < cells.size
      · rw [if_pos hs, if_pos ⟨Nat.le_refl _, by omega, hs⟩]
      · rw [if_neg hs, if_neg fun h => hs h.2.2, Array.getElem?_eq_none (by omega)]
    · by_cases hin : address ≤ k ∧ k < address + (bytes.length + 1) ∧ k < cells.size
      · obtain ⟨d, rfl⟩ : ∃ d, k = address + 1 + d := ⟨k - (address + 1), by omega⟩
        rw [if_pos (by omega), if_pos hin, show address + 1 + d - address = d + 1 by omega,
          Nat.add_sub_cancel_left, List.getElem?_cons_succ]
      · rw [if_neg (by omega), if_neg hk, if_neg hin]

def put (m : Memory) (address : Nat) (bytes : List UInt8) : Memory where
  cells := overlay m.cells address bytes
  size_lt := by
    rw [size_overlay]
    exact m.size_lt

@[simp] theorem size_put (m : Memory) (address : Nat) (bytes : List UInt8) :
    (m.put address bytes).size = m.size :=
  size_overlay m.cells address bytes

def writeAll (m : Memory) (address : Nat) (bytes : List UInt8) : Except Fault Memory :=
  if m.Fits address bytes.length then .ok (m.put address bytes)
  else .error (m.outOfBounds address bytes.length)

theorem writeAll_eq_ok_iff {m m' : Memory} {address : Nat} {bytes : List UInt8} :
    m.writeAll address bytes = .ok m' ↔
      m.Fits address bytes.length ∧ m' = m.put address bytes := by
  unfold writeAll
  split <;> simp_all [eq_comm]

def write (m : Memory) (address : Nat) (value : UInt8) : Except Fault Memory :=
  m.writeAll address [value]

def fill (m : Memory) (address len : Nat) (value : UInt8) : Except Fault Memory :=
  if m.Fits address len then m.writeAll address (.replicate len value)
  else .error (m.outOfBounds address len)

def load (m : Memory) (source : ByteSource) (offset : Nat) : Except Fault (Nat × Memory) := do
  let bytes ← source.drain
  let m ← m.writeAll offset bytes
  return (bytes.length, m)

end Memory

end ChipEight
