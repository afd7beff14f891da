import ChipEight.Memory

namespace ChipEight

theorem Word.toNat_ofBytes (high low : UInt8) :
    (Word.ofBytes high low).bits.toNat = 256 * high.toNat + low.toNat := by
  have hh := high.toNat_lt
  have hl := low.toNat_lt
  have hs : high.toNat <<< 8 % 65536 = 2 ^ 8 * high.toNat := by
    rw [Nat.shiftLeft_eq]
    omega
  simp only [Word.ofBytes, UInt16.toNat_or, UInt16.toNat_shiftLeft, UInt8.toNat_toUInt16]
  simp only [UInt16.toNat_ofNat, Nat.reducePow, Nat.reduceMod, hs]
  exact (Nat.two_pow_add_eq_or_of_lt hl high.toNat).symm

theorem Word.eq_ofBytes_iff {word : Word} {high low : UInt8} :
    word = .ofBytes high low ↔ word.bits.toNat = 256 * high.toNat + low.toNat := by
  rw [← Word.toNat_ofBytes, UInt16.toNat_inj]
  cases word
  simp [Word.ofBytes]

namespace ByteSource

variable {s : ByteSource} {bytes : List UInt8} {error : IoError}

theorem drain_of_failure (h : s.failure = some error) : s.drain = .error (.io error) := by
  simp [drain, h]

theorem drain_of_no_failure (h : s.failure = none) : s.drain = .ok s.bytes := by
  simp [drain, h]

end ByteSource

namespace Memory

variable {m m' : Memory} {address len : Nat} {bytes : List UInt8} {value : UInt8} {word : Word}
  {fault : Fault}

theorem byte?_eq_none_iff : m.byte? address = none ↔ m.size ≤ address := by
  simp [byte?, Memory.size]

theorem byte?_zeroed {size : UInt64} (h : (zeroed size).byte? address = some value) : value = 0 := by
  simp only [byte?, zeroed, Array.getElem?_replicate] at h
  split at h <;> simp_all

theorem eq_of_byte? (h : ∀ k, m.byte? k = m'.byte? k) : m = m' :=
  Memory.ext (Array.ext_getElem? h)

section Read

theorem read_eq_ok_iff : m.read address = .ok value ↔ m.byte? address = some value := by
  unfold Memory.read
  cases m.byte? address <;> simp

theorem read_eq_error_iff :
    m.read address = .error fault ↔
      m.size < address + 1 ∧ fault = .outOfBounds address 1 m.size := by
  rw [Nat.lt_succ_iff, ← byte?_eq_none_iff]
  unfold Memory.read
  cases m.byte? address <;> simp [outOfBounds, eq_comm]

theorem word_eq_ok_iff :
    m.word address = .ok word ↔
      ∃ high low, m.byte? address = some high ∧ m.byte? (address + 1) = some low ∧
        word.bits.toNat = 256 * high.toNat + low.toNat := by
  unfold Memory.word
  cases m.byte? address with
  | none => simp
  | some high =>
    cases m.byte? (address + 1) with
    | none => simp
    | some low => simp [← Word.eq_ofBytes_iff, eq_comm]

theorem word_eq_error_iff :
    m.word address = .error fault ↔
      m.size < address + 2 ∧ fault = .outOfBounds address 2 m.size := by
  cases hh : m.byte? address with
  | none =>
    have hlt : m.size < address + 2 := by
      have := byte?_eq_none_iff.1 hh
      omega
    simp [Memory.word, hh, hlt, outOfBounds, eq_comm]
  | some high =>
    cases hl : m.byte? (address + 1) with
    | none =>
      have hlt : m.size < address + 2 := by
        have := byte?_eq_none_iff.1 hl
        omega
      simp [Memory.word, hh, hl, hlt, outOfBounds, eq_comm]
    | some low =>
      have hlt : ¬ m.size < address + 2 := by
        have hne : ¬ m.size ≤ address + 1 := fun h => by simp [byte?_eq_none_iff.2 h] at hl
        omega
      simp [Memory.word, hh, hl, hlt]

theorem slice_eq_ok_iff :
    m.slice address len = .ok bytes ↔
      m.Fits address len ∧ bytes = (m.cells.extract address (address + len)).toList := by
  by_cases h : m.Fits address len <;> simp [slice, h, eq_comm]

theorem length_of_slice (h : m.slice address len = .ok bytes) : bytes.length = len := by
  obtain ⟨hfits, rfl⟩ := slice_eq_ok_iff.1 h
  have hend : address + len ≤ m.cells.size := fits_iff.1 hfits
  rw [Array.length_toList, Array.size_extract]
  omega

theorem getElem?_of_slice (h : m.slice address len = .ok bytes) {k : Nat} (hk : k < len) :
    bytes[k]? = m.byte? (address + k) := by
  obtain ⟨hfits, rfl⟩ := slice_eq_ok_iff.1 h
  have hend : address + len ≤ m.cells.size := fits_iff.1 hfits
  rw [Array.getElem?_toList, Array.getElem?_extract, if_pos (by omega), byte?]

theorem slice_eq_ok_of_getElem? (hfits : m.Fits address len) (hlen : bytes.length = len)
    (h : ∀ k < len, bytes[k]? = m.byte? (address + k)) : m.slice address len = .ok bytes := by
  obtain ⟨there, hthere⟩ : ∃ there, m.slice address len = .ok there :=
    ⟨_, slice_eq_ok_iff.2 ⟨hfits, rfl⟩⟩
  have hlength := length_of_slice hthere
  rw [hthere]
  congr 1
  apply List.ext_getElem?
  intro k
  by_cases hk : k < len
  · rw [getElem?_of_slice hthere hk, h k hk]
  · rw [List.getElem?_eq_none (by omega), List.getElem?_eq_none (by omega)]

theorem slice_of_slice (h : m.slice address len = .ok bytes) {start count : Nat}
    (hle : start + count ≤ len) :
    m.slice (address + start) count = .ok ((bytes.drop start).take count) := by
  have hlen := length_of_slice h
  have hend := fits_iff.1 (slice_eq_ok_iff.1 h).1
  apply slice_eq_ok_of_getElem?
  · rw [fits_iff]
    omega
  · rw [List.length_take, List.length_drop]
    omega
  · intro k hk
    rw [List.getElem?_take_of_lt hk, List.getElem?_drop, getElem?_of_slice h (by omega),
      Nat.add_assoc]

theorem slice_eq_error_iff :
    m.slice address len = .error fault ↔
      m.size < address + len ∧ fault = .outOfBounds address len m.size := by
  by_cases h : m.Fits address len
  · have hlt : ¬ m.size < address + len := Nat.not_lt.2 (fits_iff.1 h)
    simp [slice, h, hlt]
  · have hlt := not_fits_iff.1 h
    simp [slice, h, hlt, outOfBounds, eq_comm]

end Read

section Write

theorem writeAll_eq_error_iff :
    m.writeAll address bytes = .error fault ↔
      m.size < address + bytes.length ∧ fault = .outOfBounds address bytes.length m.size := by
  by_cases h : m.Fits address bytes.length
  · have hlt : ¬ m.size < address + bytes.length := Nat.not_lt.2 (fits_iff.1 h)
    simp [writeAll, h, hlt]
  · have hlt := not_fits_iff.1 h
    simp [writeAll, h, hlt, outOfBounds, eq_comm]

theorem size_of_writeAll (h : m.writeAll address bytes = .ok m') : m'.size = m.size := by
  obtain ⟨_, rfl⟩ := writeAll_eq_ok_iff.1 h
  exact size_overlay _ _ _

/-- Memory after a write: the bytes written from `address` on, and what was there before elsewhere. -/
theorem byte?_of_writeAll (h : m.writeAll address bytes = .ok m') (k : Nat) :
    m'.byte? k =
      if address ≤ k ∧ k < address + bytes.length then bytes[k - address]? else m.byte? k := by
  obtain ⟨hfits, rfl⟩ := writeAll_eq_ok_iff.1 h
  have hend : address + bytes.length ≤ m.cells.size := fits_iff.1 hfits
  have hin : address ≤ k ∧ k < address + bytes.length ∧ k < m.cells.size ↔
      address ≤ k ∧ k < address + bytes.length := by omega
  simp only [byte?, put, getElem?_overlay, hin]

theorem slice_of_writeAll (h : m.writeAll address bytes = .ok m') :
    m'.slice address bytes.length = .ok bytes := by
  apply slice_eq_ok_of_getElem?
  · rw [fits_iff, size_of_writeAll h]
    exact fits_iff.1 (writeAll_eq_ok_iff.1 h).1
  · rfl
  · intro k hk
    rw [byte?_of_writeAll h, if_pos (by omega), Nat.add_sub_cancel_left]

theorem writeAll_of_slice (h : m.slice address len = .ok bytes) :
    m.writeAll address bytes = .ok m := by
  have hlen := length_of_slice h
  have hwrite := writeAll_eq_ok_iff.2 ⟨hlen ▸ (slice_eq_ok_iff.1 h).1, rfl⟩
  rw [hwrite]
  congr 1
  apply eq_of_byte?
  intro k
  rw [byte?_of_writeAll hwrite]
  split
  next hin => rw [getElem?_of_slice h (by omega), Nat.add_sub_cancel' hin.1]
  next => rfl

theorem fill_eq_writeAll (m : Memory) (address len : Nat) (value : UInt8) :
    m.fill address len value = m.writeAll address (.replicate len value) := by
  unfold fill
  split
  next => rfl
  next h => simp [writeAll, h]

variable {source : ByteSource} {offset : Nat}

theorem load_of_drain_error (h : source.drain = .error fault) :
    m.load source offset = .error fault := by
  rw [load, h]
  rfl

theorem load_of_drain (h : source.drain = .ok bytes) :
    m.load source offset = (m.writeAll offset bytes).map (bytes.length, ·) := by
  rw [load, h]
  change (m.writeAll offset bytes >>= fun m' => pure (bytes.length, m')) = _
  cases m.writeAll offset bytes with
  | error fault => rfl
  | ok m' => rfl

theorem load_ofBytes (h : m.Fits offset bytes.length) :
    m.load (.ofBytes bytes) offset = .ok (bytes.length, m.put offset bytes) :=
  (load_of_drain rfl).trans (congrArg _ (writeAll_eq_ok_iff.2 ⟨h, rfl⟩))

theorem load_eq_ok_iff {count : Nat} :
    m.load source offset = .ok (count, m') ↔
      ∃ bytes, source.drain = .ok bytes ∧ count = bytes.length ∧ m.writeAll offset bytes = .ok m' := by
  cases hs : source.drain with
  | error fault => simp [load_of_drain_error hs]
  | ok bytes =>
    cases hw : m.writeAll offset bytes with
    | error fault => simp [load_of_drain hs, hw, Except.map]
    | ok written => simp [load_of_drain hs, hw, Except.map, eq_comm]

theorem size_of_load {loaded : Nat × Memory} (h : m.load source offset = .ok loaded) :
    loaded.2.size = m.size := by
  obtain ⟨bytes, _, _, hwrite⟩ := load_eq_ok_iff.1 h
  exact size_of_writeAll hwrite

end Write

end Memory

end ChipEight
