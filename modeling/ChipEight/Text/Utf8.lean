namespace ChipEight.Utf8

def encode (cs : List Char) : List UInt8 :=
  cs.flatMap String.utf8EncodeChar

structure Pending where
  bits : Nat
  missing : Nat
  low : Nat
  high : Nat
  deriving DecidableEq

def replacement : Char := '\ufffd'

/-- What a byte starts: a whole character, a longer one, or none. The bounds on the second byte
keep out spellings that are too long, surrogates, and numbers past the last character. -/
def start (b : Nat) : Char ⊕ Pending :=
  if b < 0x80 then .inl (Char.ofNat b)
  else if b < 0xC2 then .inl replacement
  else if b < 0xE0 then .inr ⟨b % 0x20, 1, 0x80, 0xBF⟩
  else if b < 0xF0 then
    .inr ⟨b % 0x10, 2, if b = 0xE0 then 0xA0 else 0x80, if b = 0xED then 0x9F else 0xBF⟩
  else if b < 0xF5 then
    .inr ⟨b % 0x08, 3, if b = 0xF0 then 0x90 else 0x80, if b = 0xF4 then 0x8F else 0xBF⟩
  else .inl replacement

def decodeFrom : Option Pending → List UInt8 → List Char
  | none, [] => []
  | some _, [] => [replacement]
  | none, b :: rest =>
    match start b.toNat with
    | .inl c => c :: decodeFrom none rest
    | .inr p => decodeFrom (some p) rest
  | some p, b :: rest =>
    if p.low ≤ b.toNat ∧ b.toNat ≤ p.high then
      let bits := p.bits * 0x40 + b.toNat % 0x40
      if p.missing ≤ 1 then Char.ofNat bits :: decodeFrom none rest
      else decodeFrom (some ⟨bits, p.missing - 1, 0x80, 0xBF⟩) rest
    else
      match start b.toNat with
      | .inl c => replacement :: c :: decodeFrom none rest
      | .inr q => replacement :: decodeFrom (some q) rest

def decode (bytes : List UInt8) : List Char := decodeFrom none bytes

theorem toNat_byte {b : Nat} (h : b < 0x100) : (UInt8.ofNat b).toNat = b :=
  UInt8.toNat_ofNat_of_lt' h

theorem decodeFrom_last {bits low high b : Nat} (hb : b < 0x100) (hl : low ≤ b) (hh : b ≤ high)
    (rest : List UInt8) :
    decodeFrom (some ⟨bits, 1, low, high⟩) (.ofNat b :: rest) =
      Char.ofNat (bits * 0x40 + b % 0x40) :: decodeFrom none rest := by
  simp [decodeFrom, -UInt8.toNat_ofNat', toNat_byte hb, hl, hh]

theorem decodeFrom_next {bits k low high b : Nat} (hb : b < 0x100) (hl : low ≤ b) (hh : b ≤ high)
    (rest : List UInt8) :
    decodeFrom (some ⟨bits, k + 2, low, high⟩) (.ofNat b :: rest) =
      decodeFrom (some ⟨bits * 0x40 + b % 0x40, k + 1, 0x80, 0xBF⟩) rest := by
  simp [decodeFrom, -UInt8.toNat_ofNat', toNat_byte hb, hl, hh]

theorem decodeFrom_utf8EncodeChar (c : Char) (rest : List UInt8) :
    decodeFrom none (String.utf8EncodeChar c ++ rest) = c :: decodeFrom none rest := by
  have hvalid : c.val.toNat < 0xD800 ∨ 0xDFFF < c.val.toNat ∧ c.val.toNat < 0x110000 := c.valid
  have hc {n : Nat} (h : n = c.val.toNat) : Char.ofNat n = c := h ▸ Char.ofNat_toNat c
  unfold String.utf8EncodeChar
  simp only
  generalize c.val.toNat = v at hvalid hc
  split
  · rw [List.singleton_append, decodeFrom, toNat_byte (by omega), start, if_pos (by omega)]
    simp only [hc]
  · split
    · rw [List.cons_append, List.singleton_append, decodeFrom, toNat_byte (by omega), start,
        if_neg (by omega), if_neg (by omega), if_pos (by omega)]
      simp only
      rw [decodeFrom_last (by omega) (by omega) (by omega), hc (by omega)]
    · split
      · rw [List.cons_append, List.cons_append, List.singleton_append, decodeFrom,
          toNat_byte (by omega), start, if_neg (by omega), if_neg (by omega), if_neg (by omega),
          if_pos (by omega)]
        simp only
        rw [decodeFrom_next (by omega) (by split <;> omega) (by split <;> omega),
          decodeFrom_last (by omega) (by omega) (by omega), hc (by omega)]
      · rw [List.cons_append, List.cons_append, List.cons_append, List.singleton_append, decodeFrom,
          toNat_byte (by omega), start, if_neg (by omega), if_neg (by omega), if_neg (by omega),
          if_neg (by omega), if_pos (by omega)]
        simp only
        rw [decodeFrom_next (by omega) (by split <;> omega) (by split <;> omega),
          decodeFrom_next (by omega) (by omega) (by omega),
          decodeFrom_last (by omega) (by omega) (by omega), hc (by omega)]

theorem decode_encode (cs : List Char) : decode (encode cs) = cs := by
  unfold decode encode
  induction cs with
  | nil => rfl
  | cons c cs ih => rw [List.flatMap_cons, decodeFrom_utf8EncodeChar, ih]

end ChipEight.Utf8
