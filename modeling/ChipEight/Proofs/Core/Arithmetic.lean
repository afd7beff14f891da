import ChipEight.Core.Execute

namespace ChipEight

/-- What the instruction with the trailing nibble `n` makes of the numbers `a` in Vx and `b` in Vy:
a value and, for some of them, a flag. -/
inductive Computes (a b : Nat) : Nat → Nat → Option Nat → Prop
  | move : Computes a b 0x0 b none
  | or : Computes a b 0x1 (a ||| b) none
  | and : Computes a b 0x2 (a &&& b) none
  | xor : Computes a b 0x3 (a ^^^ b) none
  | add {value flag : Nat} (hflag : flag ≤ 1) (h : value + 256 * flag = a + b) :
      Computes a b 0x4 value (some flag)
  | sub {value : Nat} (h : (value : Int) = ((a : Int) - b) % 256) :
      Computes a b 0x5 value (some (if b < a then 1 else 0))
  | shiftRight {value flag : Nat} (hflag : flag ≤ 1) (h : a = 2 * value + flag) :
      Computes a b 0x6 value (some flag)
  | subFrom {value : Nat} (h : (value : Int) = ((b : Int) - a) % 256) :
      Computes a b 0x7 value (some (if a < b then 1 else 0))
  | shiftLeft {value flag : Nat} (hflag : flag ≤ 1) (h : 2 * a = value + 256 * flag) :
      Computes a b 0xE value (some flag)

namespace Computes

theorem toNat_decide {p q : Prop} [Decidable p] [Decidable q] (h : p ↔ q) :
    (decide p).toNat = if q then 1 else 0 := by
  by_cases hq : q
  · rw [decide_eq_true (h.2 hq), if_pos hq, Bool.toNat_true]
  · rw [decide_eq_false fun hp => hq (h.1 hp), if_neg hq, Bool.toNat_false]

variable {a b : UInt8}

theorem add_bytes :
    Computes a.toNat b.toNat 0x4 (a + b).toNat
      (some (decide (255 < a.toNat + b.toNat)).toNat) := by
  have ha := a.toNat_lt
  have hb := b.toNat_lt
  have hsum : (a + b).toNat = (a.toNat + b.toNat) % 256 := UInt8.toNat_add a b
  apply add
  · exact Bool.toNat_le _
  · rw [hsum, toNat_decide Iff.rfl]
    split <;> omega

theorem cast_toNat_sub (a b : UInt8) :
    ((a - b).toNat : Int) = ((a.toNat : Int) - b.toNat) % 256 := by
  have ha := a.toNat_lt
  have hb := b.toNat_lt
  rw [UInt8.toNat_sub]
  omega

theorem sub_bytes :
    Computes a.toNat b.toNat 0x5 (a - b).toNat (some (decide (b < a)).toNat) := by
  rw [toNat_decide UInt8.lt_iff_toNat_lt]
  exact sub (cast_toNat_sub a b)

theorem subFrom_bytes :
    Computes a.toNat b.toNat 0x7 (b - a).toNat (some (decide (a < b)).toNat) := by
  rw [toNat_decide UInt8.lt_iff_toNat_lt]
  exact subFrom (cast_toNat_sub b a)

theorem shiftRight_bytes :
    Computes a.toNat b.toNat 0x6 (a >>> 1).toNat (some (decide (a &&& 1 = 1)).toNat) := by
  have hvalue : (a >>> 1).toNat = a.toNat / 2 := by
    rw [UInt8.toNat_shiftRight, Nat.shiftRight_eq_div_pow]
    rfl
  have hbit : (a &&& 1).toNat = a.toNat % 2 := Nat.and_two_pow_sub_one_eq_mod a.toNat 1
  have hone : a &&& 1 = 1 ↔ a.toNat % 2 = 1 := by
    rw [← UInt8.toNat_inj, hbit]
    rfl
  apply shiftRight
  · exact Bool.toNat_le _
  · rw [hvalue, toNat_decide hone]
    split <;> omega

theorem shiftLeft_bytes :
    Computes a.toNat b.toNat 0xE (a <<< 1).toNat (some (decide (a >>> 7 = 1)).toNat) := by
  have ha := a.toNat_lt
  have hvalue : (a <<< 1).toNat = 2 * a.toNat % 256 := by
    rw [UInt8.toNat_shiftLeft, Nat.shiftLeft_eq, Nat.mul_comm]
    rfl
  have hbit : (a >>> 7).toNat = a.toNat / 128 := by
    rw [UInt8.toNat_shiftRight, Nat.shiftRight_eq_div_pow]
    rfl
  have hone : a >>> 7 = 1 ↔ a.toNat / 128 = 1 := by
    rw [← UInt8.toNat_inj, hbit]
    rfl
  apply shiftLeft
  · exact Bool.toNat_le _
  · rw [hvalue, toNat_decide hone]
    split <;> omega

end Computes

namespace Core

/-- The core `c'` differs from `c` in that `value` is in Vx and the flag, if there is one, in VF. If
Vx is VF, the value is there and not the flag. -/
structure Puts (c c' : Core) (x : Register) (value : Nat) (flag : Option Nat) : Prop where
  value_eq : (c'.getV x).toNat = value
  flag_eq : ∀ f ∈ flag, x ≠ .flag → (c'.getV .flag).toNat = f
  others : ∀ z, z ≠ x → (z = .flag → flag = none) → c'.getV z = c.getV z
  rest : c' = { c with v := c'.v }

theorem puts_setV (c : Core) (x : Register) (b : UInt8) : c.Puts (c.setV x b) x b.toNat none where
  value_eq := congrArg UInt8.toNat (c.getV_setV_self x b)
  flag_eq := nofun
  others _ hne _ := c.getV_setV_of_ne hne.symm b
  rest := rfl

theorem puts_setFlagged (c : Core) (x : Register) (flag : Bool) (b : UInt8) :
    c.Puts (c.setFlagged x flag b) x b.toNat (some flag.toNat) where
  value_eq := congrArg UInt8.toNat (getV_setV_self _ x b)
  flag_eq := by
    intro f hf hne
    obtain rfl := Option.some.inj hf
    rw [setFlagged, getV_setV_of_ne _ hne, getV_setV_self]
    cases flag <;> rfl
  others := by
    intro z hne hflag
    have hz : z ≠ .flag := fun he => nomatch hflag he
    rw [setFlagged, getV_setV_of_ne _ hne.symm, getV_setV_of_ne _ hz.symm]
  rest := rfl

theorem exists_puts_of_decodeArithmetic (c : Core) {x y : Register} {n : Nat}
    {instruction : Instruction} (h : Instruction.decodeArithmetic x y n = some instruction) :
    ∃ c' value flag, c.execute instruction = .done c' ∧
      Computes (c.getV x).toNat (c.getV y).toNat n value flag ∧ c.Puts c' x value flag := by
  have hset {b : UInt8} (hb : Computes (c.getV x).toNat (c.getV y).toNat n b.toNat none) :
      ∃ c' value flag, Request.done (c.setV x b) = .done c' ∧
        Computes (c.getV x).toNat (c.getV y).toNat n value flag ∧ c.Puts c' x value flag :=
    ⟨_, _, _, rfl, hb, c.puts_setV x b⟩
  have hflagged {flag : Bool} {b : UInt8}
      (hb : Computes (c.getV x).toNat (c.getV y).toNat n b.toNat (some flag.toNat)) :
      ∃ c' value flag', Request.done (c.setFlagged x flag b) = .done c' ∧
        Computes (c.getV x).toNat (c.getV y).toNat n value flag' ∧ c.Puts c' x value flag' :=
    ⟨_, _, _, rfl, hb, c.puts_setFlagged x flag b⟩
  unfold Instruction.decodeArithmetic at h
  split at h <;> cases h
  · exact hset .move
  · exact hset (UInt8.toNat_or .. ▸ .or)
  · exact hset (UInt8.toNat_and .. ▸ .and)
  · exact hset (UInt8.toNat_xor .. ▸ .xor)
  · exact hflagged .add_bytes
  · exact hflagged .sub_bytes
  · exact hflagged .shiftRight_bytes
  · exact hflagged .subFrom_bytes
  · exact hflagged .shiftLeft_bytes

theorem exists_puts_addByte (c : Core) (x : Register) (kk : UInt8) :
    ∃ c', c.execute (.addByte x kk) = .done c' ∧
      c.Puts c' x (((c.getV x).toNat + kk.toNat) % 256) none :=
  ⟨_, rfl, UInt8.toNat_add .. ▸ c.puts_setV x _⟩

end Core

end ChipEight
