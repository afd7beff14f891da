import ChipEight.Instruction.Assembly
import ChipEight.Proofs.Text.Numeral
import ChipEight.Proofs.Text.Separated

namespace ChipEight

namespace Mnemonic

def all : List Mnemonic :=
  [.sys, .cls, .ret, .jp, .call, .se, .sne, .ld, .add, .or, .and, .xor, .sub, .shr, .subn, .shl,
    .rnd, .drw, .skp, .sknp]

theorem mem_all (m : Mnemonic) : m ∈ all := by
  cases m <;> decide

theorem text_inj {m m' : Mnemonic} (h : m.text = m'.text) : m = m' := by
  have hall : ∀ m ∈ all, ∀ m' ∈ all, m.text = m'.text → m = m' := by decide
  exact hall m m.mem_all m' m'.mem_all h

theorem blank_not_mem_text (m : Mnemonic) : ' ' ∉ m.text.toList := by
  cases m <;> decide

end Mnemonic

namespace Operand

open Numeral (valueOf)

def scan : List Char → Operand
  | 'V' :: cs => .register (valueOf 16 cs)
  | '0' :: 'x' :: cs =>
    if cs.length = 2 then .byte (.ofNat (valueOf 16 cs)) else .address (.ofNat (valueOf 16 cs))
  | ['I'] => .index
  | ['[', 'I', ']'] => .atIndex
  | ['D', 'T'] => .delay
  | ['S', 'T'] => .sound
  | ['K'] => .key
  | ['F'] => .glyph
  | ['B'] => .decimal
  | cs => .rows (.ofNat (valueOf 10 cs))

theorem scan_of_digits {cs : List Char} (h : ∀ c, Numeral.digitValue? 10 c = none → c ∉ cs) :
    scan cs = .rows (.ofNat (valueOf 10 cs)) := by
  unfold scan
  split
  next => exact absurd List.mem_cons_self (h 'V' rfl)
  next => exact absurd (List.mem_cons_of_mem '0' List.mem_cons_self) (h 'x' rfl)
  next => exact absurd List.mem_cons_self (h 'I' rfl)
  next => exact absurd List.mem_cons_self (h '[' rfl)
  next => exact absurd List.mem_cons_self (h 'D' rfl)
  next => exact absurd List.mem_cons_self (h 'S' rfl)
  next => exact absurd List.mem_cons_self (h 'K' rfl)
  next => exact absurd List.mem_cons_self (h 'F' rfl)
  next => exact absurd List.mem_cons_self (h 'B' rfl)
  next => rfl

theorem toList_text_register (number : Nat) :
    (Operand.register number).text.toList = 'V' :: Numeral.padded 16 1 number := by
  rw [text, String.toList_append, Numeral.toList_hex]
  rfl

theorem length_padded_byte (kk : UInt8) : (Numeral.padded 16 2 kk.toNat).length = 2 :=
  Numeral.length_padded_of_lt (by decide) kk.toNat_lt

theorem scan_text (o : Operand) : scan o.text.toList = o := by
  cases o with
  | register number =>
    rw [toList_text_register, scan, Numeral.valueOf_padded (by decide) (by decide)]
  | byte kk =>
    rw [text, Numeral.toList_address, scan, if_pos (length_padded_byte kk),
      Numeral.valueOf_padded (by decide) (by decide), UInt8.ofNat_toNat]
  | address nnn =>
    have hlength : (Numeral.padded 16 3 nnn.toNat).length ≠ 2 :=
      Nat.ne_of_gt (Numeral.le_length_padded 16 3 nnn.toNat)
    rw [text, Numeral.toList_address, scan, if_neg hlength,
      Numeral.valueOf_padded (by decide) (by decide), UInt16.ofNat_toNat]
  | rows n =>
    have hdigits (c : Char) (hc : Numeral.digitValue? 10 c = none) :
        c ∉ Numeral.padded 10 1 n.toNat :=
      Numeral.not_mem_padded (by decide) (by decide) hc 1 n.toNat
    rw [text, Numeral.toList_decimal, scan_of_digits hdigits,
      Numeral.valueOf_padded (by decide) (by decide), UInt8.ofNat_toNat]
  | index => rfl
  | atIndex => rfl
  | delay => rfl
  | sound => rfl
  | key => rfl
  | glyph => rfl
  | decimal => rfl

theorem text_inj {o o' : Operand} (h : o.text = o'.text) : o = o' := by
  rw [← scan_text o, h, scan_text]

theorem comma_not_mem_text (o : Operand) : ',' ∉ o.text.toList := by
  have hpadded (width n : Nat) : ',' ∉ Numeral.padded 16 width n :=
    Numeral.not_mem_padded (by decide) (by decide) rfl width n
  have haddress {cs : List Char} (h : ',' ∉ cs) : ',' ∉ '0' :: 'x' :: cs :=
    List.not_mem_cons_of_ne_of_not_mem (by decide)
      (List.not_mem_cons_of_ne_of_not_mem (by decide) h)
  cases o with
  | register number =>
    rw [toList_text_register]
    exact List.not_mem_cons_of_ne_of_not_mem (by decide) (hpadded 1 number)
  | byte kk =>
    rw [text, Numeral.toList_address]
    exact haddress (hpadded 2 kk.toNat)
  | address nnn =>
    rw [text, Numeral.toList_address]
    exact haddress (hpadded 3 nnn.toNat)
  | rows n =>
    rw [text, Numeral.toList_decimal]
    exact Numeral.not_mem_padded (by decide) (by decide) rfl 1 n.toNat
  | _ => decide

end Operand

namespace Assembly

theorem toList_text_cons (m : Mnemonic) (o : Operand) (os : List Operand) :
    (Assembly.mk m (o :: os)).text.toList =
      m.text.toList ++ ' ' ::
        (o.text.toList ++ os.flatMap fun u => ',' :: ([' '] ++ u.text.toList)) := by
  rw [text, String.toList_append, String.toList_append, List.map_cons,
    Text.toList_intercalate_cons, List.flatMap_map, List.append_assoc]
  rfl

theorem text_inj {a a' : Assembly} (h : a.text = a'.text) : a = a' := by
  obtain ⟨m, os⟩ := a
  obtain ⟨m', os'⟩ := a'
  have hlist := congrArg String.toList h
  cases os with
  | nil =>
    cases os' with
    | nil => exact congrArg (mk · []) (Mnemonic.text_inj h)
    | cons o' os' =>
      rw [toList_text_cons] at hlist
      exact absurd hlist (Text.ne_append_cons m.blank_not_mem_text)
  | cons o os =>
    rw [toList_text_cons] at hlist
    cases os' with
    | nil => exact absurd hlist.symm (Text.ne_append_cons m'.blank_not_mem_text)
    | cons o' os' =>
      rw [toList_text_cons] at hlist
      obtain ⟨hm, hos⟩ :=
        Text.append_cons_inj m.blank_not_mem_text m'.blank_not_mem_text hlist
      obtain ⟨rfl, rfl⟩ := Text.separated_inj [' '] Operand.comma_not_mem_text
        (fun _ _ heq => Operand.text_inj (String.toList_inj.1 heq)) hos
      rw [Mnemonic.text_inj (String.toList_inj.1 hm)]

end Assembly

namespace InstructionOver

variable {R : Type}

/-- The instruction that a line is the assembly of, where there are names for the registers. -/
def assemble (named : Nat → Option R) : Assembly → Option (InstructionOver R)
  | ⟨.sys, [.address nnn]⟩ => some (.sys nnn)
  | ⟨.cls, []⟩ => some .clearScreen
  | ⟨.ret, []⟩ => some .ret
  | ⟨.jp, [.address nnn]⟩ => some (.jump nnn)
  | ⟨.call, [.address nnn]⟩ => some (.call nnn)
  | ⟨.se, [.register x, .byte kk]⟩ => return .skipEqByte (← named x) kk
  | ⟨.sne, [.register x, .byte kk]⟩ => return .skipNeByte (← named x) kk
  | ⟨.se, [.register x, .register y]⟩ => return .skipEq (← named x) (← named y)
  | ⟨.ld, [.register x, .byte kk]⟩ => return .loadByte (← named x) kk
  | ⟨.add, [.register x, .byte kk]⟩ => return .addByte (← named x) kk
  | ⟨.ld, [.register x, .register y]⟩ => return .move (← named x) (← named y)
  | ⟨.or, [.register x, .register y]⟩ => return .or (← named x) (← named y)
  | ⟨.and, [.register x, .register y]⟩ => return .and (← named x) (← named y)
  | ⟨.xor, [.register x, .register y]⟩ => return .xor (← named x) (← named y)
  | ⟨.add, [.register x, .register y]⟩ => return .add (← named x) (← named y)
  | ⟨.sub, [.register x, .register y]⟩ => return .sub (← named x) (← named y)
  | ⟨.shr, [.register x]⟩ => return .shiftRight (← named x)
  | ⟨.subn, [.register x, .register y]⟩ => return .subFrom (← named x) (← named y)
  | ⟨.shl, [.register x]⟩ => return .shiftLeft (← named x)
  | ⟨.sne, [.register x, .register y]⟩ => return .skipNe (← named x) (← named y)
  | ⟨.ld, [.index, .address nnn]⟩ => some (.loadIndex nnn)
  | ⟨.jp, [.register _, .address nnn]⟩ => some (.jumpOffset nnn)
  | ⟨.rnd, [.register x, .byte kk]⟩ => return .random (← named x) kk
  | ⟨.drw, [.register x, .register y, .rows n]⟩ => return .draw (← named x) (← named y) n
  | ⟨.skp, [.register x]⟩ => return .skipKeyDown (← named x)
  | ⟨.sknp, [.register x]⟩ => return .skipKeyUp (← named x)
  | ⟨.ld, [.register x, .delay]⟩ => return .readDelay (← named x)
  | ⟨.ld, [.register x, .key]⟩ => return .awaitKey (← named x)
  | ⟨.ld, [.delay, .register x]⟩ => return .setDelay (← named x)
  | ⟨.ld, [.sound, .register x]⟩ => return .setSound (← named x)
  | ⟨.add, [.index, .register x]⟩ => return .addIndex (← named x)
  | ⟨.ld, [.glyph, .register x]⟩ => return .loadGlyph (← named x)
  | ⟨.ld, [.decimal, .register x]⟩ => return .storeDecimal (← named x)
  | ⟨.ld, [.atIndex, .register x]⟩ => return .storeRegisters (← named x)
  | ⟨.ld, [.register x, .atIndex]⟩ => return .loadRegisters (← named x)
  | _ => none

theorem assemble_assembly {number : R → Nat} {named : Nat → Option R}
    (h : ∀ x, named (number x) = some x) (i : InstructionOver R) :
    assemble named (i.assembly number) = some i := by
  -- The patterns overlap so much that their equations are dear; the match reduces without them.
  cases i <;> delta assemble <;> simp only [assembly, h] <;> rfl

theorem assembly_inj {number : R → Nat} (hnumber : ∀ x y, number x = number y → x = y)
    {i j : InstructionOver R} (h : i.assembly number = j.assembly number) : i = j := by
  classical
  let named (n : Nat) : Option R := if hx : ∃ x, number x = n then some hx.choose else none
  have hnamed (x : R) : named (number x) = some x := by
    have hx : ∃ y, number y = number x := ⟨x, rfl⟩
    exact (dif_pos hx).trans (congrArg some (hnumber _ _ hx.choose_spec))
  have hj := assemble_assembly hnamed j
  rw [← h, assemble_assembly hnamed i] at hj
  exact Option.some.inj hj

/-- The text tells the instruction, whatever is told apart by the numbers of the registers. -/
theorem eq_of_text {number : R → Nat} (hnumber : ∀ x y, number x = number y → x = y)
    {i j : InstructionOver R} (h : (i.assembly number).text = (j.assembly number).text) : i = j :=
  assembly_inj hnumber (Assembly.text_inj h)

end InstructionOver

theorem Instruction.eq_of_text {i j : Instruction} (h : i.text = j.text) : i = j :=
  InstructionOver.eq_of_text (fun _ _ => Fin.ext) h

end ChipEight
