import ChipEight.Instruction.Basic

namespace ChipEight

inductive Mnemonic
  | sys
  | cls
  | ret
  | jp
  | call
  | se
  | sne
  | ld
  | add
  | or
  | and
  | xor
  | sub
  | shr
  | subn
  | shl
  | rnd
  | drw
  | skp
  | sknp
  deriving DecidableEq

def Mnemonic.text : Mnemonic → String
  | .sys => "SYS"
  | .cls => "CLS"
  | .ret => "RET"
  | .jp => "JP"
  | .call => "CALL"
  | .se => "SE"
  | .sne => "SNE"
  | .ld => "LD"
  | .add => "ADD"
  | .or => "OR"
  | .and => "AND"
  | .xor => "XOR"
  | .sub => "SUB"
  | .shr => "SHR"
  | .subn => "SUBN"
  | .shl => "SHL"
  | .rnd => "RND"
  | .drw => "DRW"
  | .skp => "SKP"
  | .sknp => "SKNP"

inductive Operand
  | register (number : Nat)
  | byte (kk : UInt8)
  | address (nnn : UInt16)
  | rows (n : UInt8)
  | index
  | atIndex
  | delay
  | sound
  | key
  | glyph
  | decimal
  deriving DecidableEq

def Operand.text : Operand → String
  | .register number => "V" ++ Numeral.hex 1 number
  | .byte kk => Numeral.address 2 kk.toNat
  | .address nnn => Numeral.address 3 nnn.toNat
  | .rows n => Numeral.decimal n.toNat
  | .index => "I"
  | .atIndex => "[I]"
  | .delay => "DT"
  | .sound => "ST"
  | .key => "K"
  | .glyph => "F"
  | .decimal => "B"

structure Assembly where
  mnemonic : Mnemonic
  operands : List Operand
  deriving DecidableEq

def Assembly.text (a : Assembly) : String :=
  match a.operands with
  | [] => a.mnemonic.text
  | operands => a.mnemonic.text ++ " " ++ ", ".intercalate (operands.map Operand.text)

/-- Several instructions share a mnemonic and differ in the kinds of their operands. -/
def InstructionOver.assembly {R : Type} (number : R → Nat) : InstructionOver R → Assembly
  | .sys nnn => ⟨.sys, [.address nnn]⟩
  | .clearScreen => ⟨.cls, []⟩
  | .ret => ⟨.ret, []⟩
  | .jump nnn => ⟨.jp, [.address nnn]⟩
  | .call nnn => ⟨.call, [.address nnn]⟩
  | .skipEqByte x kk => ⟨.se, [.register (number x), .byte kk]⟩
  | .skipNeByte x kk => ⟨.sne, [.register (number x), .byte kk]⟩
  | .skipEq x y => ⟨.se, [.register (number x), .register (number y)]⟩
  | .loadByte x kk => ⟨.ld, [.register (number x), .byte kk]⟩
  | .addByte x kk => ⟨.add, [.register (number x), .byte kk]⟩
  | .move x y => ⟨.ld, [.register (number x), .register (number y)]⟩
  | .or x y => ⟨.or, [.register (number x), .register (number y)]⟩
  | .and x y => ⟨.and, [.register (number x), .register (number y)]⟩
  | .xor x y => ⟨.xor, [.register (number x), .register (number y)]⟩
  | .add x y => ⟨.add, [.register (number x), .register (number y)]⟩
  | .sub x y => ⟨.sub, [.register (number x), .register (number y)]⟩
  | .shiftRight x => ⟨.shr, [.register (number x)]⟩
  | .subFrom x y => ⟨.subn, [.register (number x), .register (number y)]⟩
  | .shiftLeft x => ⟨.shl, [.register (number x)]⟩
  | .skipNe x y => ⟨.sne, [.register (number x), .register (number y)]⟩
  | .loadIndex nnn => ⟨.ld, [.index, .address nnn]⟩
  | .jumpOffset nnn => ⟨.jp, [.register 0, .address nnn]⟩
  | .random x kk => ⟨.rnd, [.register (number x), .byte kk]⟩
  | .draw x y n => ⟨.drw, [.register (number x), .register (number y), .rows n]⟩
  | .skipKeyDown x => ⟨.skp, [.register (number x)]⟩
  | .skipKeyUp x => ⟨.sknp, [.register (number x)]⟩
  | .readDelay x => ⟨.ld, [.register (number x), .delay]⟩
  | .awaitKey x => ⟨.ld, [.register (number x), .key]⟩
  | .setDelay x => ⟨.ld, [.delay, .register (number x)]⟩
  | .setSound x => ⟨.ld, [.sound, .register (number x)]⟩
  | .addIndex x => ⟨.add, [.index, .register (number x)]⟩
  | .loadGlyph x => ⟨.ld, [.glyph, .register (number x)]⟩
  | .storeDecimal x => ⟨.ld, [.decimal, .register (number x)]⟩
  | .storeRegisters x => ⟨.ld, [.atIndex, .register (number x)]⟩
  | .loadRegisters x => ⟨.ld, [.register (number x), .atIndex]⟩

def Instruction.text (i : Instruction) : String := (i.assembly Fin.val).text

end ChipEight
