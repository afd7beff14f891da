import ChipEight.Instruction.Assembly
import ChipEight.Fault

namespace ChipEight

inductive Level
  | error
  | warn
  | info
  | debug
  | trace
  deriving DecidableEq

namespace Level

def all : List Level := [.error, .warn, .info, .debug, .trace]

def rank : Level → Nat
  | .error => 1
  | .warn => 2
  | .info => 3
  | .debug => 4
  | .trace => 5

def name : Level → String
  | .error => "ERROR"
  | .warn => "WARN"
  | .info => "INFO"
  | .debug => "DEBUG"
  | .trace => "TRACE"

end Level

inductive Notice
  | loaded (count offset : Nat)
  | executing (pc : UInt16) (word : Word) (instruction : Instruction)
  | skipped (pc : UInt16) (word : Word)
  | halted (pc : UInt16) (steps : Nat)
  | pacing (clockSpeed timerSpeed : UInt32) (fastForward : Bool)
  | romLoaded (rom : String) (count : Nat)
  | runHalted (steps : Nat)
  | runStopped (steps : Nat)
  | runFailed (fault : Fault)
  deriving DecidableEq

namespace Notice

def level : Notice → Level
  | .loaded .. => .debug
  | .executing .. => .trace
  | .skipped .. => .warn
  | .halted .. => .info
  | .pacing .. => .debug
  | .romLoaded .. => .info
  | .runHalted .. => .info
  | .runStopped .. => .info
  | .runFailed .. => .error

def text : Notice → String
  | .loaded count offset =>
    "loaded " ++ Numeral.decimal count ++ " bytes at " ++ Numeral.address 3 offset
  | .executing pc word instruction =>
    Numeral.address 3 pc.toNat ++ "  " ++ word.text ++ "  " ++ instruction.text
  | .skipped pc word =>
    "skipping unknown opcode " ++ word.text ++ " at " ++ Numeral.address 3 pc.toNat
  | .halted pc steps =>
    "program halted at " ++ Numeral.address 3 pc.toNat ++ " after " ++ Numeral.decimal steps ++
      " steps"
  | .pacing clockSpeed timerSpeed fastForward =>
    "running at " ++ Numeral.decimal clockSpeed.toNat ++ "Hz with timers at " ++
      Numeral.decimal timerSpeed.toNat ++ "Hz" ++ if fastForward then " (fast forward)" else ""
  | .romLoaded rom count => "loaded " ++ rom ++ " (" ++ Numeral.decimal count ++ " bytes)"
  | .runHalted steps => "halted after " ++ Numeral.decimal steps ++ " steps"
  | .runStopped steps => "stopped after " ++ Numeral.decimal steps ++ " steps"
  | .runFailed fault => fault.message

def line (n : Notice) : String := n.level.name ++ " " ++ n.text

end Notice

structure Journal where
  threshold : Option Level
  notices : Array Notice
  deriving DecidableEq

namespace Journal

def start (threshold : Option Level) : Journal := ⟨threshold, #[]⟩

def Keeps (j : Journal) (level : Level) : Prop := ∃ t ∈ j.threshold, level.rank ≤ t.rank

instance (j : Journal) (level : Level) : Decidable (j.Keeps level) :=
  inferInstanceAs (Decidable (∃ t ∈ j.threshold, level.rank ≤ t.rank))

def note (j : Journal) (n : Notice) : Journal :=
  if j.Keeps n.level then { j with notices := j.notices.push n } else j

def lines (j : Journal) : List String := j.notices.toList.map Notice.line

def clear (j : Journal) : Journal := { j with notices := #[] }

end Journal

end ChipEight
