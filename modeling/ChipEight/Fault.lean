import ChipEight.Instruction.Word
import ChipEight.Text.Quoted

namespace ChipEight

inductive IoKind
  | notFound
  | permissionDenied
  | notADirectory
  | isADirectory
  | invalidInput
  | invalidFilename
  | filesystemLoop
  | unexpectedEof
  | other
  | uncategorized
  deriving DecidableEq

namespace IoKind

def name : IoKind → String
  | .notFound => "NotFound"
  | .permissionDenied => "PermissionDenied"
  | .notADirectory => "NotADirectory"
  | .isADirectory => "IsADirectory"
  | .invalidInput => "InvalidInput"
  | .invalidFilename => "InvalidFilename"
  | .filesystemLoop => "FilesystemLoop"
  | .unexpectedEof => "UnexpectedEof"
  | .other => "Other"
  | .uncategorized => "Uncategorized"

/-- The kind that a code of the operating system belongs to, as far as opening and reading a file
can end with it. -/
def ofCode : Nat → IoKind
  | 1 | 13 => .permissionDenied
  | 2 => .notFound
  | 20 => .notADirectory
  | 21 => .isADirectory
  | 22 => .invalidInput
  | 36 => .invalidFilename
  | 40 => .filesystemLoop
  | _ => .uncategorized

end IoKind

/-- An error of some device, which may have another one as its source. -/
inductive ForeignError
  | plain (text report : String)
  | caused (text report : String) (source : ForeignError)
  deriving DecidableEq

namespace ForeignError

def message : ForeignError → String
  | .plain text _ => text
  | .caused text _ _ => text

def report : ForeignError → String
  | .plain _ report => report
  | .caused _ report _ => report

def source? : ForeignError → Option ForeignError
  | .plain _ _ => none
  | .caused _ _ source => some source

def sources : ForeignError → List ForeignError
  | .plain _ _ => []
  | .caused _ _ source => source :: source.sources

end ForeignError

inductive IoError
  | system (code : Nat) (text : String)
  | malformed (text : String)
  | custom (kind : IoKind) (error : ForeignError)
  deriving DecidableEq

namespace IoError

def device (kind : IoKind) (text : String) : IoError :=
  .custom kind (.plain text (Quoted.encode text))

def noSuchFile : IoError := .system 2 "No such file or directory"

def permissionDenied : IoError := .system 13 "Permission denied"

def notADirectory : IoError := .system 20 "Not a directory"

def isADirectory : IoError := .system 21 "Is a directory"

def nameTooLong : IoError := .system 36 "File name too long"

def tooManyLinks : IoError := .system 40 "Too many levels of symbolic links"

def nulInName : IoError := .malformed "file name contained an unexpected NUL byte"

def message : IoError → String
  | .system code text => text ++ " (os error " ++ Numeral.decimal code ++ ")"
  | .malformed text => text
  | .custom _ error => error.message

def report : IoError → String
  | .system code text =>
    "Os \x7b code: " ++ Numeral.decimal code ++ ", kind: " ++ (IoKind.ofCode code).name ++
      ", message: " ++ Quoted.encode text ++ " \x7d"
  | .malformed text =>
    "Error \x7b kind: " ++ IoKind.invalidInput.name ++ ", message: " ++
      Quoted.encode text ++ " \x7d"
  | .custom kind error =>
    "Custom \x7b kind: " ++ kind.name ++ ", error: " ++ error.report ++ " \x7d"

/-- What lies below is the source of the error that it passes for, not that error. -/
def source? : IoError → Option ForeignError
  | .custom _ error => error.source?
  | _ => none

def sources : IoError → List ForeignError
  | .custom _ error => error.sources
  | _ => []

end IoError

inductive Fault
  | outOfBounds (address len size : Nat)
  | stackOverflow (depth : Nat)
  | stackUnderflow
  | unknownOpcode
  | invalidKey (key : UInt8)
  | io (error : IoError)
  | instruction (pc : UInt16) (word : Word) (source : Fault)
  deriving DecidableEq

namespace Fault

def message : Fault → String
  | .outOfBounds address len size =>
    "access of " ++ Numeral.decimal len ++ " byte(s) at " ++ Numeral.address 4 address ++
      " is outside memory of " ++ Numeral.decimal size ++ " bytes"
  | .stackOverflow depth =>
    "stack overflow: more than " ++ Numeral.decimal depth ++ " nested calls"
  | .stackUnderflow => "stack underflow: return without a matching call"
  | .unknownOpcode => "unknown opcode"
  | .invalidKey key => "key " ++ Numeral.address 2 key.toNat ++ " is not on the keypad"
  | .io error => "i/o error: " ++ error.message
  | .instruction pc word source =>
    word.text ++ " at " ++ Numeral.address 3 pc.toNat ++ ": " ++ source.message

def root : Fault → Fault
  | .instruction _ _ source => source.root
  | fault => fault

/-- The messages of the fault and of all that lies below it, the outermost first. -/
def chain : Fault → List String
  | .instruction pc word source => (Fault.instruction pc word source).message :: source.chain
  | .io error =>
    (Fault.io error).message :: error.message :: error.sources.map ForeignError.message
  | fault => [fault.message]

def report : Fault → String
  | .outOfBounds address len size =>
    "OutOfBounds \x7b address: " ++ Numeral.decimal address ++ ", len: " ++ Numeral.decimal len ++
      ", size: " ++ Numeral.decimal size ++ " \x7d"
  | .stackOverflow depth => "StackOverflow(" ++ Numeral.decimal depth ++ ")"
  | .stackUnderflow => "StackUnderflow"
  | .unknownOpcode => "UnknownOpcode"
  | .invalidKey key => "InvalidKey(" ++ Numeral.decimal key.toNat ++ ")"
  | .io error => "Io(" ++ error.report ++ ")"
  | .instruction pc word source =>
    "Instruction \x7b pc: " ++ Numeral.decimal pc.toNat ++ ", opcode: " ++
      Numeral.decimal word.bits.toNat ++ ", source: " ++ source.report ++ " \x7d"

end Fault

end ChipEight
