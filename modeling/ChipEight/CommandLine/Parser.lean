import ChipEight.CommandLine.Address
import ChipEight.CommandLine.Options

namespace ChipEight.CommandLine

inductive Setting
  | hz
  | timerHz
  | maxSteps
  | memorySize
  | start
  | keys
  | logLevel
  deriving DecidableEq

inductive Switch
  | fastForward
  | permissive
  | debugDisplay
  | dump
  deriving DecidableEq

inductive Inquiry
  | help
  | version
  deriving DecidableEq

inductive Refusal
  | asked (inquiry : Inquiry)
  | unknownArgument
  | missingValue
  | badValue
  | unneededValue
  | givenTwice
  | missingRom
  deriving DecidableEq

def Refusal.exitCode : Refusal → Nat
  | .asked _ => 0
  | _ => 2

inductive Target
  | rom
  | setting (s : Setting)
  | switch (s : Switch)
  deriving DecidableEq

inductive Named
  | setting (s : Setting)
  | switch (s : Switch)
  | inquiry (i : Inquiry)
  deriving DecidableEq

def named? : String → Option Named
  | "hz" => some (.setting .hz)
  | "timer-hz" => some (.setting .timerHz)
  | "max-steps" => some (.setting .maxSteps)
  | "memory-size" => some (.setting .memorySize)
  | "start" => some (.setting .start)
  | "keys" => some (.setting .keys)
  | "log-level" => some (.setting .logLevel)
  | "fast-forward" => some (.switch .fastForward)
  | "permissive" => some (.switch .permissive)
  | "debug-display" => some (.switch .debugDisplay)
  | "dump" => some (.switch .dump)
  | "help" => some (.inquiry .help)
  | "version" => some (.inquiry .version)
  | _ => none

/-- A speed may carry a minus sign, which leaves zero in range. -/
def readSpeed (text : String) : Option UInt32 :=
  match text.toList with
  | '-' :: d :: ds => if (d :: ds).all (· = '0') then some 0 else none
  | cs => (Numeral.read 10 0xFFFFFFFF cs).toOption.map UInt32.ofNat

def readCount (text : String) : Option UInt64 :=
  (Numeral.read 10 0xFFFFFFFFFFFFFFFF text.toList).toOption.map UInt64.ofNat

def readLevel (text : String) : Option (Option Level) :=
  let name := text.map Char.toUpper
  if name = "OFF" then some none else (Level.all.find? (·.name = name)).map some

def Setting.put (o : Options) (text : String) : Setting → Option Options
  | .hz => (readSpeed text).map fun clockSpeed => { o with clockSpeed }
  | .timerHz => (readSpeed text).map fun timerSpeed => { o with timerSpeed }
  | .maxSteps => (readCount text).map fun n => { o with maxSteps := some n }
  | .memorySize => (readCount text).map fun memorySize => { o with memorySize }
  | .start => (Address.read text).toOption.map fun start => { o with start }
  | .keys => some { o with keys := text }
  | .logLevel => (readLevel text).map fun logLevel => { o with logLevel }

def Switch.turnOn (o : Options) : Switch → Options
  | .fastForward => { o with fastForward := true }
  | .permissive => { o with permissive := true }
  | .debugDisplay => { o with debugDisplay := true }
  | .dump => { o with dump := true }

/-- An argument that has been taken up and not been settled. -/
inductive Waiting
  | forValue (s : Setting)
  | value (s : Setting) (text : String)
  | rom (text : String)
  deriving DecidableEq

structure Scan where
  options : Options
  given : List Target
  waiting : Option Waiting
  verbatim : Bool
  deriving DecidableEq

namespace Scan

def start : Scan := ⟨.standard, [], none, false⟩

def put (scan : Scan) (s : Setting) (text : String) : Except Refusal Scan :=
  if .setting s ∈ scan.given then .error .givenTwice
  else
    match s.put scan.options text with
    | some options => .ok { scan with options, given := .setting s :: scan.given }
    | none => .error .badValue

def settle (scan : Scan) : Except Refusal Scan :=
  let done := { scan with waiting := none }
  match scan.waiting with
  | none => .ok done
  | some (.forValue _) => .error .missingValue
  | some (.value s text) => done.put s text
  | some (.rom text) =>
    if text.isEmpty then .error .missingValue
    else .ok { done with options := { scan.options with rom := text }, given := .rom :: scan.given }

def HasRom (scan : Scan) : Prop :=
  .rom ∈ scan.given ∨ ∃ text, scan.waiting = some (.rom text)

instance (scan : Scan) : Decidable scan.HasRom :=
  match h : scan.waiting with
  | some (.rom text) => .isTrue (.inr ⟨text, h⟩)
  | none | some (.forValue _) | some (.value ..) =>
    decidable_of_iff (.rom ∈ scan.given) (by simp [HasRom, h])

def takePlain (scan : Scan) (text : String) : Except Refusal Scan := do
  if scan.HasRom then throw .unknownArgument
  let scan ← scan.settle
  return { scan with waiting := some (.rom text) }

def takeNamed (scan : Scan) (name : String) (value : Option String) : Except Refusal Scan :=
  match named? name, value with
  | none, _ => .error .unknownArgument
  | some (.setting s), some text => do (← scan.settle).put s text
  | some (.setting s), none => do
    let scan ← scan.settle
    return { scan with waiting := some (.forValue s) }
  | some _, some _ => .error .unneededValue
  | some (.switch s), none => do
    let scan ← scan.settle
    if .switch s ∈ scan.given then throw .givenTwice
    return { scan with options := s.turnOn scan.options, given := .switch s :: scan.given }
  | some (.inquiry i), none => do
    let _ ← scan.settle
    throw (.asked i)

/-- One letter or several behind a single dash; the first decides. -/
def takeLetters (scan : Scan) (letter : Char) : Except Refusal Scan :=
  if letter = 'h' then scan.takeNamed "help" none
  else if letter = 'V' then scan.takeNamed "version" none
  else .error .unknownArgument

def splitValue (cs : List Char) : String × Option String :=
  let name := cs.takeWhile (· ≠ '=')
  (.ofList name, match cs.dropWhile (· ≠ '=') with
    | [] => none
    | _ :: value => some (.ofList value))

def take (scan : Scan) (arg : String) : Except Refusal Scan :=
  if scan.verbatim then scan.takePlain arg
  else
    match arg.toList with
    | ['-', '-'] => .ok { scan with verbatim := true }
    | '-' :: '-' :: cs =>
      let (name, value) := splitValue cs
      scan.takeNamed name value
    | '-' :: letter :: _ => scan.takeLetters letter
    | _ =>
      match scan.waiting with
      | some (.forValue s) => .ok { scan with waiting := some (.value s arg) }
      | _ => scan.takePlain arg

end Scan

/-- Arguments are taken up from left to right. One that still waits for its value, or whose value has
not been looked at, is settled when the next known argument is taken up, or at the end. -/
def parse (args : List String) : Except Refusal Options := do
  let scan ← args.foldlM Scan.take .start
  let scan ← scan.settle
  if .rom ∈ scan.given then return scan.options else throw .missingRom

end ChipEight.CommandLine
