import ChipEight.CommandLine.Options
import ChipEight.Core.Table
import ChipEight.Display.Screen
import ChipEight.Keypad.Layout

namespace ChipEight

inductive SessionError
  | keyScript (c : Char)
  | unavailable (error : IoError)
  | machine (fault : Fault)
  deriving DecidableEq

namespace SessionError

def message : SessionError → String
  | .keyScript c => Layout.refusal c
  | .unavailable error => error.message
  | .machine fault => fault.message

def report : SessionError → String
  | .keyScript c => Quoted.encode (Layout.refusal c)
  | .unavailable error => error.report
  | .machine fault => fault.report

end SessionError

structure Session where
  result : Except SessionError Outcome
  screen : Screen
  journal : Journal

namespace Session

variable {ρ : Type}

def openScreen (o : Options) (writer : Writer) : Except (IoError × Writer) Screen :=
  if o.debugDisplay then .ok (.grid (.start writer)) else (Terminal.start writer).map .terminal

/-- The machine with the program loaded, or the session that has failed before its first
instruction. `rom` is the program's file: it may be missing, and reading it may fail. -/
def ready (o : Options) (rom : Except IoError ByteSource) (screen : Screen) (random : ρ) :
    Except Session (Machine Screen KeyScript ρ) :=
  let journal := Journal.start o.logLevel
  match Layout.keys o.keys.toList with
  | .error c => .error ⟨.error (.keyScript c), screen, journal⟩
  | .ok keys =>
    match Machine.boot o.config screen (.ofPresses keys) random journal with
    | .error fault => .error ⟨.error (.machine fault), screen, journal⟩
    | .ok m =>
      match rom with
      | .error error => .error ⟨.error (.unavailable error), m.display, m.journal⟩
      | .ok source =>
        match m.loadProgram source with
        | (.error fault, m) => .error ⟨.error (.machine fault), m.display, m.journal⟩
        | (.ok count, m) => .ok ((m.note (.romLoaded o.rom count)).note o.pacing.notice)

def dump (core : Core) : String := "\r\n" ++ core.table ++ "\n"

def closingNotice : Except Fault Outcome → Notice
  | .ok (.halted steps) => .runHalted steps
  | .ok (.stepLimit steps) => .runStopped steps
  | .error fault => .runFailed fault

def conclude (o : Options) (result : Except Fault Outcome) (m : Machine Screen KeyScript ρ) :
    Session :=
  { result := result.mapError .machine
    screen := if o.dump then m.display.print (dump m.core) else m.display
    journal := m.journal.note (closingNotice result) }

def close (s : Session) : Session := { s with screen := Display.close s.screen }

/-- A whole session on an open screen. Without a result, the program is still running. -/
def start [RandomSource ρ] (o : Options) (rom : Except IoError ByteSource) (screen : Screen)
    (random : ρ) (clock : Nat → Nat) : Option Session :=
  match ready o rom screen random with
  | .error session => some session.close
  | .ok m =>
    match m.run o.pacing clock with
    | (some result, m) => some (conclude o result m).close
    | (none, _) => none

def exitCode (s : Session) : Nat :=
  match s.result with
  | .ok _ => 0
  | .error _ => 1

def errorLine (s : Session) : Option String :=
  match s.result with
  | .ok _ => none
  | .error error => some ("Error: " ++ error.report)

end Session

end ChipEight
