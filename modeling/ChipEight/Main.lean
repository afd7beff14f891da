import ChipEight.CommandLine.Usage
import ChipEight.Session

namespace ChipEight.Program

def systemError (code : UInt32) (text : String) : IoError :=
  match (if code < 0x80000000 then code else 0 - code).toNat with
  | 2 => .noSuchFile
  | 13 => .permissionDenied
  | 20 => .notADirectory
  | 21 => .isADirectory
  | 36 => .nameTooLong
  | 40 => .tooManyLinks
  | code => .system code text

def ioError : IO.Error → IoError
  | .noFileOrDirectory _ code text | .interrupted _ code text | .alreadyExists _ code text
  | .invalidArgument _ code text | .permissionDenied _ code text | .resourceExhausted _ code text
  | .inappropriateType _ code text | .noSuchThing _ code text | .otherError code text
  | .resourceBusy code text | .resourceVanished code text | .unsupportedOperation code text
  | .hardwareFault code text | .unsatisfiedConstraints code text | .illegalOperation code text
  | .protocolError code text | .timeExpired code text => systemError code text
  | .unexpectedEof => .device .unexpectedEof "unexpected end of file"
  | .userError text => .device .other text

def readRom (path : String) : IO (Except IoError ByteSource) := do
  try
    return .ok (.ofBytes (← IO.FS.readBinFile path).toList)
  catch error =>
    let error := ioError error
    return if error = .isADirectory then .ok ⟨[], some error⟩ else .error error

def showScreen (screen : Screen) : IO Screen := do
  let (text, screen) := screen.drain
  unless text.isEmpty do
    let stdout ← IO.getStdout
    stdout.putStr text
    stdout.flush
  return screen

def showJournal (journal : Journal) : IO Journal := do
  for line in journal.lines do
    IO.eprintln line
  return journal.clear

variable {ρ : Type}

def showMachine (m : Machine Screen KeyScript ρ) : IO (Machine Screen KeyScript ρ) := do
  let journal ← showJournal m.journal
  let display ← showScreen m.display
  return { m with journal, display }

/-- Waits until a time in nanoseconds; what is left below a millisecond is not waited for. -/
def waitUntil (due : Nat) : IO Unit := do
  let now ← IO.monoNanosNow
  IO.sleep (.ofNat ((due - now) / 1000000))

/-- A run by the clock, from `steps` instructions on, the next of which is due at `due`. -/
partial def run [RandomSource ρ] (p : Pacing) (steps lastFrame due : Nat)
    (m : Machine Screen KeyScript ρ) :
    IO (Except Fault Outcome × Machine Screen KeyScript ρ) := do
  unless p.fastForward do waitUntil due
  let due := max due (← IO.monoNanosNow) + p.stepTime
  let (result, m) := m.turn p steps
  let m ← showMachine m
  if let some result := result then
    return (result, m)
  let now ← IO.monoNanosNow
  if p.FrameDue (fun _ => now - lastFrame) (steps + 1) then
    let (result, m) := m.frame
    let m ← showMachine m
    if let .error fault := result then
      return (.error fault, m)
    run p (steps + 1) (← IO.monoNanosNow) due m
  else
    run p (steps + 1) lastFrame due m

def leave (session : Session) : IO UInt32 := do
  let session := session.close
  let _ ← showScreen session.screen
  let _ ← showJournal session.journal
  if let some line := session.errorLine then
    IO.eprintln line
  return .ofNat session.exitCode

def start (o : Options) : IO UInt32 := do
  match Session.openScreen o .unlimited with
  | .error (error, _) =>
    IO.eprintln ("Error: " ++ error.report)
    return 1
  | .ok screen =>
    let seed ← IO.rand 0 0x3FFFFFFFFFFFFFFF
    match Session.ready o (← readRom o.rom) screen (⟨.ofNat seed⟩ : Generator) with
    | .error session => leave session
    | .ok m =>
      let m ← showMachine m
      let now ← IO.monoNanosNow
      let (result, m) ← run o.pacing 0 now now m
      leave (Session.conclude o result m)

end ChipEight.Program

def main (args : List String) : IO UInt32 := do
  match ChipEight.CommandLine.parse args with
  | .ok options => ChipEight.Program.start options
  | .error (.asked inquiry) =>
    IO.println inquiry.reply
    return 0
  | .error refusal =>
    IO.eprintln refusal.message
    return .ofNat refusal.exitCode
