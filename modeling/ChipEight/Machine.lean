import ChipEight.Core.Execute
import ChipEight.Display.Basic
import ChipEight.Keypad.Basic
import ChipEight.Random
import ChipEight.Journal

namespace ChipEight

structure Config where
  memorySize : UInt64
  /-- Where programs are loaded and execution starts. -/
  programStart : UInt16
  /-- Whether a word that is no instruction stops the machine, rather than being passed over. -/
  strict : Bool
  deriving DecidableEq

namespace Config

def standard : Config := ⟨4096, 0x200, true⟩

end Config

structure Machine (δ κ ρ : Type) where
  config : Config
  core : Core
  display : δ
  keypad : κ
  random : ρ
  journal : Journal
  /-- How many frames have been asked for, whether or not they could be shown. -/
  frames : Nat

namespace Machine

variable {δ κ ρ : Type}

def note (m : Machine δ κ ρ) (n : Notice) : Machine δ κ ρ := { m with journal := m.journal.note n }

def boot (config : Config) (display : δ) (keypad : κ) (random : ρ) (journal : Journal) :
    Except Fault (Machine δ κ ρ) := do
  let core ← Core.boot config.memorySize config.programStart
  let journal := journal.note (.loaded Font.spriteSheet.length Font.address.toNat)
  return { config, core, display, keypad, random, journal, frames := 0 }

def load (m : Machine δ κ ρ) (source : ByteSource) (offset : UInt16) :
    Except Fault Nat × Machine δ κ ρ :=
  match m.core.memory.load source offset.toNat with
  | .ok (count, memory) =>
    (.ok count, { m with core := { m.core with memory } }.note (.loaded count offset.toNat))
  | .error fault => (.error fault, m)

def loadProgram (m : Machine δ κ ρ) (source : ByteSource) : Except Fault Nat × Machine δ κ ρ :=
  m.load source m.config.programStart

def tick (m : Machine δ κ ρ) : Machine δ κ ρ := { m with core := m.core.tick }

def serve [Display δ] [Keypad κ] [RandomSource ρ] (m : Machine δ κ ρ) :
    Request → Except Fault Unit × Machine δ κ ρ
  | .done core => (.ok (), { m with core })
  | .fail fault => (.error fault, m)
  | .clearScreen core =>
    match Display.clear m.display with
    | (.ok (), display) => (.ok (), { m with core, display })
    | (.error error, display) => (.error (.io error), { m with display })
  | .draw x y sprite resume =>
    let (hit, display) := Display.drawSprite m.display x y sprite
    (.ok (), { m with core := resume hit, display })
  | .testKey key resume =>
    let (down, keypad) := Keypad.isDown m.keypad key
    (.ok (), { m with core := resume down, keypad })
  | .awaitKey resume =>
    match Keypad.awaitPress m.keypad with
    | (.ok key, keypad) =>
      match resume key with
      | .ok core => (.ok (), { m with core, keypad })
      | .error fault => (.error fault, { m with keypad })
    | (.error error, keypad) => (.error (.io error), { m with keypad })
  | .randomByte resume =>
    let (b, random) := RandomSource.next m.random
    (.ok (), { m with core := resume b, random })

def execute [Display δ] [Keypad κ] [RandomSource ρ] (m : Machine δ κ ρ) (pc : UInt16)
    (word : Word) : Except Fault Unit × Machine δ κ ρ :=
  match Instruction.decode word with
  | some instruction =>
    (m.note (.executing pc word instruction)).serve (m.core.execute instruction)
  | none =>
    if m.config.strict then (.error .unknownOpcode, m)
    else (.ok (), m.note (.skipped pc word))

/-- Fetches a word, moves past it and executes it. A fault of the instruction is told with its
address and its word. -/
def step [Display δ] [Keypad κ] [RandomSource ρ] (m : Machine δ κ ρ) :
    Except Fault Unit × Machine δ κ ρ :=
  match m.core.fetch with
  | .error fault => (.error fault, m)
  | .ok word =>
    let pc := m.core.pc
    let (result, m) := { m with core := m.core.advance }.execute pc word
    (result.mapError (.instruction pc word), m)

def render [Display δ] (m : Machine δ κ ρ) : Except Fault Unit × Machine δ κ ρ :=
  let (result, display) := Display.render m.display
  (result.mapError .io, { m with display, frames := m.frames + 1 })

end Machine

end ChipEight
