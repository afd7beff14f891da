import ChipEight.Machine

namespace ChipEight

structure Pacing where
  /-- Instructions per second. -/
  clockSpeed : UInt32
  /-- Ticks and frames per second. -/
  timerSpeed : UInt32
  maxSteps : Option UInt64
  /-- Whether frames are due by the number of instructions instead of the clock. -/
  fastForward : Bool
  deriving DecidableEq

inductive Outcome
  | halted (steps : Nat)
  | stepLimit (steps : Nat)
  deriving DecidableEq

namespace Pacing

def standardClockSpeed : UInt32 := 500

def standardTimerSpeed : UInt32 := 60

def perSecond (speed : UInt32) : Nat := max 1 speed.toNat

def frameTime (p : Pacing) : Nat := 1000000000 / perSecond p.timerSpeed

def stepTime (p : Pacing) : Nat := 1000000000 / perSecond p.clockSpeed

def stepsPerFrame (p : Pacing) : Nat := max 1 (p.clockSpeed.toNat / perSecond p.timerSpeed)

/-- Whether a frame is due after `steps` instructions. The clock tells how many nanoseconds have then
passed since the last one. -/
def FrameDue (p : Pacing) (clock : Nat → Nat) (steps : Nat) : Prop :=
  if p.fastForward then steps % p.stepsPerFrame = 0 else p.frameTime ≤ clock steps

instance (p : Pacing) (clock : Nat → Nat) (steps : Nat) : Decidable (p.FrameDue clock steps) :=
  inferInstanceAs (Decidable (if p.fastForward then _ else _))

def Exhausted (p : Pacing) (steps : Nat) : Prop := ∃ limit ∈ p.maxSteps, limit.toNat ≤ steps

instance (p : Pacing) (steps : Nat) : Decidable (p.Exhausted steps) :=
  inferInstanceAs (Decidable (∃ limit ∈ p.maxSteps, limit.toNat ≤ steps))

def notice (p : Pacing) : Notice := .pacing p.clockSpeed p.timerSpeed p.fastForward

end Pacing

namespace Machine

variable {δ κ ρ : Type} [Display δ] [Keypad κ] [RandomSource ρ]

def finish (m : Machine δ κ ρ) (outcome : Outcome) : Except Fault Outcome × Machine δ κ ρ :=
  let (result, m) := m.render
  (result.map fun _ => outcome, m)

/-- The instruction that follows `steps` others, up to the point where a frame may be due. Without
a result, the run goes on. -/
def turn (m : Machine δ κ ρ) (p : Pacing) (steps : Nat) :
    Option (Except Fault Outcome) × Machine δ κ ρ :=
  if p.Exhausted steps then
    let (result, m) := m.finish (.stepLimit steps)
    (some result, m)
  else
    let pc := m.core.pc
    match m.step with
    | (.error fault, m) => (some (.error fault), m)
    | (.ok (), m) =>
      if m.core.pc = pc then
        let (result, m) := (m.note (.halted pc (steps + 1))).finish (.halted (steps + 1))
        (some result, m)
      else (none, m)

def frame (m : Machine δ κ ρ) : Except Fault Unit × Machine δ κ ρ := m.tick.render

/-- At most `fuel` turns of a run that has come to `steps` instructions. -/
def runWithin (p : Pacing) (clock : Nat → Nat) :
    Nat → Nat → Machine δ κ ρ → Option (Except Fault Outcome) × Machine δ κ ρ
  | 0, _, m => (none, m)
  | fuel + 1, steps, m =>
    match m.turn p steps with
    | (some result, m) => (some result, m)
    | (none, m) =>
      if p.FrameDue clock (steps + 1) then
        match m.frame with
        | (.error fault, m) => (some (.error fault), m)
        | (.ok (), m) => runWithin p clock fuel (steps + 1) m
      else runWithin p clock fuel (steps + 1) m

/-- How many turns a run can have: its instructions are counted in 64 bits. -/
def longestRun : Nat := 0x10000000000000000

/-- Runs the program. Every run with a limit ends; one without a limit that is still going when the
count is used up has no result. -/
def run (m : Machine δ κ ρ) (p : Pacing) (clock : Nat → Nat) :
    Option (Except Fault Outcome) × Machine δ κ ρ :=
  runWithin p clock longestRun 0 m

end Machine

end ChipEight
