import ChipEight.Run

namespace ChipEight

structure Options where
  rom : String
  clockSpeed : UInt32
  timerSpeed : UInt32
  maxSteps : Option UInt64
  fastForward : Bool
  memorySize : UInt64
  start : UInt16
  permissive : Bool
  keys : String
  debugDisplay : Bool
  dump : Bool
  logLevel : Option Level
  deriving DecidableEq

namespace Options

def standard : Options where
  rom := ""
  clockSpeed := Pacing.standardClockSpeed
  timerSpeed := Pacing.standardTimerSpeed
  maxSteps := none
  fastForward := false
  memorySize := Config.standard.memorySize
  start := Config.standard.programStart
  permissive := !Config.standard.strict
  keys := ""
  debugDisplay := false
  dump := false
  logLevel := some .warn

def config (o : Options) : Config := ⟨o.memorySize, o.start, !o.permissive⟩

def pacing (o : Options) : Pacing := ⟨o.clockSpeed, o.timerSpeed, o.maxSteps, o.fastForward⟩

end Options

end ChipEight
