import ChipEight.FileTree
import ChipEight.Main
import ChipEight.Proofs.Machine.CallStack
import ChipEight.Proofs.Machine.Failure
import ChipEight.Proofs.Run.FastForward
import ChipEight.Proofs.Run.Pacing
import ChipEight.Proofs.Core.Flow
import ChipEight.Proofs.Run.Reach
import ChipEight.Proofs.Run.Halting
import ChipEight.Proofs.Run.Simulation
import ChipEight.Proofs.Run.Strictness
import ChipEight.Proofs.Core.Widened
import ChipEight.Proofs.Display.Unfailing
import ChipEight.Proofs.Machine.Enlarged
import ChipEight.Proofs.Run.Operation
import ChipEight.Proofs.Run.Displays
import ChipEight.Proofs.Machine.Timers
import ChipEight.Proofs.Run.Timers
import ChipEight.Proofs.Run.Guarded
import ChipEight.Proofs.Run.Freshness
import ChipEight.Proofs.Run.CutShort
import ChipEight.Proofs.Keypad.Layout
import ChipEight.Proofs.Machine.KeyPresses
import ChipEight.Proofs.Core.Arithmetic
import ChipEight.Proofs.Instruction.Fields
import ChipEight.Proofs.Machine.Arithmetic
import ChipEight.Proofs.Display.Blit
import ChipEight.Proofs.Machine.Drawing
import ChipEight.Proofs.Core.Table
import ChipEight.Proofs.Display.Transcript
import ChipEight.Proofs.Session.Ready
import ChipEight.Proofs.Session.Start
import ChipEight.Proofs.Machine.Flow
import ChipEight.Proofs.Run.Splitting
import ChipEight.Proofs.Memory.History
import ChipEight.Proofs.Memory.Access
import ChipEight.Proofs.Core.Transfer
import ChipEight.Proofs.Machine.Transfer
import ChipEight.Proofs.Machine.Font
import ChipEight.Proofs.Machine.RandomBytes
import ChipEight.Proofs.CommandLine.Address
import ChipEight.Proofs.Instruction.Assembly
import ChipEight.Proofs.Machine.Disassembly
import ChipEight.Proofs.Run.Drift
import ChipEight.Proofs.Machine.TraceLog
import ChipEight.Proofs.Core.TableReading
import ChipEight.Proofs.Display.Frame
import ChipEight.Proofs.Fault.Context
