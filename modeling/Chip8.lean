import Chip8.Instruction.Assembly
import Chip8.Instruction.Decode
import Chip8.Keypad.Event
import Chip8.Machine.Dump
import Chip8.Machine.Event
import Chip8.Memory.Event
import Chip8.Runner.Call
import Chip8.Screen.Event
import Chip8.Timer.Board
import Chip8.Worker.Thread
import Chip8.Proofs.Decoding
import Chip8.Proofs.Encoding
import Chip8.Proofs.Disassembly
import Chip8.Proofs.Drawing
import Chip8.Proofs.Drawing.Strokes
import Chip8.Proofs.Cycle.Basic
import Chip8.Proofs.Cycle.Faults
import Chip8.Proofs.Cycle.Bounds
import Chip8.Proofs.Cycle.Subroutines
import Chip8.Proofs.Cycle.Failures
import Chip8.Proofs.Cycle.Frame
import Chip8.Proofs.Checked.Execute
import Chip8.Proofs.Run.Sound
import Chip8.Proofs.Run.Dialects
import Chip8.Proofs.Run.PowerCycle
import Chip8.Proofs.Runner.Replay
import Chip8.Proofs.Runner.Frames
import Chip8.Proofs.Runner.Stepping
import Chip8.Proofs.Run.Background
import Chip8.Proofs.Run.Reordering
import Chip8.Proofs.Run.Locality
import Chip8.Proofs.Timer.Beeps
import Chip8.Proofs.Runner.Sections
import Chip8.Proofs.Worker.Lifecycle
import Chip8.Proofs.Run.Roster
import Chip8.Proofs.Run.Retries
import Chip8.Proofs.Cycle.Transfers
import Chip8.Proofs.Cycle.Arithmetic
import Chip8.Proofs.Run.Waiting
import Chip8.Proofs.Timer.History
import Chip8.Proofs.Memory
import Chip8.Proofs.Screen
import Chip8.Proofs.Keypad.History
import Chip8.Proofs.Run.Transcript
import Chip8.Proofs.Dump
import Chip8.Proofs.Dump.Stretches
