import Chip8.Binary32.Basic
import Chip8.Binary32.Decimal
import Chip8.Binary32.Leap
import Chip8.Binary32.Units
import Chip8.CommandLine.Argument
import Chip8.CommandLine.Options
import Chip8.CommandLine.Seed
import Chip8.Console
import Chip8.Console.Frame
import Chip8.Console.Key
import Chip8.Console.Panel
import Chip8.Dialect
import Chip8.Fault
import Chip8.Instruction.Mnemonic
import Chip8.Instruction.Operation
import Chip8.Instruction.Word
import Chip8.Launch
import Chip8.Machine.Arithmetic
import Chip8.Machine.Clocked
import Chip8.Machine.Execute
import Chip8.Machine.Record
import Chip8.Machine.Run
import Chip8.Machine.State
import Chip8.Machine.Tick
import Chip8.Main
import Chip8.Memory
import Chip8.Memory.CallStack
import Chip8.Memory.Layout
import Chip8.Memory.Ram
import Chip8.Memory.Registers
import Chip8.Nibble
import Chip8.Proofs.Binary32.Order
import Chip8.Proofs.Binary32.Reach
import Chip8.Proofs.Binary32.Spacing
import Chip8.Proofs.CommandLine.Arrangement
import Chip8.Proofs.CommandLine.Item
import Chip8.Proofs.CommandLine.Reader
import Chip8.Proofs.Console.HeldKey
import Chip8.Proofs.Console.Inspection
import Chip8.Proofs.Console.LatestKey
import Chip8.Proofs.Console.Layout
import Chip8.Proofs.Console.Picture
import Chip8.Proofs.Console.Reading
import Chip8.Proofs.Console.Status
import Chip8.Proofs.Dialect.Sensitivity
import Chip8.Proofs.Dialect.Switching
import Chip8.Proofs.Instruction.Assembly
import Chip8.Proofs.Instruction.Encoding
import Chip8.Proofs.Machine.Arithmetic
import Chip8.Proofs.Machine.Boot
import Chip8.Proofs.Machine.Change
import Chip8.Proofs.Machine.Clocks
import Chip8.Proofs.Machine.Compositing
import Chip8.Proofs.Machine.Disassembly
import Chip8.Proofs.Machine.Dispatch
import Chip8.Proofs.Machine.Drawing
import Chip8.Proofs.Machine.Effect
import Chip8.Proofs.Machine.Failure
import Chip8.Proofs.Machine.Feedback
import Chip8.Proofs.Machine.Footprint
import Chip8.Proofs.Machine.History
import Chip8.Proofs.Machine.Interleaving
import Chip8.Proofs.Machine.Interruption
import Chip8.Proofs.Machine.KeyWait
import Chip8.Proofs.Machine.LitPixels
import Chip8.Proofs.Machine.Meantime
import Chip8.Proofs.Machine.Obstacle
import Chip8.Proofs.Machine.Pausing
import Chip8.Proofs.Machine.Printing
import Chip8.Proofs.Machine.ProgramCounter
import Chip8.Proofs.Machine.Randomness
import Chip8.Proofs.Machine.Returning
import Chip8.Proofs.Machine.Subroutine
import Chip8.Proofs.Machine.Transfer
import Chip8.Proofs.Memory.Access
import Chip8.Proofs.Memory.Window
import Chip8.Proofs.Screen.Scan
import Chip8.Proofs.Text.Hex
import Chip8.Proofs.Text.Numeral
import Chip8.Random.ChaCha
import Chip8.Random.Source
import Chip8.Screen
import Chip8.Text.Cluster
import Chip8.Text.CodeRanges
import Chip8.Text.Columns
import Chip8.Text.Combining
import Chip8.Text.Conjunct
import Chip8.Text.Hex
import Chip8.Text.Joining
import Chip8.Text.Picture
import Chip8.Text.Width
