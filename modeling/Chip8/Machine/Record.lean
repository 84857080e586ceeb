import Chip8.Instruction.Mnemonic
import Chip8.Instruction.Operation
import Chip8.Memory.Layout

namespace Chip8

/-- How much a record of the log matters. -/
inductive Level
  | trace
  | debug
  | warn
deriving DecidableEq

/-- A record of the log. -/
inductive Record
  | loaded (size : Nat)
  | fetched (address : UInt16) (i : Instruction)
  | ignored (i : Instruction)
  | waiting (x : Nibble)
  | keyStored (key : UInt8) (x : Nibble)
deriving DecidableEq

namespace Record

/-- How much a record matters. -/
def level : Record → Level
  | fetched .. => .trace
  | ignored _ => .warn
  | loaded _ | waiting _ | keyStored .. => .debug

/-- What a record says. -/
def text : Record → String
  | loaded size => "loaded " ++ size.repr ++ " byte program at 0x" ++ Hex.text 3 programStart
  | fetched a i =>
    "0x" ++ Hex.text 3 a.toNat ++ ": " ++ Hex.text 4 i.word.toNat ++ " " ++ i.mnemonic
  | ignored i => "ignoring unsupported instruction " ++ Hex.text 4 i.word.toNat
  | waiting x => "waiting for key into " ++ registerName x
  | keyStored key x => "key " ++ byteText key ++ " stored in " ++ registerName x

end Record

/-- The name of a level as a log shows it. -/
def Level.name : Level → String
  | trace => "TRACE"
  | debug => "DEBUG"
  | warn => "WARN"

/-- A record as a line. -/
def Record.line (r : Record) : String := r.level.name ++ " " ++ r.text

/-- What carrying out an operation adds to the log. -/
def Operation.remarks : Operation → List Record
  | .awaitKey x => [.waiting x]
  | .unsupported i => [.ignored i]
  | _ => []

end Chip8
