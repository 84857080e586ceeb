import Chip8.Machine.Execute
import Chip8.Machine.Record

namespace Chip8

/-- What a tick that did not fail has done. -/
inductive Signal
  | executed
  | keyAccepted
  | awaitingKey
deriving DecidableEq

/-- A tick: how it went, the machine after it, and what it adds to the log. -/
structure Tick where
  result : Except Fault Signal
  machine : Machine
  log : List Record

namespace Machine

/-- What placing a program adds to the log. -/
def bootLog (program : Array UInt8) : List Record := [.loaded program.size]

/-- The instruction at the program counter. -/
def fetch (m : Machine) : Except Fault Instruction :=
  match m.ram.read m.pc.toNat with
  | .error f => .error f
  | .ok high => (m.ram.read (m.pc.toNat + 1)).map (Instruction.ofBytes high ·)

/-- The machine past an instruction that has been fetched and not yet carried out. -/
def pass (m : Machine) (i : Instruction) : Machine := { m with pc := m.pc + 2, last := some i }

/-- A tick of a machine that waits for a key to put into `x`. -/
def acceptKey (m : Machine) (x : Nibble) : Tick :=
  if m.key = 0 then ⟨.ok .awaitingKey, m, []⟩
  else ⟨.ok .keyAccepted, { m.setRegister x m.key with mode := .running }, [.keyStored m.key x]⟩

/-- A tick of a running machine. If the instruction cannot be fetched nothing changes; if it cannot
be carried out, the machine has still passed it. -/
def runNext (m : Machine) : Tick :=
  match m.fetch with
  | .error f => ⟨.error f, m, []⟩
  | .ok i =>
    let attempt := (m.pass i).execute i.operation
    { result := match attempt.fault with
        | none => .ok .executed
        | some f => .error f
      machine := attempt.reached
      log := .fetched m.pc i :: i.operation.remarks }

/-- Lets the machine do one step. -/
def tick (m : Machine) : Tick :=
  match m.mode with
  | .awaitingKey x => m.acceptKey x
  | .running => m.runNext

end Machine

end Chip8
