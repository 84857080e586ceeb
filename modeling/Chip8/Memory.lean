import Chip8.Memory.CallStack
import Chip8.Memory.Registers

namespace Chip8

/-- Everything a program can store into, the screen and the timer apart. -/
structure Memory where
  ram : Ram
  registers : Registers
  index : UInt16
  stack : CallStack

namespace Memory

/-- Memory before any program has been placed. -/
def fresh : Memory := ⟨.fresh, .zero, 0, .empty⟩

/-- Brings the addressable bytes back to what they were at first; registers and calls stay. -/
def reset (m : Memory) : Memory := { m with ram := .fresh }

/-- Copies a program to its place. -/
def load (m : Memory) (program : Array UInt8) : Except Fault Memory :=
  (m.ram.load program).map fun ram => { m with ram }

/-- The byte at an address. -/
def read (m : Memory) (a : Nat) : Except Fault UInt8 := m.ram.read a

/-- Replaces the byte at an address. -/
def write (m : Memory) (a : Nat) (b : UInt8) : Except Fault Memory :=
  (m.ram.write a b).map fun ram => { m with ram }

/-- Puts a return address on the call stack. -/
def push (m : Memory) (a : UInt16) : Except Fault Memory :=
  (m.stack.push a).map fun stack => { m with stack }

/-- Takes a return address from the call stack. -/
def pop (m : Memory) : Except Fault (UInt16 × Memory) :=
  m.stack.pop.map fun (a, stack) => (a, { m with stack })

end Memory

end Chip8
