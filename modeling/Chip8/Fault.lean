import Chip8.Memory.Layout
import Chip8.Text.Hex

namespace Chip8

/-- Why a program cannot be loaded or an instruction cannot be carried out. -/
inductive Fault
  | programTooLarge (size : Nat)
  | outOfBounds (address : Nat)
  | stackUnderflow
  | stackOverflow
deriving DecidableEq

/-- A fault in words. -/
def Fault.message : Fault → String
  | programTooLarge size =>
    "ROM is too large (" ++ size.repr ++ " bytes), max size is " ++ programCapacity.repr ++ " bytes"
  | outOfBounds address => "Memory access out of bounds at address 0x" ++ Hex.text 4 address
  | stackUnderflow =>
    "Stack underflow: attempted to return from a subroutine with empty call stack"
  | stackOverflow =>
    "Stack overflow: call nesting exceeded " ++ stackDepth.repr ++ " levels"

/-- What a piece of work has reached, and the fault that cut it short there, if there was one. -/
structure Attempt (α : Type) where
  reached : α
  fault : Option Fault

namespace Attempt

/-- Work that went through. -/
def done {α : Type} (a : α) : Attempt α := ⟨a, none⟩

/-- Work that a fault cut short. -/
def stopped {α : Type} (a : α) (f : Fault) : Attempt α := ⟨a, some f⟩

/-- Work in one stroke: either it goes through, or everything stays as it was. -/
def ofExcept {α : Type} (before : α) : Except Fault α → Attempt α
  | .ok after => done after
  | .error f => stopped before f

/-- The same work seen as part of something larger. -/
def map {α β : Type} (g : α → β) (t : Attempt α) : Attempt β := ⟨g t.reached, t.fault⟩

end Attempt

end Chip8
