import Chip8.Dialect
import Chip8.Instruction.Word
import Chip8.Memory
import Chip8.Random.Source
import Chip8.Screen

namespace Chip8

/-- Whether the machine takes instructions, or waits for a key to put into a register. -/
inductive Mode
  | running
  | awaitingKey (x : Nibble)
deriving DecidableEq

/-- A machine. Time is not part of it: whoever drives it decides when the next instruction is due
and when the timer counts down. -/
structure Machine extends Memory where
  screen : Screen
  /-- The address of the next instruction. -/
  pc : UInt16
  /-- The timer, which counts down to zero. -/
  delay : UInt8
  mode : Mode
  /-- The key that is held, where zero stands for none. -/
  key : UInt8
  /-- The instruction that was fetched last. -/
  last : Option Instruction
  dialect : Dialect
  random : ByteSource

namespace Machine

/-- A machine with a program in place, about to run it. -/
def boot (program : Array UInt8) (dialect : Dialect) (random : ByteSource) : Except Fault Machine :=
  (Memory.fresh.load program).map fun memory =>
    { memory with
      screen := .blank
      pc := UInt16.ofNat programStart
      delay := 0
      mode := .running
      key := 0
      last := none
      dialect
      random }

/-- The value of a register. -/
def register (m : Machine) (x : Nibble) : UInt8 := m.registers.get x

/-- Puts a value into a register. -/
def setRegister (m : Machine) (x : Nibble) (b : UInt8) : Machine :=
  { m with registers := m.registers.set x b }

/-- Whether the machine waits for a key. -/
def isAwaitingKey (m : Machine) : Bool :=
  match m.mode with
  | .running => false
  | .awaitingKey _ => true

/-- Counts the timer down by one, unless it has run out. -/
def timerTick (m : Machine) : Machine :=
  { m with delay := if m.delay = 0 then 0 else m.delay - 1 }

/-- Counts the timer down several times. -/
def timerTicks (m : Machine) (count : Nat) : Machine :=
  { m with delay := UInt8.ofNat (m.delay.toNat - count) }

/-- Tells the machine which key is held. -/
def setKey (m : Machine) (key : UInt8) : Machine := { m with key }

@[simp] theorem timerTicks_zero (m : Machine) : m.timerTicks 0 = m := by
  simp [timerTicks]

theorem timerTicks_succ (m : Machine) (count : Nat) :
    m.timerTicks (count + 1) = (m.timerTicks count).timerTick := by
  unfold timerTicks timerTick
  congr 1
  have hlt : m.delay.toNat - count < 256 := Nat.lt_of_le_of_lt (Nat.sub_le ..) m.delay.toNat_lt
  rw [Nat.sub_add_eq]
  generalize m.delay.toNat - count = left at hlt
  apply UInt8.toNat.inj
  dsimp only
  split
  · rename_i h
    have hzero := congrArg UInt8.toNat h
    rw [UInt8.toNat_ofNat_of_lt' hlt] at hzero
    subst hzero
    rfl
  · rename_i h
    have hpos : left ≠ 0 := fun hzero => h (by rw [hzero]; rfl)
    rw [UInt8.toNat_sub_of_le, UInt8.toNat_ofNat_of_lt' hlt,
      UInt8.toNat_ofNat_of_lt' (Nat.lt_of_le_of_lt (Nat.sub_le ..) hlt)]
    · rfl
    · rw [UInt8.le_iff_toNat_le, UInt8.toNat_ofNat_of_lt' hlt]
      exact Nat.one_le_iff_ne_zero.2 hpos

/-- The timer ticks of a count come one after the other. -/
theorem timerTicks_eq_repeat (m : Machine) (count : Nat) :
    m.timerTicks count = Nat.repeat timerTick count m := by
  induction count with
  | zero => exact m.timerTicks_zero
  | succ count ih =>
    rw [timerTicks_succ, ih]
    rfl

end Machine

end Chip8
