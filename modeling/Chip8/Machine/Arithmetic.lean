import Chip8.Dialect
import Chip8.Instruction.Operation
import Chip8.Memory.Registers

namespace Chip8

/-- The flag that stands for a truth value. -/
def flagOf (b : Bool) : UInt8 := if b then 1 else 0

/-- The flag of a subtraction, by whether there was a borrow. -/
def Dialect.borrowFlag (d : Dialect) (borrow : Bool) : UInt8 := flagOf (borrow == d.flagsBorrow)

/-- The flag of a shift to the left. -/
def Dialect.leftShiftFlag (d : Dialect) (b : UInt8) : UInt8 :=
  if d.flagsUpperBits then b >>> 3 else b >>> 7

namespace Registers

/-- Writes the flag and after it the result of an operation on `x` and `y`, so that the result stays
where the target `x` is the flag register itself. With `again` the operands are taken after the flag
has been written. -/
def putFlagged (v : Registers) (again : Bool) (x y : Nibble) (f : UInt8)
    (result : UInt8 → UInt8 → UInt8) : Registers :=
  let flagged := v.set flag f
  let seen := if again then flagged else v
  flagged.set x (result (seen.get x) (seen.get y))

/-- Carries out a two-register operation. -/
def arithmetic (v : Registers) (d : Dialect) (f : Arithmetic) (x y : Nibble) : Registers :=
  let a := v.get x
  let b := v.get y
  match f with
  | .copy => v.set x b
  | .or => v.set x (a ||| b)
  | .and => v.set x (a &&& b)
  | .xor => v.set x (a ^^^ b)
  | .add => v.putFlagged false x y (flagOf (255 < a.toNat + b.toNat)) (· + ·)
  | .subtract => v.putFlagged d.flagBeforeOperands x y (d.borrowFlag (a < b)) (· - ·)
  | .subtractFrom =>
    v.putFlagged d.flagBeforeOperands x y (d.borrowFlag (b < a)) fun a b => b - a

/-- Halves a register. The flag is the bit that falls out. -/
def shiftRight (v : Registers) (d : Dialect) (x : Nibble) : Registers :=
  v.putFlagged d.flagBeforeOperands x x (v.get x &&& 1) fun a _ => a >>> 1

/-- Doubles a register. -/
def shiftLeft (v : Registers) (d : Dialect) (x : Nibble) : Registers :=
  v.putFlagged d.flagBeforeOperands x x (d.leftShiftFlag (v.get x)) fun a _ => a <<< 1

end Registers

end Chip8
