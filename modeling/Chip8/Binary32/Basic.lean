namespace Chip8

/-- A floating-point number of thirty-two bits: a sign, eight bits of exponent and twenty-three of
fraction. It is kept as its pattern, so that the two zeros and the different things that are not
numbers stay apart. -/
structure Binary32 where
  bits : UInt32
deriving DecidableEq

namespace Binary32

-- Powers of natural numbers are the built-in ones, whatever else is in scope.
attribute [local instance (high)] instPowNat

/-- The pattern of infinity. What lies above it is not a number. -/
def infinityPattern : Nat := 0x7F800000

/-- The pattern without the sign. -/
def pattern (a : Binary32) : Nat := a.bits.toNat % 0x80000000

/-- Whether the sign is set. -/
def negative (a : Binary32) : Bool := 0x80000000 ≤ a.bits.toNat

/-- Whether this is not a number. -/
def isNaN (a : Binary32) : Bool := infinityPattern < a.pattern

/-- Whether this is one of the two infinities. -/
def isInfinite (a : Binary32) : Bool := a.pattern = infinityPattern

/-- The number of a sign and a pattern without one. -/
def ofPattern (negative : Bool) (pattern : Nat) : Binary32 :=
  ⟨UInt32.ofNat (if negative then 0x80000000 + pattern else pattern)⟩

/-- Not a number. -/
def nan : Binary32 := ⟨0x7FC00000⟩

/-- Infinity with a sign. -/
def infinity (negative : Bool) : Binary32 := ofPattern negative infinityPattern

/-- Zero without a sign. -/
def zero : Binary32 := ⟨0⟩

/-- What the last place of a finite number is worth, as a power of two in units. The numbers of the
lowest two exponents share theirs. -/
def scale (a : Binary32) : Nat := a.pattern / 0x800000 - 1

/-- A finite number without its sign, as a count of last places. -/
def significand (a : Binary32) : Nat := a.pattern - a.scale * 0x800000

/-- The magnitude of a finite number as a count of units, each `2 ^ -149`, the least positive
number. All finite numbers are whole counts. -/
def units (a : Binary32) : Nat := a.significand * 2 ^ a.scale

/-- How many units make one. -/
def unitsOfOne : Nat := 1 <<< 149

/-- The pattern for `num / step` last places, each worth `2 ^ scale` units, if they are as many as a
number of this scale has. Of two patterns that are equally near the even one is taken, and what is
too large becomes infinite. -/
def rounded (scale num step : Nat) : Nat :=
  let whole := num / step
  let rest := num % step
  let up := step < 2 * rest ∨ step = 2 * rest ∧ whole % 2 = 1
  min infinityPattern (scale * 0x800000 + whole + if up then 1 else 0)

/-- The pattern of the magnitude nearest to `num / den` units. -/
def nearest (num den : Nat) : Nat :=
  let scale := (num / den).log2 - 23
  rounded scale num (den * 2 ^ scale)

/-- The pattern of the magnitude nearest to `n * 2 ^ scale` units. The product itself, which may be
large, is not needed. -/
def nearestScaled (n scale : Nat) : Nat :=
  if n = 0 then 0
  else
    let target := n.log2 + scale - 23
    rounded target (n * 2 ^ (scale - target)) (2 ^ (target - scale))

/-- The number nearest to a quotient. -/
def ofRatio (num den : Nat) : Binary32 := ofPattern false (nearest (num * unitsOfOne) den)

/-- The number nearest to a natural number. -/
def ofNat (n : Nat) : Binary32 := ofRatio n 1

/-- The count of units of a finite number, with its sign. -/
def signedUnits (a : Binary32) : Int := if a.negative then -a.units else a.units

/-- A finite number as a count of places, each worth `2 ^ scale` units, if that is not more than its
last place is worth. -/
def places (a : Binary32) (scale : Nat) : Int :=
  let n := a.significand * 2 ^ (a.scale - scale)
  if a.negative then -n else n

/-- The same number with the other sign. -/
def neg (a : Binary32) : Binary32 := ofPattern (!a.negative) a.pattern

/-- The sum, rounded to the nearest number. A sum of zero has no sign unless both zeros have. -/
def add (a b : Binary32) : Binary32 :=
  if a.isNaN || b.isNaN then nan
  else if a.isInfinite then
    if b.isInfinite && a.negative != b.negative then nan else a
  else if b.isInfinite then b
  else
    let scale := min a.scale b.scale
    let sum := a.places scale + b.places scale
    ofPattern (sum < 0 || sum = 0 && a.negative && b.negative) (nearestScaled sum.natAbs scale)

instance : Neg Binary32 := ⟨neg⟩

instance : Add Binary32 := ⟨add⟩

instance : Sub Binary32 := ⟨fun a b => a + -b⟩

/-- One divided by a number, rounded to the nearest number. -/
def inverse (a : Binary32) : Binary32 :=
  if a.isNaN then nan
  else if a.isInfinite then ofPattern a.negative 0
  else if a.units = 0 then infinity a.negative
  else ofPattern a.negative (nearest (unitsOfOne * unitsOfOne) a.units)

/-- The place of a number in the order of all numbers, where the two zeros share theirs. -/
def rank (a : Binary32) : Int := if a.negative then -a.pattern else a.pattern

/-- Whether a number is at most another. It never is when one of them is not a number. -/
def le (a b : Binary32) : Bool := !a.isNaN && !b.isNaN && a.rank ≤ b.rank

/-- Whether a number is less than another. It never is when one of them is not a number. -/
def lt (a b : Binary32) : Bool := !a.isNaN && !b.isNaN && a.rank < b.rank

theorem le_iff {a b : Binary32} :
    a.le b = true ↔ a.isNaN = false ∧ b.isNaN = false ∧ a.rank ≤ b.rank := by
  simp [le, and_assoc]

theorem lt_iff {a b : Binary32} :
    a.lt b = true ↔ a.isNaN = false ∧ b.isNaN = false ∧ a.rank < b.rank := by
  simp [lt, and_assoc]

end Binary32

end Chip8
