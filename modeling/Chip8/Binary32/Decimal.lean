import Chip8.Binary32.Basic

namespace Chip8

/-- A decimal numeral: digits before and after the point, and a power of ten. -/
structure Decimal where
  whole : List Char
  fraction : List Char
  exponent : Int

namespace Decimal

attribute [local instance (high)] instPowNat

/-- A natural number from its decimal digits. -/
def digitsValue (digits : List Char) : Nat :=
  digits.foldl (fun n c => 10 * n + (c.toNat - '0'.toNat)) 0

/-- Splits a text after its leading decimal digits. -/
def spanDigits (cs : List Char) : List Char × List Char := cs.span Char.isDigit

/-- A whole number with or without a sign, and with at least one digit. -/
def readInteger? (cs : List Char) : Option Int :=
  let read := fun (digits : List Char) =>
    if digits.isEmpty || !digits.all Char.isDigit then none else some (digitsValue digits)
  match cs with
  | '-' :: rest => (read rest).map fun n => -(n : Int)
  | '+' :: rest => (read rest).map Int.ofNat
  | _ => (read cs).map Int.ofNat

/-- The power of ten after a numeral: nothing, or the letter `e` and a whole number. -/
def readExponent? : List Char → Option Int
  | [] => some 0
  | c :: rest => if c = 'e' ∨ c = 'E' then readInteger? rest else none

/-- Reads a numeral without a sign. The point may stand anywhere among the digits, at either end as
well, but there must be a digit. -/
def read? (cs : List Char) : Option Decimal :=
  let (whole, rest) := spanDigits cs
  let (fraction, rest) :=
    match rest with
    | '.' :: rest => spanDigits rest
    | _ => ([], rest)
  if whole.isEmpty && fraction.isEmpty then none
  else (readExponent? rest).map fun exponent => { whole, fraction, exponent }

/-- The pattern of the number nearest to a numeral. Numerals that are far out of range are told by
the place of their first digit, before any power of ten is computed. -/
def pattern (d : Decimal) : Nat :=
  let digits := (d.whole ++ d.fraction).dropWhile (· == '0')
  let n := digitsValue digits
  let exponent := d.exponent - d.fraction.length
  let top := exponent + digits.length
  if n = 0 ∨ top < -60 then 0
  else if 60 < top then Binary32.infinityPattern
  else Binary32.nearest (n * 10 ^ exponent.toNat * Binary32.unitsOfOne) (10 ^ (-exponent).toNat)

end Decimal

namespace Binary32

/-- The pattern of a text without a sign: a decimal numeral, or the name of something that is not a
finite number, in small or capital letters. -/
def readPattern? (cs : List Char) : Option Nat :=
  match Decimal.read? cs with
  | some d => some d.pattern
  | none =>
    match String.ofList (cs.map Char.toLower) with
    | "inf" => some infinityPattern
    | "infinity" => some infinityPattern
    | "nan" => some nan.pattern
    | _ => none

/-- Reads a number: an optional sign and what can follow it. -/
def read? (s : String) : Option Binary32 :=
  match s.toList with
  | '-' :: rest => (readPattern? rest).map (ofPattern true)
  | '+' :: rest => (readPattern? rest).map (ofPattern false)
  | cs => (readPattern? cs).map (ofPattern false)

end Binary32

end Chip8
