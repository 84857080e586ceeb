namespace Chip8.CommandLine

/-- The value of a digit of any of the sixteen kinds. -/
def digitValue? (c : Char) : Option Nat :=
  if '0' ≤ c ∧ c ≤ '9' then some (c.toNat - '0'.toNat)
  else if 'a' ≤ c ∧ c ≤ 'f' then some (c.toNat - 'a'.toNat + 10)
  else if 'A' ≤ c ∧ c ≤ 'F' then some (c.toNat - 'A'.toNat + 10)
  else none

/-- Reads digits on top of a number that has been read already. -/
def readDigits? (base : Nat) : Nat → List Char → Option Nat
  | n, [] => some n
  | n, c :: rest =>
    match digitValue? c with
    | some d => if d < base then readDigits? base (base * n + d) rest else none
    | none => none

/-- Reads a number without a minus sign, of at least one digit. -/
def readNumber? (base : Nat) (cs : List Char) : Option Nat :=
  let digits :=
    match cs with
    | '+' :: rest => rest
    | _ => cs
  if digits.isEmpty then none else readDigits? base 0 digits

/-- Reads a seed, in hexadecimal after `0x` and in decimal otherwise. -/
def readSeed? (s : String) : Option UInt64 :=
  let number :=
    match s.toList with
    | '0' :: 'x' :: rest => readNumber? 16 rest
    | '0' :: 'X' :: rest => readNumber? 16 rest
    | cs => readNumber? 10 cs
  number.bind fun n => if n < UInt64.size then some (UInt64.ofNat n) else none

end Chip8.CommandLine
