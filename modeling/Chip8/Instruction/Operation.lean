import Chip8.Instruction.Word

namespace Chip8

/-- The two-register operations of the arithmetic family that keep or replace the first register
without looking at single bits of it. -/
inductive Arithmetic
  | copy
  | or
  | and
  | xor
  | add
  | subtract
  | subtractFrom
deriving DecidableEq

/-- What an instruction asks the machine to do, with the operands that matter for it and no
others: two words with the same operation cannot be told apart by running them. -/
inductive Operation
  | clear
  | ret
  | jump (target : Address)
  | call (target : Address)
  | skipIfByte (x : Nibble) (b : UInt8)
  | skipUnlessByte (x : Nibble) (b : UInt8)
  | skipIfEqual (x y : Nibble)
  | skipUnlessEqual (x y : Nibble)
  | setByte (x : Nibble) (b : UInt8)
  | addByte (x : Nibble) (b : UInt8)
  | arithmetic (f : Arithmetic) (x y : Nibble)
  | shiftRight (x : Nibble)
  | shiftLeft (x : Nibble)
  | setIndex (target : Address)
  | jumpOffset (base : Address)
  | random (x : Nibble) (mask : UInt8)
  | draw (x y height : Nibble)
  | skipIfKey (x : Nibble)
  | skipUnlessKey (x : Nibble)
  | readDelay (x : Nibble)
  | awaitKey (x : Nibble)
  | setDelay (x : Nibble)
  | setSound (x : Nibble)
  | addIndex (x : Nibble)
  | glyph (x : Nibble)
  | decimal (x : Nibble)
  | store (x : Nibble)
  | load (x : Nibble)
  | unsupported (i : Instruction)
deriving DecidableEq

namespace Instruction

/-- The arithmetic family, selected by the last nibble. -/
def arithmeticOperation (i : Instruction) : Operation :=
  match i.n with
  | 0x0 => .arithmetic .copy i.x i.y
  | 0x1 => .arithmetic .or i.x i.y
  | 0x2 => .arithmetic .and i.x i.y
  | 0x3 => .arithmetic .xor i.x i.y
  | 0x4 => .arithmetic .add i.x i.y
  | 0x5 => .arithmetic .subtract i.x i.y
  | 0x6 => .shiftRight i.x
  | 0x7 => .arithmetic .subtractFrom i.x i.y
  | 0xE => .shiftLeft i.x
  | _ => .unsupported i

/-- The family of timers, keypad, index register and block transfers, selected by the low byte. -/
def peripheralOperation (i : Instruction) : Operation :=
  match i.immediate with
  | 0x07 => .readDelay i.x
  | 0x0A => .awaitKey i.x
  | 0x15 => .setDelay i.x
  | 0x18 => .setSound i.x
  | 0x1E => .addIndex i.x
  | 0x29 => .glyph i.x
  | 0x33 => .decimal i.x
  | 0x55 => .store i.x
  | 0x65 => .load i.x
  | _ => .unsupported i

/-- The operation of an instruction. Bits that the family does not name are ignored: any word
`0NN0` clears the screen, and the last nibble of a register comparison is free. -/
def operation (i : Instruction) : Operation :=
  match i.family with
  | .system =>
    match i.n with
    | 0x0 => .clear
    | 0xE => .ret
    | _ => .unsupported i
  | .jump => .jump i.address
  | .call => .call i.address
  | .skipIfByte => .skipIfByte i.x i.immediate
  | .skipUnlessByte => .skipUnlessByte i.x i.immediate
  | .skipIfEqual => .skipIfEqual i.x i.y
  | .setByte => .setByte i.x i.immediate
  | .addByte => .addByte i.x i.immediate
  | .arithmetic => i.arithmeticOperation
  | .skipUnlessEqual => .skipUnlessEqual i.x i.y
  | .setIndex => .setIndex i.address
  | .jumpOffset => .jumpOffset i.address
  | .random => .random i.x i.immediate
  | .draw => .draw i.x i.y i.n
  | .keypad =>
    match i.immediate with
    | 0x9E => .skipIfKey i.x
    | 0xA1 => .skipUnlessKey i.x
    | _ => .unsupported i
  | .peripheral => i.peripheralOperation

end Instruction

end Chip8
