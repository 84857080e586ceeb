import Chip8.Nibble

namespace Chip8

/-- A twelve-bit address, as it stands in an instruction word. -/
abbrev Address := Fin 4096

instance Address.neZero : @NeZero Nat .ofOfNat0 4096 := ⟨by decide⟩

/-- The word that points at an address. -/
def Address.toWord (a : Address) : UInt16 := UInt16.ofNat a.val

/-- An instruction: a sixteen-bit word, read as four nibbles. Every word has the fields below,
whether or not the machine supports it. -/
structure Instruction where
  word : UInt16
deriving DecidableEq

namespace Instruction

/-- The word of two bytes in memory order, the high byte first. -/
def ofBytes (high low : UInt8) : Instruction := ⟨UInt16.ofNat (256 * high.toNat + low.toNat)⟩

/-- The first nibble, which selects the family. -/
def selector (i : Instruction) : Nibble := Nibble.ofLowBits (i.word.toNat / 4096)

/-- The second nibble: the first register operand. -/
def x (i : Instruction) : Nibble := Nibble.ofLowBits (i.word.toNat / 256)

/-- The third nibble: the second register operand. -/
def y (i : Instruction) : Nibble := Nibble.ofLowBits (i.word.toNat / 16)

/-- The fourth nibble: a height or a selector inside a family. -/
def n (i : Instruction) : Nibble := Nibble.ofLowBits i.word.toNat

/-- The low byte: an immediate operand or a selector inside a family. -/
def immediate (i : Instruction) : UInt8 := i.word.toUInt8

/-- The low twelve bits. -/
def address (i : Instruction) : Address := Fin.ofNat 4096 i.word.toNat

end Instruction

/-- The sixteen families of instructions, one for each first nibble. -/
inductive Family
  | system
  | jump
  | call
  | skipIfByte
  | skipUnlessByte
  | skipIfEqual
  | setByte
  | addByte
  | arithmetic
  | skipUnlessEqual
  | setIndex
  | jumpOffset
  | random
  | draw
  | keypad
  | peripheral
deriving DecidableEq

/-- The family that a first nibble selects. -/
def Family.ofNibble (d : Nibble) : Family :=
  #v[system, jump, call, skipIfByte, skipUnlessByte, skipIfEqual, setByte, addByte,
    arithmetic, skipUnlessEqual, setIndex, jumpOffset, random, draw, keypad, peripheral].get d

/-- The family of an instruction. -/
def Instruction.family (i : Instruction) : Family := Family.ofNibble i.selector

end Chip8
