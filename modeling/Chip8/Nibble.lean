namespace Chip8

/-- A four-bit quantity: a register number, an operand field, a hexadecimal digit. -/
abbrev Nibble := Fin 16

-- Named, so that the literals of all modules rest on one proof.
instance Nibble.neZero : @NeZero Nat .ofOfNat0 16 := ⟨by decide⟩

/-- The nibble equal to a byte, for the bytes that are below sixteen. -/
def Nibble.ofByte? (b : UInt8) : Option Nibble :=
  if h : b.toNat < 16 then some ⟨b.toNat, h⟩ else none

/-- The low four bits of a number. -/
def Nibble.ofLowBits (n : Nat) : Nibble := Fin.ofNat 16 n

/-- The byte with the same value. -/
def Nibble.toByte (d : Nibble) : UInt8 := UInt8.ofNat d.val

end Chip8
