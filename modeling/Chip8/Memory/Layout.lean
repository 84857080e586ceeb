namespace Chip8

/-- How many bytes can be addressed. -/
def memorySize : Nat := 4096

/-- The address at which a program is placed and started. -/
def programStart : Nat := 0x200

/-- The size of the largest program that can be placed. -/
def programCapacity : Nat := memorySize - programStart

/-- How many return addresses the call stack holds. -/
def stackDepth : Nat := 16

/-- The address of the first glyph. -/
def fontStart : Nat := 0

/-- How many bytes a glyph takes, one for each of its rows. -/
def glyphSize : Nat := 5

/-- The glyphs of the hexadecimal digits, in order. -/
def font : Vector UInt8 (16 * glyphSize) :=
  #v[0xF0, 0x90, 0x90, 0x90, 0xF0,
    0x20, 0x60, 0x20, 0x20, 0x70,
    0xF0, 0x10, 0xF0, 0x80, 0xF0,
    0xF0, 0x10, 0xF0, 0x10, 0xF0,
    0x90, 0x90, 0xF0, 0x10, 0x10,
    0xF0, 0x80, 0xF0, 0x10, 0xF0,
    0xF0, 0x80, 0xF0, 0x90, 0xF0,
    0xF0, 0x10, 0x20, 0x40, 0x40,
    0xF0, 0x90, 0xF0, 0x90, 0xF0,
    0xF0, 0x90, 0xF0, 0x10, 0xF0,
    0xF0, 0x90, 0xF0, 0x90, 0x90,
    0xE0, 0x90, 0xE0, 0x90, 0xE0,
    0xF0, 0x80, 0x80, 0x80, 0xF0,
    0xE0, 0x90, 0x90, 0x90, 0xE0,
    0xF0, 0x80, 0xF0, 0x80, 0xF0,
    0xF0, 0x80, 0xF0, 0x80, 0x80]

/-- The first address after the glyphs. -/
def fontEnd : Nat := fontStart + 16 * glyphSize

end Chip8
