namespace Chip8

/-- The points on which machines of this kind disagree, each a switch. With every switch off the
machine follows the usual description of the instruction set. -/
structure Dialect where
  /-- After a subtraction the flag is one if there was a borrow, rather than if there was none. -/
  flagsBorrow : Bool
  /-- A shift to the left puts the upper five bits of its operand into the flag, rather than the
  top bit alone. -/
  flagsUpperBits : Bool
  /-- The three decimal digits of a byte all go to one address, the last digit last. -/
  stacksDigits : Bool
  /-- The glyph instruction takes the index from the memory cell at five times the register's
  number, rather than pointing at the glyph of the register's value. -/
  glyphThroughMemory : Bool
  /-- A block transfer stops before the register that it names, rather than after it. -/
  transfersExclusive : Bool
  /-- Subtractions, shifts and draws look at their operands again after the flag register has been
  written. -/
  flagBeforeOperands : Bool
deriving DecidableEq

/-- Every switch on. -/
def Dialect.legacy : Dialect := ⟨true, true, true, true, true, true⟩

/-- Every switch off. -/
def Dialect.compliant : Dialect := ⟨false, false, false, false, false, false⟩

/-- The dialects that can be chosen by name. -/
inductive Profile
  | legacy
  | compliant
deriving DecidableEq

namespace Profile

/-- The profile of a machine that is not told otherwise. -/
def standard : Profile := .legacy

/-- The dialect of a profile. -/
def dialect : Profile → Dialect
  | legacy => .legacy
  | compliant => .compliant

/-- The name by which a profile is chosen. -/
def name : Profile → String
  | legacy => "legacy"
  | compliant => "compliant"

/-- Every profile. -/
def all : List Profile := [legacy, compliant]

/-- The profile of a given name, spelled exactly. -/
def ofName? (s : String) : Option Profile := all.find? fun p => p.name = s

/-- The profile of a given name, where upper and lower case count as the same for the letters of
ASCII and no others. -/
def ofNameIgnoringCase? (s : String) : Option Profile :=
  all.find? fun p => p.name.toList = s.toList.map Char.toLower

end Profile

end Chip8
