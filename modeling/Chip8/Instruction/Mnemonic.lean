import Chip8.Instruction.Word
import Chip8.Text.Hex

namespace Chip8

/-- The name of a register in assembly text. -/
def registerName (x : Nibble) : String := "V" ++ Hex.text 1 x.val

/-- A byte in assembly text. -/
def byteText (b : UInt8) : String := "0x" ++ Hex.text 2 b.toNat

/-- An address in assembly text. -/
def addressText (a : Address) : String := "0x" ++ Hex.text 3 a.val

/-- An instruction as a line of assembly. This is a table over the nibbles of the word, apart from
the one by which instructions are carried out. A word that is not in it is shown as data. -/
def Instruction.mnemonic (i : Instruction) : String :=
  match i.selector, i.n, i.immediate with
  | 0x0, 0x0, _ => "CLS"
  | 0x0, 0xE, _ => "RET"
  | 0x1, _, _ => "JP " ++ addressText i.address
  | 0x2, _, _ => "CALL " ++ addressText i.address
  | 0x3, _, _ => "SE " ++ registerName i.x ++ ", " ++ byteText i.immediate
  | 0x4, _, _ => "SNE " ++ registerName i.x ++ ", " ++ byteText i.immediate
  | 0x5, _, _ => "SE " ++ registerName i.x ++ ", " ++ registerName i.y
  | 0x6, _, _ => "LD " ++ registerName i.x ++ ", " ++ byteText i.immediate
  | 0x7, _, _ => "ADD " ++ registerName i.x ++ ", " ++ byteText i.immediate
  | 0x8, 0x0, _ => "LD " ++ registerName i.x ++ ", " ++ registerName i.y
  | 0x8, 0x1, _ => "OR " ++ registerName i.x ++ ", " ++ registerName i.y
  | 0x8, 0x2, _ => "AND " ++ registerName i.x ++ ", " ++ registerName i.y
  | 0x8, 0x3, _ => "XOR " ++ registerName i.x ++ ", " ++ registerName i.y
  | 0x8, 0x4, _ => "ADD " ++ registerName i.x ++ ", " ++ registerName i.y
  | 0x8, 0x5, _ => "SUB " ++ registerName i.x ++ ", " ++ registerName i.y
  | 0x8, 0x6, _ => "SHR " ++ registerName i.x
  | 0x8, 0x7, _ => "SUBN " ++ registerName i.x ++ ", " ++ registerName i.y
  | 0x8, 0xE, _ => "SHL " ++ registerName i.x
  | 0x9, _, _ => "SNE " ++ registerName i.x ++ ", " ++ registerName i.y
  | 0xA, _, _ => "LD I, " ++ addressText i.address
  | 0xB, _, _ => "JP V0, " ++ addressText i.address
  | 0xC, _, _ => "RND " ++ registerName i.x ++ ", " ++ byteText i.immediate
  | 0xD, _, _ =>
    "DRW " ++ registerName i.x ++ ", " ++ registerName i.y ++ ", " ++ Hex.text 1 i.n.val
  | 0xE, _, 0x9E => "SKP " ++ registerName i.x
  | 0xE, _, 0xA1 => "SKNP " ++ registerName i.x
  | 0xF, _, 0x07 => "LD " ++ registerName i.x ++ ", DT"
  | 0xF, _, 0x0A => "LD " ++ registerName i.x ++ ", K"
  | 0xF, _, 0x15 => "LD DT, " ++ registerName i.x
  | 0xF, _, 0x18 => "LD ST, " ++ registerName i.x
  | 0xF, _, 0x1E => "ADD I, " ++ registerName i.x
  | 0xF, _, 0x29 => "LD F, " ++ registerName i.x
  | 0xF, _, 0x33 => "LD B, " ++ registerName i.x
  | 0xF, _, 0x55 => "LD [I], " ++ registerName i.x
  | 0xF, _, 0x65 => "LD " ++ registerName i.x ++ ", [I]"
  | _, _, _ => "DW 0x" ++ Hex.text 4 i.word.toNat

end Chip8
