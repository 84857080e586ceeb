import Chip8.Nibble

namespace Chip8.Hex

/-- The upper-case hexadecimal digit of a nibble. -/
def digit (d : Nibble) : Char :=
  #v['0', '1', '2', '3', '4', '5', '6', '7', '8', '9', 'A', 'B', 'C', 'D', 'E', 'F'].get d

/-- The last `width` hexadecimal digits of a number, most significant first. -/
def fixed : Nat → Nat → List Char
  | 0, _ => []
  | width + 1, n => fixed width (n / 16) ++ [digit (Nibble.ofLowBits n)]

/-- How many hexadecimal digits a number takes; zero takes one. -/
def size (n : Nat) : Nat := n.log2 / 4 + 1

/-- A number in hexadecimal, padded with zeros to at least `width` digits. -/
def text (width n : Nat) : String := String.ofList (fixed (max width (size n)) n)

@[simp] theorem length_fixed (width n : Nat) : (fixed width n).length = width := by
  induction width generalizing n with
  | zero => rfl
  | succ width ih => simp [fixed, ih]

@[simp] theorem toList_text (width n : Nat) :
    (text width n).toList = fixed (max width (size n)) n := by
  simp [text]

end Chip8.Hex
