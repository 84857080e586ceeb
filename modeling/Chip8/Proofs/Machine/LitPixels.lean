import Chip8.Proofs.Machine.Drawing
import Mathlib.Algebra.GroupWithZero.Nat

namespace Chip8

namespace Screen

theorem litCount_flip_of_unlit {s : Screen} {x y : Nat} (h : s.pixel x y = false) :
    (s.flip x y).litCount = s.litCount + 1 := by
  have hoff : s.pixels[(place x y).val] = false := h
  simp [litCount, flip, Vector.count_set, h, hoff]

end Screen

namespace Machine

end Machine

end Chip8
