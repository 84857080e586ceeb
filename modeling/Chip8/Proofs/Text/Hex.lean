import Chip8.Text.Hex
import Mathlib.Logic.Function.Basic

namespace Chip8.Hex

-- Powers of natural numbers are the built-in ones, whatever else is in scope.
attribute [local instance (high)] instPowNat

theorem digit_injective : Function.Injective digit := by
  intro d e
  revert d e
  decide

theorem notMem_fixed {c : Char} (h : ∀ d, digit d ≠ c) (width n : Nat) : c ∉ fixed width n := by
  induction width generalizing n with
  | zero => exact List.not_mem_nil
  | succ width ih =>
    intro hc
    obtain hc | hc := List.mem_append.1 hc
    · exact ih _ hc
    · exact h _ (List.mem_singleton.1 hc).symm

/-- Numbers that fit into a width differ in one of their digits there. -/
theorem fixed_inj {width n k : Nat} (hn : n < 16 ^ width) (hk : k < 16 ^ width)
    (h : fixed width n = fixed width k) : n = k := by
  induction width generalizing n k with
  | zero => omega
  | succ width ih =>
    obtain ⟨hfront, hlast⟩ := List.append_inj h (by simp)
    have hdigit : Nibble.ofLowBits n = Nibble.ofLowBits k :=
      digit_injective (List.singleton_inj.1 hlast)
    have hlow : n % 16 = k % 16 := congrArg Fin.val hdigit
    have hhigh : n / 16 = k / 16 := ih (by omega) (by omega) hfront
    omega

theorem size_le {width n : Nat} (h : n < 16 ^ (width + 1)) : size n ≤ width + 1 := by
  unfold size
  obtain rfl | hpos := Nat.eq_zero_or_pos n
  · simp
  · have hbits : n < 2 ^ (4 * (width + 1)) := by
      rw [Nat.pow_mul]
      exact h
    have hlog := (Nat.log2_lt (Nat.ne_of_gt hpos)).2 hbits
    omega

/-- A number that fits into a width is written with exactly that many digits. -/
theorem toList_text_of_lt {width n : Nat} (h : n < 16 ^ (width + 1)) :
    (text (width + 1) n).toList = fixed (width + 1) n := by
  rw [toList_text, Nat.max_eq_left (size_le h)]

end Chip8.Hex
