namespace Chip8

/-- Whether ranges are in order, and neither empty nor adjacent. -/
def rangesAscend : List (Nat × Nat) → Bool
  | [] => true
  | [r] => r.1 ≤ r.2
  | r :: s :: rest => r.1 ≤ r.2 && r.2 + 1 < s.1 && rangesAscend (s :: rest)

/-- A set of characters, as closed ranges of code points. The sets that tell how characters are
joined follow Unicode 17, and those that tell how many columns they take Unicode 18. -/
structure CodeRanges where
  ranges : List (Nat × Nat)
  ascend : rangesAscend ranges = true := by decide +kernel

namespace CodeRanges

/-- Whether a character is in the set. -/
def contains (s : CodeRanges) (c : Char) : Bool :=
  s.ranges.any fun r => r.1 ≤ c.toNat && c.toNat ≤ r.2

theorem contains_iff {s : CodeRanges} {c : Char} :
    s.contains c = true ↔ ∃ r ∈ s.ranges, r.1 ≤ c.toNat ∧ c.toNat ≤ r.2 := by
  simp [contains]

end CodeRanges

end Chip8
