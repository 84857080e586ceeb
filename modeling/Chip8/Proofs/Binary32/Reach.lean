import Chip8.Proofs.Binary32.Spacing

namespace Chip8.Binary32

attribute [local instance (high)] instPowNat

variable {a b c : Binary32}

/-- Every number from `b` up to `a` is lowered by taking `b` off it. -/
def Lowers (b a : Binary32) : Prop :=
  ∀ c, b.le c = true → c.le a = true → (c - b).lt c = true

/-- The largest pattern up to which taking `b` off lowers a number: the gaps grow with the numbers,
until they are too large. -/
def reach (b : Binary32) : Nat :=
  let k := b.units.log2
  if b.units = 2 ^ k then (k + 2) * 0x800000 + 1 else (k + 3) * 0x800000

/-- Up to its reach a number is noticed where it is taken off. -/
theorem gap_lt_of_le_reach (hunits : 0 < b.units) (h : c.pattern ≤ b.reach) :
    c.gap < 2 * b.units ∨ c.gap = 2 * b.units ∧ c.pattern % 2 = 1 := by
  have hleast := Nat.log2_self_le (Nat.ne_of_gt hunits)
  have hpow := Nat.pow_succ 2 b.units.log2
  rw [gap, scale_lower_one]
  unfold reach at h
  dsimp only at h
  generalize b.units.log2 = k at *
  split at h
  · by_cases hscale : (c.pattern - 1) / 0x800000 - 1 ≤ k
    · have hgap := Nat.pow_le_pow_right (n := 2) (by decide) hscale
      omega
    · -- the first number with the next gap is odd, so half of that gap is still noticed
      have hnext : (c.pattern - 1) / 0x800000 - 1 = k + 1 := by omega
      rw [hnext]
      omega
  · have hscale : (c.pattern - 1) / 0x800000 - 1 ≤ k + 1 := by omega
    have hgap := Nat.pow_le_pow_right (n := 2) (by decide) hscale
    omega

/-- The number after the reach of another is not lowered by it. -/
theorem not_gap_lt_of_reach (h : c.pattern = b.reach + 1) :
    ¬ (c.gap < 2 * b.units ∨ c.gap = 2 * b.units ∧ c.pattern % 2 = 1) := by
  have hless := Nat.lt_log2_self (n := b.units)
  have hpow := Nat.pow_succ 2 b.units.log2
  have hpow' := Nat.pow_succ 2 (b.units.log2 + 1)
  rw [gap, scale_lower_one]
  unfold reach at h
  dsimp only at h
  generalize b.units.log2 = k at *
  split at h
  · have hscale : (c.pattern - 1) / 0x800000 - 1 = k + 1 := by omega
    rw [hscale]
    omega
  · have hscale : (c.pattern - 1) / 0x800000 - 1 = k + 1 + 1 := by omega
    rw [hscale]
    omega

theorem pattern_le_reach (b : Binary32) : b.pattern ≤ b.reach := by
  refine Nat.le_of_not_lt fun hlt => ?_
  have hpattern : (b.units.log2 + 2) * 0x800000 ≤ b.pattern := by
    unfold reach at hlt
    dsimp only at hlt
    split at hlt <;> omega
  have hunits := le_units (a := b) (by omega)
  have hpow : 2 ^ (b.units.log2 + 1) ≤ 2 ^ (b.pattern / 0x800000 - 1 + 23) :=
    Nat.pow_le_pow_right (by decide) (by omega)
  have hless := Nat.lt_log2_self (n := b.units)
  omega

/-- Zero lowers nothing, not even itself. -/
theorem Lowers.units_pos (h : b.Lowers a) (ha : zero.le a = true) (hb : b.IsDuration) :
    0 < b.units := by
  refine units_pos_iff.2 (Nat.pos_of_ne_zero fun hzero => ?_)
  have hle := le_refl_of_zero_le hb.zero_le
  have hlt := h b hle ((le_iff_pattern_le hb.zero_le ha).2 (hzero ▸ Nat.zero_le _))
  rw [lt_iff_pattern_lt (zero_le_sub hb.zero_le hb hle) hb.zero_le, hzero] at hlt
  exact Nat.not_lt_zero _ hlt

/-- Nothing finite lowers infinity. -/
theorem Lowers.isDuration (h : b.Lowers a) (ha : zero.le a = true) (hb : b.IsDuration) :
    a.IsDuration := by
  refine (isDuration_iff_ne ha).2 fun hinfinite => ?_
  have hlt := h a ((le_iff_pattern_le hb.zero_le ha).2 (hinfinite ▸ Nat.le_of_lt hb.finite))
    (le_refl_of_zero_le ha)
  rw [sub_of_infinite hinfinite hb.finite, lt_iff_pattern_lt ha ha] at hlt
  exact Nat.lt_irrefl _ hlt

/-- The number next to the reach of `b` is not lowered by it. -/
theorem Lowers.pattern_le (h : b.Lowers a) (ha : a.IsDuration) (hb : b.IsDuration) :
    a.pattern ≤ b.reach := by
  refine Nat.le_of_not_lt fun hbeyond => ?_
  obtain ⟨c, hc, hpattern⟩ := exists_isDuration (Nat.lt_of_le_of_lt hbeyond ha.finite)
  have hbc : b.le c = true := by
    rw [le_iff_pattern_le hb.zero_le hc.zero_le, hpattern]
    exact Nat.le_succ_of_le b.pattern_le_reach
  have hca : c.le a = true := by
    rw [le_iff_pattern_le hc.zero_le ha.zero_le, hpattern]
    exact hbeyond
  exact not_gap_lt_of_reach hpattern ((sub_lt_iff hc hb.zero_le hbc).1 (h c hbc hca))

/-- How far taking `b` off lowers all numbers. -/
theorem lowers_iff (ha : zero.le a = true) (hb : b.IsDuration) :
    b.Lowers a ↔ 0 < b.units ∧ a.pattern < infinityPattern ∧ a.pattern ≤ b.reach := by
  constructor
  · intro h
    have ha' := h.isDuration ha hb
    exact ⟨h.units_pos ha hb, ha'.finite, h.pattern_le ha' hb⟩
  · rintro ⟨hunits, hfinite, hreach⟩ c hbc hca
    have hc := le_trans hb.zero_le hbc
    have hle := (le_iff_pattern_le hc ha).1 hca
    exact (sub_lt_iff (.of_le ⟨ha, hfinite⟩ hc hca) hb.zero_le hbc).2
      (gap_lt_of_le_reach hunits (Nat.le_trans hle hreach))

/-- A number that taking `b` off does not lower is a floor for all larger ones. -/
theorem le_sub_of_stuck (ha : zero.le a = true) (hb : b.IsDuration) (hbc : b.le c = true)
    (hca : c.le a = true) (hstuck : (c - b).lt c ≠ true) : c.le (a - b) = true := by
  have hc := le_trans hb.zero_le hbc
  by_cases hinfinite : a.pattern = infinityPattern
  · rw [sub_of_infinite hinfinite hb.finite]
    exact hca
  · have ha' := (isDuration_iff_ne ha).2 hinfinite
    obtain ⟨hsub, hvalue⟩ := sub_of_le ha' hb.zero_le (le_trans hbc hca)
    obtain ⟨hsub', hvalue'⟩ := sub_of_le (ha'.of_le hc hca) hb.zero_le hbc
    have hrounded := nearest_mono
      (Nat.sub_le_sub_right (units_le_units ((le_iff_pattern_le hc ha).1 hca)) b.units)
    rw [ne_eq, lt_iff_pattern_lt hsub' hc, hvalue', Nat.not_lt] at hstuck
    rw [le_iff_pattern_le hc hsub, hvalue]
    exact Nat.le_trans hstuck hrounded

end Chip8.Binary32
