import Chip8.Binary32.Leap
import Chip8.Proofs.Binary32.Order

namespace Chip8.Binary32

attribute [local instance (high)] instPowNat

variable {a b : Binary32}

/-- How far the next number below `a` is away, in units. -/
def gap (a : Binary32) : Nat := 2 ^ (a.lower 1).scale

theorem gap_pos (a : Binary32) : 0 < a.gap := Nat.two_pow_pos _

theorem scale_lower_one (a : Binary32) :
    (a.lower 1).scale = (a.pattern - 1) / 0x800000 - 1 := by
  rw [scale, pattern_lower]

/-- A number as a count of its gaps. -/
theorem units_eq_gaps (h : 0 < a.pattern) :
    a.units = (a.pattern - (a.lower 1).scale * 0x800000) * a.gap := by
  rw [units_eq, gap, scale_lower_one]
  generalize hs : (a.pattern - 1) / 0x800000 - 1 = s
  by_cases hsame : a.pattern / 0x800000 - 1 = s
  · rw [hsame]
  · -- the least number of an exponent lies a gap of the lower exponent above the next
    have hexponent : a.pattern / 0x800000 - 1 = s + 1 := by omega
    have hleast : a.pattern = (s + 2) * 0x800000 := by omega
    rw [hexponent, hleast, ← Nat.sub_mul, ← Nat.sub_mul, Nat.add_sub_add_left,
      Nat.add_sub_cancel_left, Nat.pow_succ, Nat.one_mul]
    ac_rfl

theorem units_lower_one (h : 0 < a.pattern) : (a.lower 1).units + a.gap = a.units := by
  have hscale : (a.lower 1).scale * 0x800000 ≤ a.pattern - 1 := by
    rw [scale_lower_one]
    omega
  rw [units_eq_gaps h, units, significand, ← gap, pattern_lower, ← Nat.succ_mul]
  congr 1
  omega

theorem units_pos_iff : 0 < a.units ↔ 0 < a.pattern := by
  constructor
  · intro h
    refine Nat.pos_of_ne_zero fun hzero => ?_
    rw [units_eq, hzero, Nat.zero_sub, Nat.zero_mul] at h
    exact absurd h (Nat.lt_irrefl 0)
  · intro h
    have hlower := units_lower_one h
    have hgap := a.gap_pos
    omega

/-- Of two counts of places of one scale the larger is not rounded to less. -/
theorem rounded_mono (scale step : Nat) {n m : Nat} (h : n ≤ m) :
    rounded scale n step ≤ rounded scale m step := by
  have hwhole := Nat.div_le_div_right (c := step) h
  have hn := Nat.div_add_mod n step
  have hm := Nat.div_add_mod m step
  unfold rounded
  generalize infinityPattern = top
  dsimp only
  by_cases hsame : n / step = m / step
  · rw [hsame] at hn ⊢
    split <;> split <;> omega
  · split <;> split <;> omega

theorem ite_le_one (p : Prop) [Decidable p] : (if p then 1 else 0) ≤ 1 := by
  split <;> decide

theorem nearest_le_succ (n : Nat) :
    nearest n 1 ≤ (n.log2 - 23) * 0x800000 + n / 2 ^ (n.log2 - 23) + 1 := by
  rw [nearest_whole n _ rfl]
  exact Nat.le_trans (Nat.min_le_right ..) (Nat.add_le_add_left (ite_le_one _) _)

theorem le_nearest (n : Nat) :
    min infinityPattern ((n.log2 - 23) * 0x800000 + n / 2 ^ (n.log2 - 23)) ≤ nearest n 1 := by
  rw [nearest_whole n _ rfl]
  exact Nat.le_min.2 ⟨Nat.min_le_left .., Nat.le_trans (Nat.min_le_right ..) (Nat.le_add_right ..)⟩

/-- The larger of two counts of units is not rounded to less. -/
theorem nearest_mono {n m : Nat} (h : n ≤ m) : nearest n 1 ≤ nearest m 1 := by
  by_cases hn : n = 0
  · have hzero : nearest 0 1 = 0 := by simp [nearest, rounded]
    rw [hn, hzero]
    exact Nat.zero_le _
  have hm : m ≠ 0 := by omega
  have hlog : n.log2 ≤ m.log2 := (Nat.le_log2 hm).2 (Nat.le_trans (Nat.log2_self_le hn) h)
  by_cases hsame : n.log2 - 23 = m.log2 - 23
  · simp only [nearest, Nat.div_one, hsame]
    exact rounded_mono _ _ h
  · -- what has the lower scale does not reach beyond the least pattern of the next one
    have hupper := div_two_pow_lt n
    have hlower : 0x800000 ≤ m / 2 ^ (m.log2 - 23) := by
      rw [Nat.le_div_iff_mul_le (Nat.two_pow_pos _)]
      have hpow : 2 ^ (23 + (m.log2 - 23)) = 0x800000 * 2 ^ (m.log2 - 23) := Nat.pow_add 2 23 _
      rw [← hpow, Nat.add_sub_cancel' (by omega)]
      exact Nat.log2_self_le hm
    have hmost := nearest_le_succ n
    have htop := nearest_le n 1
    have hleast := le_nearest m
    generalize infinityPattern = top at *
    omega

/-- A number needs no rounding. -/
theorem nearest_units (h : a.pattern ≤ infinityPattern) : nearest a.units 1 = a.pattern := by
  have hscale : a.scale = 0 ∨ 0x800000 ≤ a.pattern := by
    rw [scale]
    omega
  have hlog : a.units.log2 - 23 = a.scale := log2_sub a.units_lt (hscale.imp_right le_units)
  have hsum : a.scale * 0x800000 + a.significand = a.pattern := by
    rw [significand, scale]
    omega
  have hpos := Nat.two_pow_pos a.scale
  rw [nearest_whole _ _ hlog, units, Nat.mul_div_cancel _ hpos, Nat.mul_mod_left, if_neg (by omega),
    Nat.add_zero, hsum]
  exact Nat.min_eq_right h

/-- How many gaps a number has, depending on whether its gap is the least one. -/
theorem gaps_bounds (h : 0 < a.pattern) :
    a.pattern - (a.lower 1).scale * 0x800000 ≤ 0x1000000 ∧
    ((a.lower 1).scale = 0 ∨ 0x800000 < a.pattern - (a.lower 1).scale * 0x800000) := by
  rw [scale_lower_one]
  omega

/-- Up to a gap below `a`, the nearest number is `a` or the one below it, and half a gap below it is
the one of the two whose pattern is even. -/
theorem nearest_units_sub (hpos : 0 < a.pattern) (hfinite : a.pattern < infinityPattern) {n : Nat}
    (hn : 0 < n) (hle : n ≤ a.gap) :
    nearest (a.units - n) 1 =
      a.pattern - 1 + if 2 * n < a.gap ∨ 2 * n = a.gap ∧ a.pattern % 2 = 0 then 1 else 0 := by
  obtain ⟨hcount, hleast⟩ := gaps_bounds hpos
  have hunits := units_eq_gaps hpos
  have hpattern : (a.lower 1).scale * 0x800000 < a.pattern := by omega
  have hsize : a.gap = 2 ^ (a.lower 1).scale := rfl
  generalize (a.lower 1).scale = s at *
  obtain ⟨q, hq⟩ := Nat.exists_eq_add_one.2 (Nat.sub_pos_of_lt hpattern)
  have hsum : s * 0x800000 + q = a.pattern - 1 := by omega
  rw [hq] at hunits hcount hleast
  -- one gap less than `a` has, and what is left of the last
  have hsplit : a.units - n = a.gap - n + q * a.gap := by
    rw [hunits, Nat.succ_mul]
    omega
  have hrest : a.gap - n < a.gap := by omega
  have hlog : (a.units - n).log2 - 23 = s := by
    apply log2_sub
    · have hmost : (q + 1) * a.gap ≤ 2 ^ 24 * a.gap := Nat.mul_le_mul_right _ hcount
      rw [Nat.add_comm s, Nat.pow_add, ← hsize]
      omega
    · refine hleast.imp_right fun hlarge => ?_
      have hmany : 2 ^ 23 * a.gap ≤ q * a.gap :=
        Nat.mul_le_mul_right _ (Nat.le_of_lt_succ hlarge)
      rw [Nat.add_comm s, Nat.pow_add, ← hsize]
      omega
  have hup : a.gap < 2 * (a.gap - n) ∨ a.gap = 2 * (a.gap - n) ∧ q % 2 = 1 ↔
      2 * n < a.gap ∨ 2 * n = a.gap ∧ a.pattern % 2 = 0 := by omega
  rw [nearest_whole _ s hlog, ← hsize, hsplit, Nat.add_mul_div_right _ _ a.gap_pos,
    Nat.add_mul_mod_self_right, Nat.div_eq_of_lt hrest, Nat.mod_eq_of_lt hrest, Nat.zero_add,
    hsum]
  simp only [hup]
  refine Nat.min_eq_right (Nat.le_trans (Nat.add_le_add_left (ite_le_one _) _) ?_)
  rw [Nat.sub_add_cancel hpos]
  exact Nat.le_of_lt hfinite

/-- Taking units off a number is noticed if they are more than half a gap, or just half a gap below
a number whose pattern is odd. -/
theorem nearest_units_sub_lt_iff (hfinite : a.pattern < infinityPattern) {n : Nat} (hn : 0 < n)
    (hle : n ≤ a.units) :
    nearest (a.units - n) 1 < a.pattern ↔ a.gap < 2 * n ∨ a.gap = 2 * n ∧ a.pattern % 2 = 1 := by
  have hpos : 0 < a.pattern := units_pos_iff.1 (Nat.lt_of_lt_of_le hn hle)
  by_cases hgap : n ≤ a.gap
  · rw [nearest_units_sub hpos hfinite hn hgap]
    split <;> omega
  · have hwhole := nearest_units_sub hpos hfinite a.gap_pos (Nat.le_refl a.gap)
    have hsize := a.gap_pos
    have hless := nearest_mono (Nat.sub_le_sub_left (Nat.le_of_not_le hgap) a.units)
    rw [hwhole, if_neg (by omega)] at hless
    omega

/-- Taking a number off another lowers it if it is more than half the gap below the other, or just
half of it and the pattern of the other is odd. -/
theorem sub_lt_iff (ha : a.IsDuration) (hb : zero.le b = true) (hle : b.le a = true) :
    (a - b).lt a = true ↔ a.gap < 2 * b.units ∨ a.gap = 2 * b.units ∧ a.pattern % 2 = 1 := by
  obtain ⟨hsub, hvalue⟩ := sub_of_le ha hb hle
  rw [lt_iff_pattern_lt hsub ha.zero_le, hvalue]
  by_cases hunits : b.units = 0
  · have hsize := a.gap_pos
    rw [hunits, Nat.sub_zero, nearest_units (Nat.le_of_lt ha.finite)]
    omega
  · have hmost := units_le_units ((le_iff_pattern_le hb ha.zero_le).1 hle)
    exact nearest_units_sub_lt_iff ha.finite (Nat.pos_of_ne_zero hunits) hmost

end Chip8.Binary32
