import Chip8.Binary32.Basic

namespace Chip8.Binary32

attribute [local instance (high)] instPowNat

theorem pattern_ofPattern {negative : Bool} {n : Nat} (h : n < 0x80000000) :
    (ofPattern negative n).pattern = n := by
  cases negative <;> simp [ofPattern, pattern, UInt32.toNat_ofNat] <;> omega

theorem negative_ofPattern {negative : Bool} {n : Nat} (h : n < 0x80000000) :
    (ofPattern negative n).negative = negative := by
  cases negative <;> simp [ofPattern, Binary32.negative, UInt32.toNat_ofNat] <;> omega

theorem ofPattern_pattern (a : Binary32) : ofPattern a.negative a.pattern = a := by
  obtain ⟨bits⟩ := a
  have hbits := bits.toNat_lt
  unfold ofPattern
  congr 1
  apply UInt32.toNat.inj
  rw [UInt32.toNat_ofNat']
  unfold Binary32.negative pattern
  dsimp only
  by_cases h : 0x80000000 ≤ bits.toNat
  · rw [if_pos (decide_eq_true h)]
    omega
  · rw [if_neg (by rw [decide_eq_false h]; decide)]
    omega

theorem pattern_lt (a : Binary32) : a.pattern < 0x80000000 := Nat.mod_lt _ (by decide)

theorem units_eq (a : Binary32) :
    a.units =
      (a.pattern - (a.pattern / 0x800000 - 1) * 0x800000) * 2 ^ (a.pattern / 0x800000 - 1) :=
  rfl

theorem units_congr {a b : Binary32} (h : a.pattern = b.pattern) : a.units = b.units := by
  simp only [units, significand, scale, h]

theorem units_lt (a : Binary32) : a.units < 2 ^ (a.pattern / 0x800000 - 1 + 24) := by
  rw [units_eq, Nat.pow_add, Nat.mul_comm]
  apply Nat.mul_lt_mul_of_pos_left _ (Nat.two_pow_pos _)
  omega

theorem le_units {a : Binary32} (h : 0x800000 ≤ a.pattern) :
    2 ^ (a.pattern / 0x800000 - 1 + 23) ≤ a.units := by
  rw [units_eq, Nat.pow_add, Nat.mul_comm]
  apply Nat.mul_le_mul_right
  omega

theorem units_le_units {a b : Binary32} (h : b.pattern ≤ a.pattern) : b.units ≤ a.units := by
  have hexponents := Nat.div_le_div_right (c := 0x800000) h
  by_cases heq : b.pattern / 0x800000 - 1 = a.pattern / 0x800000 - 1
  · rw [units_eq a, units_eq b, heq]
    apply Nat.mul_le_mul_right
    omega
  · refine Nat.le_trans (Nat.le_of_lt b.units_lt) (Nat.le_trans ?_ (le_units (by omega)))
    exact Nat.pow_le_pow_right (by decide) (by omega)

/-- A quotient may be reduced before it is rounded. -/
theorem rounded_mul (scale num step : Nat) {k : Nat} (h : 0 < k) :
    rounded scale (num * k) (step * k) = rounded scale num step := by
  unfold rounded
  simp only [Nat.mul_div_mul_right _ _ h, Nat.mul_mod_mul_right, ← Nat.mul_assoc,
    Nat.mul_lt_mul_right h, Nat.mul_right_cancel_iff h]

theorem log2_mul_two_pow {n : Nat} (hn : n ≠ 0) (s : Nat) : (n * 2 ^ s).log2 = n.log2 + s := by
  have hpos := Nat.two_pow_pos s
  have hne : n * 2 ^ s ≠ 0 := Nat.mul_ne_zero hn (Nat.ne_of_gt hpos)
  apply Nat.le_antisymm
  · apply Nat.le_of_lt_succ
    rw [Nat.log2_lt hne, Nat.succ_eq_add_one, Nat.add_right_comm, Nat.pow_add]
    exact Nat.mul_lt_mul_of_pos_right Nat.lt_log2_self hpos
  · rw [Nat.le_log2 hne, Nat.pow_add]
    exact Nat.mul_le_mul_right _ (Nat.log2_self_le hn)

/-- The product may as well be written out. -/
theorem nearestScaled_eq (n scale : Nat) : nearestScaled n scale = nearest (n * 2 ^ scale) 1 := by
  unfold nearestScaled nearest
  by_cases hn : n = 0
  · subst hn
    rw [if_pos rfl, Nat.zero_mul]
    rfl
  · rw [if_neg hn, Nat.div_one, log2_mul_two_pow hn]
    generalize n.log2 + scale - 23 = target
    have hnum : n * 2 ^ scale = n * 2 ^ (scale - target) * 2 ^ min scale target := by
      rw [Nat.mul_assoc, ← Nat.pow_add]
      congr 2
      omega
    have hstep : 2 ^ target = 2 ^ (target - scale) * 2 ^ min scale target := by
      rw [← Nat.pow_add]
      congr 1
      omega
    dsimp only
    rw [Nat.one_mul, hnum, hstep, rounded_mul _ _ _ (Nat.two_pow_pos _)]

/-- The places of a number are worth its units. -/
theorem places_mul {a : Binary32} {scale : Nat} (h : scale ≤ a.scale) :
    a.places scale * (2 ^ scale : Nat) = a.signedUnits := by
  have hunits : a.significand * 2 ^ (a.scale - scale) * 2 ^ scale = a.units := by
    rw [Nat.mul_assoc, ← Nat.pow_add, Nat.sub_add_cancel h]
    rfl
  unfold places signedUnits
  dsimp only
  rw [← hunits]
  split
  · rw [Int.neg_mul]
    rfl
  · rfl

/-- The sum of two finite numbers, by their units. -/
theorem add_eq {a b : Binary32} (ha : a.pattern < infinityPattern)
    (hb : b.pattern < infinityPattern) :
    add a b =
      let sum := a.signedUnits + b.signedUnits
      ofPattern (sum < 0 || sum = 0 && a.negative && b.negative) (nearest sum.natAbs 1) := by
  have hnan : ∀ c : Binary32, c.pattern < infinityPattern → c.isNaN = false := fun c hc =>
    decide_eq_false (Nat.not_lt.2 (Nat.le_of_lt hc))
  have hinfinite : ∀ c : Binary32, c.pattern < infinityPattern → c.isInfinite = false := fun c hc =>
    decide_eq_false (Nat.ne_of_lt hc)
  unfold add
  rw [hnan a ha, hnan b hb, hinfinite a ha, hinfinite b hb]
  dsimp only
  rw [nearestScaled_eq, ← places_mul (Nat.min_le_left a.scale b.scale),
    ← places_mul (Nat.min_le_right a.scale b.scale), ← Int.add_mul, Int.natAbs_mul,
    Int.natAbs_natCast]
  have hpos := Nat.two_pow_pos (min a.scale b.scale)
  generalize a.places (min a.scale b.scale) + b.places (min a.scale b.scale) = sum
  generalize 2 ^ min a.scale b.scale = place at hpos
  have hplace : (0 : Int) < place := Int.ofNat_lt.2 hpos
  have hneg : sum * (place : Int) < 0 ↔ sum < 0 := by
    rw [← Int.mul_lt_mul_right hplace (b := sum) (c := 0), Int.zero_mul]
  have hzero : sum * (place : Int) = 0 ↔ sum = 0 := by
    rw [Int.mul_eq_zero, or_iff_left (Int.ne_of_gt hplace)]
  simp only [hneg, hzero, Bool.or_self, Bool.false_eq_true, if_false]

theorem nearest_le (num den : Nat) : nearest num den ≤ infinityPattern := Nat.min_le_left ..

/-- The difference of two numbers without a sign. -/
theorem sub_eq {a b : Binary32} (ha : a.negative = false) (hb : b.negative = false)
    (hfinite : a.pattern < infinityPattern) (hle : b.pattern ≤ a.pattern) :
    a - b = ofPattern false (nearest (a.units - b.units) 1) := by
  have hunits := units_le_units hle
  have hpattern : (-b).pattern = b.pattern := pattern_ofPattern b.pattern_lt
  have hnegative : (-b).negative = true := by
    show (ofPattern (!b.negative) b.pattern).negative = true
    rw [negative_ofPattern b.pattern_lt, hb]
    rfl
  have hunits' : (-b).units = b.units := units_congr hpattern
  have hb' : (-b).pattern < infinityPattern := hpattern ▸ Nat.lt_of_le_of_lt hle hfinite
  show add a (-b) = _
  rw [add_eq hfinite hb']
  simp only [signedUnits, ha, hnegative, hunits', Bool.false_eq_true, if_false, if_true,
    Bool.and_false, Bool.false_and, Bool.or_false]
  rw [show (a.units : Int) + -(b.units : Int) = ((a.units - b.units : Nat) : Int) by omega]
  rw [show decide (((a.units - b.units : Nat) : Int) < 0) = false by simp, Int.natAbs_natCast]

end Chip8.Binary32
