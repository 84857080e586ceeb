import Chip8.Binary32.Units

namespace Chip8.Binary32

attribute [local instance (high)] instPowNat

/-- Taking a number off another several times in a row: how many times, and what that leaves. -/
structure Leap where
  count : Nat
  rest : Binary32

/-- The number without a sign whose pattern is less by `n`. -/
def lower (a : Binary32) (n : Nat) : Binary32 := ofPattern false (a.pattern - n)

/-- The least pattern down to which `b` can be taken off `a` without a change of the exponent. -/
def leapFloor (a b : Binary32) : Nat := max (a.pattern / 0x800000 * 0x800000 + 1) b.pattern

/-- How many pairs of steps fit into a leap, if the first pair lowers the pattern by `stride` and
leaves `pattern`. A pair that changes nothing fits as often as one likes. -/
def leapPairs (pattern floor stride : Nat) : Nat :=
  if stride = 0 then 0x10000 else (pattern - floor) / stride + 1

/-- Takes `b` off `a` at least once, and as many times as one can tell by the first two. As long as
the exponent stays, the rounding of a step depends on nothing but whether the pattern is even; so if
two steps lower the pattern by an even number, the next two lower it by as much. Where the exponents
are close there is little to gain, and one step is taken. -/
def leap (a b : Binary32) : Leap :=
  let once := a - b
  if a.pattern / 0x800000 < b.pattern / 0x800000 + 4 then ⟨1, once⟩
  else
    let twice := once - b
    let stride := a.pattern - twice.pattern
    if !a.negative && !b.negative && a.pattern < infinityPattern && stride % 2 = 0
        && leapFloor a b ≤ twice.pattern && twice.pattern ≤ once.pattern
        && once.pattern ≤ a.pattern then
      let pairs := leapPairs twice.pattern (leapFloor a b) stride
      ⟨2 * pairs, a.lower (pairs * stride)⟩
    else ⟨1, once⟩

theorem lower_zero {a : Binary32} (h : a.negative = false) : a.lower 0 = a := by
  have h' := a.ofPattern_pattern
  rwa [h] at h'

theorem pattern_lower (a : Binary32) (n : Nat) : (a.lower n).pattern = a.pattern - n :=
  pattern_ofPattern (Nat.lt_of_le_of_lt (Nat.sub_le ..) a.pattern_lt)

theorem negative_lower (a : Binary32) (n : Nat) : (a.lower n).negative = false :=
  negative_ofPattern (Nat.lt_of_le_of_lt (Nat.sub_le ..) a.pattern_lt)

theorem units_lower {a : Binary32} {n : Nat} (h : a.pattern / 0x800000 * 0x800000 ≤ a.pattern - n) :
    (a.lower n).units = a.units - n * 2 ^ (a.pattern / 0x800000 - 1) := by
  have hexponent : (a.pattern - n) / 0x800000 = a.pattern / 0x800000 := by omega
  rw [units_eq (a.lower n), units_eq a, pattern_lower, hexponent, ← Nat.sub_mul]
  congr 1
  omega

theorem nearest_whole (n s : Nat) (h : n.log2 - 23 = s) :
    nearest n 1 = min infinityPattern (s * 0x800000 + n / 2 ^ s +
      if 2 ^ s < 2 * (n % 2 ^ s) ∨ 2 ^ s = 2 * (n % 2 ^ s) ∧ n / 2 ^ s % 2 = 1 then 1 else 0) := by
  simp only [nearest, rounded, Nat.div_one, Nat.one_mul, h]

theorem log2_sub {n s : Nat} (hlt : n < 2 ^ (s + 24)) (hle : s = 0 ∨ 2 ^ (s + 23) ≤ n) :
    n.log2 - 23 = s := by
  by_cases hn : n = 0
  · subst hn
    have := Nat.two_pow_pos (s + 23)
    rw [Nat.log2_zero]
    omega
  · have h1 := (Nat.log2_lt hn).2 hlt
    have h2 : s = 0 ∨ s + 23 ≤ n.log2 := hle.imp_right (Nat.le_log2 hn).2
    omega

/-- At the scale at which a number of units is rounded, it has at most twenty-four bits. -/
theorem div_two_pow_lt (n : Nat) : n / 2 ^ (n.log2 - 23) < 0x1000000 := by
  apply Nat.div_lt_of_lt_mul
  have hpow : 2 ^ (n.log2 - 23 + 24) = 2 ^ (n.log2 - 23) * 0x1000000 := Nat.pow_add 2 _ 24
  rw [← hpow]
  exact Nat.lt_of_lt_of_le Nat.lt_log2_self (Nat.pow_le_pow_right (by decide) (by omega))

/-- What is rounded to a pattern above the least one of an exponent has that exponent itself. -/
theorem le_of_lt_nearest {n s : Nat} (h : (s + 1) * 0x800000 < nearest n 1) :
    2 ^ (s + 23) ≤ n := by
  refine Nat.le_of_not_lt fun hlt => ?_
  by_cases hn : n = 0
  · subst hn
    simp [nearest, rounded] at h
  · have hlog := (Nat.log2_lt hn).2 hlt
    have hwhole := div_two_pow_lt n
    rw [nearest_whole n _ rfl] at h
    have hmin := Nat.lt_of_lt_of_le h (Nat.min_le_right ..)
    by_cases hs : s = 0
    · subst hs
      rw [show n.log2 - 23 = 0 by omega] at hmin
      split at hmin <;> omega
    · split at hmin <;> omega

/-- A number of units that is less by an even number of steps is rounded to a pattern that is less
by as much, as long as the steps stay as large. -/
theorem nearest_sub {n s t : Nat} (heven : t % 2 = 0) (hlt : n < 2 ^ (s + 24))
    (hle : 2 ^ s * t ≤ n) (hfloor : s = 0 ∨ (s + 1) * 0x800000 + t < nearest n 1)
    (hfinite : nearest n 1 < infinityPattern) :
    nearest (n - 2 ^ s * t) 1 = nearest n 1 - t := by
  have hpos := Nat.two_pow_pos s
  have hlog := log2_sub hlt (hfloor.imp_right fun h =>
    le_of_lt_nearest (Nat.lt_of_le_of_lt (Nat.le_add_right ..) h))
  have hquotient := Nat.sub_mul_div_of_le n (2 ^ s) t hle
  have hrest := Nat.sub_mul_mod hle
  rw [nearest_whole n s hlog] at hfloor hfinite ⊢
  have hlog' : (n - 2 ^ s * t).log2 - 23 = s := by
    apply log2_sub (Nat.lt_of_le_of_lt (Nat.sub_le ..) hlt)
    refine hfloor.imp_right fun h => ?_
    have hmin := Nat.lt_of_lt_of_le h (Nat.min_le_right ..)
    have hwhole : 0x800000 ≤ (n - 2 ^ s * t) / 2 ^ s := by
      rw [hquotient]
      split at hmin <;> omega
    rw [Nat.pow_add, Nat.mul_comm]
    exact (Nat.le_div_iff_mul_le hpos).1 hwhole
  have hwhole : t ≤ n / 2 ^ s := (Nat.le_div_iff_mul_le hpos).2 (Nat.mul_comm .. ▸ hle)
  rw [nearest_whole _ s hlog', hquotient, hrest]
  have hparity : (n / 2 ^ s - t) % 2 = n / 2 ^ s % 2 := by omega
  rw [hparity]
  generalize infinityPattern = top at hfinite ⊢
  generalize (if 2 ^ s < 2 * (n % 2 ^ s) ∨ 2 ^ s = 2 * (n % 2 ^ s) ∧ n / 2 ^ s % 2 = 1
    then 1 else 0) = up at hfinite ⊢
  omega

/-- If taking `b` off `a` keeps the exponent, then so much less of `a` leaves so much less. -/
theorem lower_sub {a b : Binary32} {t : Nat} (ha : a.negative = false) (hb : b.negative = false)
    (hfinite : a.pattern < infinityPattern) (heven : t % 2 = 0) (hle : (a - b).pattern ≤ a.pattern)
    (hfloor : a.leapFloor b + t ≤ (a - b).pattern) :
    a.lower t - b = (a - b).lower t := by
  unfold leapFloor at hfloor
  have hexponent : a.pattern / 0x800000 * 0x800000 + 1 + t ≤ (a - b).pattern := by omega
  have hpattern : b.pattern + t ≤ (a - b).pattern := by omega
  have hunits := units_lower (a := a) (n := t) (Nat.le_sub_of_add_le
    (Nat.le_trans (Nat.add_le_add_right (Nat.le_succ _) t) (Nat.le_trans hexponent hle)))
  have hunits' := units_le_units (a := a.lower t) (b := b) (by rw [pattern_lower]; omega)
  have hsub := sub_eq ha hb hfinite (by omega)
  have hsub' := sub_eq (a := a.lower t) (negative_lower ..) hb
    (by rw [pattern_lower]; exact Nat.lt_of_le_of_lt (Nat.sub_le ..) hfinite)
    (by rw [pattern_lower]; omega)
  have hresult : (a - b).pattern = nearest (a.units - b.units) 1 := by
    rw [hsub]
    exact pattern_ofPattern (Nat.lt_of_le_of_lt (nearest_le ..) (by decide))
  have hamount : 2 ^ (a.pattern / 0x800000 - 1) * t ≤ a.units - b.units := by
    have hwhole : t * 2 ^ (a.pattern / 0x800000 - 1) ≤ a.units := by
      rw [units_eq]
      apply Nat.mul_le_mul_right
      omega
    rw [Nat.mul_comm]
    omega
  have hnearest := nearest_sub heven (Nat.lt_of_le_of_lt (Nat.sub_le ..) a.units_lt) hamount
    (hresult ▸ by omega) (Nat.lt_of_le_of_lt (hresult ▸ hle) hfinite)
  rw [hsub']
  show _ = ofPattern false ((a - b).pattern - t)
  rw [hresult, ← hnearest, hunits, Nat.mul_comm t, Nat.sub_right_comm]

theorem le_lower {a b : Binary32} {t : Nat} (hb : b.negative = false)
    (hfinite : a.pattern < infinityPattern) (h : b.pattern + t ≤ a.pattern) :
    b.le (a.lower t) = true := by
  have hle : b.pattern ≤ (a.lower t).pattern := by rw [pattern_lower]; omega
  have hfinite' : (a.lower t).pattern ≤ infinityPattern := by
    rw [pattern_lower]
    exact Nat.le_trans (Nat.sub_le ..) (Nat.le_of_lt hfinite)
  rw [le_iff]
  refine ⟨decide_eq_false (Nat.not_lt.2 (Nat.le_trans hle hfinite')),
    decide_eq_false (Nat.not_lt.2 hfinite'), ?_⟩
  simp only [rank, hb, negative_lower]
  exact Int.ofNat_le.2 hle

/-- When two subtractions of `b` in a row keep the exponent of `a`. -/
structure Leaps (a b : Binary32) : Prop where
  negative_eq : a.negative = false
  negative_eq' : b.negative = false
  finite : a.pattern < infinityPattern
  floor_le : a.leapFloor b ≤ (a - b - b).pattern
  twice_le : (a - b - b).pattern ≤ (a - b).pattern
  once_le : (a - b).pattern ≤ a.pattern
  even : (a.pattern - (a - b - b).pattern) % 2 = 0

namespace Leaps

variable {a b : Binary32}

theorem pattern_le (h : Leaps a b) : b.pattern ≤ a.pattern :=
  Nat.le_trans (Nat.le_max_right ..) (Nat.le_trans h.floor_le (Nat.le_trans h.twice_le h.once_le))

theorem negative_sub (h : Leaps a b) : (a - b).negative = false := by
  rw [sub_eq h.negative_eq h.negative_eq' h.finite h.pattern_le]
  exact negative_ofPattern (Nat.lt_of_le_of_lt (nearest_le ..) (by decide))

theorem leapFloor_sub (h : Leaps a b) : (a - b).leapFloor b = a.leapFloor b := by
  have hfloor := Nat.le_trans (Nat.le_max_left ..) (Nat.le_trans h.floor_le h.twice_le)
  have honce := h.once_le
  unfold leapFloor
  generalize (a - b).pattern = once at hfloor honce
  rw [show once / 0x800000 = a.pattern / 0x800000 by omega]

/-- The first step of any pair. -/
theorem lower_sub {t : Nat} (h : Leaps a b) (heven : t % 2 = 0)
    (hfloor : a.leapFloor b + t ≤ (a - b - b).pattern) : a.lower t - b = (a - b).lower t :=
  Binary32.lower_sub h.negative_eq h.negative_eq' h.finite heven h.once_le
    (Nat.le_trans hfloor h.twice_le)

/-- Both steps of any pair. -/
theorem lower_sub_sub {t : Nat} (h : Leaps a b) (heven : t % 2 = 0)
    (hfloor : a.leapFloor b + t ≤ (a - b - b).pattern) :
    a.lower t - b - b = a.lower (a.pattern - (a - b - b).pattern + t) := by
  rw [h.lower_sub heven hfloor, Binary32.lower_sub h.negative_sub h.negative_eq'
    (Nat.lt_of_le_of_lt h.once_le h.finite) heven h.twice_le (h.leapFloor_sub.symm ▸ hfloor)]
  have hle := Nat.le_trans h.twice_le h.once_le
  unfold lower
  congr 1
  generalize (a - b - b).pattern = twice at hle
  omega

/-- What is left after some pairs. -/
theorem repeat_sub (h : Leaps a b) {i : Nat}
    (hfloor : a.leapFloor b + (i - 1) * (a.pattern - (a - b - b).pattern) ≤ (a - b - b).pattern) :
    Nat.repeat (· - b) (2 * i) a = a.lower (i * (a.pattern - (a - b - b).pattern)) := by
  induction i with
  | zero => rw [Nat.zero_mul, lower_zero h.negative_eq]; rfl
  | succ i ih =>
    rw [Nat.add_sub_cancel] at hfloor
    have heven : i * (a.pattern - (a - b - b).pattern) % 2 = 0 := by
      rw [Nat.mul_mod, h.even, Nat.mul_zero, Nat.zero_mod]
    show Nat.repeat (· - b) (2 * i) a - b - b = _
    rw [ih (Nat.le_trans (Nat.add_le_add_left (Nat.mul_le_mul_right _ (Nat.sub_le ..)) _) hfloor),
      h.lower_sub_sub heven hfloor, Nat.succ_mul, Nat.add_comm]

/-- Before any step of any pair there is enough left for it. -/
theorem le_repeat (h : Leaps a b) {i j : Nat} (hj : j < 2 * (i + 1))
    (hfloor : a.leapFloor b + i * (a.pattern - (a - b - b).pattern) ≤ (a - b - b).pattern) :
    b.le (Nat.repeat (· - b) j a) = true := by
  have hfloor' : ∀ k ≤ i,
      a.leapFloor b + k * (a.pattern - (a - b - b).pattern) ≤ (a - b - b).pattern := fun k hk =>
    Nat.le_trans (Nat.add_le_add_left (Nat.mul_le_mul_right _ hk) _) hfloor
  have hpair := h.repeat_sub (Nat.le_trans (hfloor' (j / 2 - 1) (by omega)) (Nat.le_refl _))
  have hj' := hfloor' (j / 2) (by omega)
  generalize hstride : a.pattern - (a - b - b).pattern = stride at hpair hj'
  have heven : j / 2 * stride % 2 = 0 := by
    rw [Nat.mul_mod, ← hstride, h.even, Nat.mul_zero, Nat.zero_mod]
  have hpattern : b.pattern + j / 2 * stride ≤ (a - b - b).pattern :=
    Nat.le_trans (Nat.add_le_add_right (Nat.le_max_right ..) _) hj'
  rcases Nat.mod_two_eq_zero_or_one j with hmod | hmod
  · rw [show j = 2 * (j / 2) by omega, hpair]
    apply le_lower h.negative_eq' h.finite
    exact Nat.le_trans hpattern (Nat.le_trans h.twice_le h.once_le)
  · rw [show j = 2 * (j / 2) + 1 by omega]
    show b.le (Nat.repeat (· - b) (2 * (j / 2)) a - b) = true
    rw [hpair, h.lower_sub heven hj']
    apply le_lower h.negative_eq' (Nat.lt_of_le_of_lt h.once_le h.finite)
    exact Nat.le_trans hpattern h.twice_le

end Leaps

/-- The steps that `leapPairs` finds stay above the floor. -/
theorem leapPairs_pred_mul_le {pattern floor : Nat} (h : floor ≤ pattern) (stride : Nat) :
    floor + (leapPairs pattern floor stride - 1) * stride ≤ pattern := by
  unfold leapPairs
  split
  · rename_i hstride
    rw [hstride]
    omega
  · have := Nat.div_mul_le_self (pattern - floor) stride
    rw [Nat.add_sub_cancel]
    omega

theorem leap_eq (a b : Binary32) :
    a.leap b = ⟨1, a - b⟩ ∨ Leaps a b ∧ ∃ pairs, a.leap b =
      ⟨2 * (pairs + 1), a.lower ((pairs + 1) * (a.pattern - (a - b - b).pattern))⟩ ∧
        a.leapFloor b + pairs * (a.pattern - (a - b - b).pattern) ≤ (a - b - b).pattern := by
  unfold leap
  dsimp only
  split
  · exact Or.inl rfl
  split
  · rename_i h
    simp only [Bool.and_eq_true, Bool.not_eq_true', decide_eq_true_eq] at h
    obtain ⟨⟨⟨⟨⟨⟨ha, hb⟩, hfinite⟩, heven⟩, hfloor⟩, htwice⟩, honce⟩ := h
    have hpairs := leapPairs_pred_mul_le hfloor (a.pattern - (a - b - b).pattern)
    have hpos : 0 < leapPairs (a - b - b).pattern (a.leapFloor b)
        (a.pattern - (a - b - b).pattern) := by
      unfold leapPairs
      split
      · decide
      · exact Nat.succ_pos _
    refine Or.inr ⟨⟨ha, hb, hfinite, hfloor, htwice, honce, heven⟩, _, ?_, hpairs⟩
    rw [Nat.sub_add_cancel hpos]
  · exact Or.inl rfl

theorem count_leap_pos (a b : Binary32) : 0 < (a.leap b).count := by
  rcases a.leap_eq b with h | ⟨_, pairs, h, _⟩
  · rw [h]
    exact Nat.one_pos
  · rw [h]
    exact Nat.mul_pos (by decide) (Nat.succ_pos _)

/-- A leap leaves what its steps leave one by one. -/
theorem rest_leap (a b : Binary32) : (a.leap b).rest = Nat.repeat (· - b) (a.leap b).count a := by
  rcases a.leap_eq b with h | ⟨hleaps, pairs, h, hfloor⟩
  · rw [h]
    rfl
  · rw [h]
    exact (hleaps.repeat_sub hfloor).symm

/-- If there is enough left for the first step of a leap, there is for each of them. -/
theorem le_repeat_of_lt_count {a b : Binary32} (hle : b.le a = true) {j : Nat}
    (hj : j < (a.leap b).count) : b.le (Nat.repeat (· - b) j a) = true := by
  rcases a.leap_eq b with h | ⟨hleaps, pairs, h, hfloor⟩
  · rw [h] at hj
    rw [Nat.lt_one_iff.1 hj]
    exact hle
  · rw [h] at hj
    exact hleaps.le_repeat hj hfloor

end Chip8.Binary32
