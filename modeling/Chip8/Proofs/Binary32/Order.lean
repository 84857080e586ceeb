import Chip8.Binary32.Units

namespace Chip8.Binary32

variable {a b c : Binary32}

/-- A finite number that is not below zero, such as a time that has passed. -/
structure IsDuration (a : Binary32) : Prop where
  zero_le : zero.le a = true
  finite : a.pattern < infinityPattern

theorem le_trans (hab : a.le b = true) (hbc : b.le c = true) : a.le c = true := by
  obtain ⟨ha, -, hrank⟩ := le_iff.1 hab
  obtain ⟨-, hc, hrank'⟩ := le_iff.1 hbc
  exact le_iff.2 ⟨ha, hc, Int.le_trans hrank hrank'⟩

theorem le_of_lt (h : a.lt b = true) : a.le b = true := by
  obtain ⟨ha, hb, hrank⟩ := lt_iff.1 h
  exact le_iff.2 ⟨ha, hb, Int.le_of_lt hrank⟩

/-- A number is not below zero if it has no sign or is a zero. -/
theorem zero_le_iff :
    zero.le a = true ↔ a.pattern ≤ infinityPattern ∧ (a.negative = false ∨ a.pattern = 0) := by
  have hzero : zero.isNaN = false := rfl
  have hrank : zero.rank = 0 := rfl
  have hnan : a.isNaN = false ↔ a.pattern ≤ infinityPattern := by
    rw [isNaN, decide_eq_false_iff_not, Nat.not_lt]
  rw [le_iff, hzero, hrank, hnan, rank]
  cases a.negative <;> simp

theorem zero_le_ofPattern {n : Nat} (h : n ≤ infinityPattern) :
    zero.le (ofPattern false n) = true := by
  have hsmall : n < 0x80000000 := Nat.lt_of_le_of_lt h (by decide)
  rw [zero_le_iff, pattern_ofPattern hsmall, negative_ofPattern hsmall]
  exact ⟨h, .inl rfl⟩

theorem isNaN_of_zero_le (h : zero.le a = true) : a.isNaN = false := (le_iff.1 h).2.1

theorem le_refl_of_zero_le (h : zero.le a = true) : a.le a = true :=
  le_iff.2 ⟨isNaN_of_zero_le h, isNaN_of_zero_le h, Int.le_refl _⟩

theorem rank_of_zero_le (h : zero.le a = true) : a.rank = a.pattern := by
  rw [rank]
  rcases (zero_le_iff.1 h).2 with hsign | hzero
  · rw [hsign]
    rfl
  · rw [hzero]
    split <;> rfl

/-- Numbers that are not below zero compare as their patterns do. -/
theorem le_iff_pattern_le (ha : zero.le a = true) (hb : zero.le b = true) :
    a.le b = true ↔ a.pattern ≤ b.pattern := by
  rw [le_iff, rank_of_zero_le ha, rank_of_zero_le hb, Int.ofNat_le]
  exact ⟨fun h => h.2.2, fun h => ⟨isNaN_of_zero_le ha, isNaN_of_zero_le hb, h⟩⟩

theorem lt_iff_pattern_lt (ha : zero.le a = true) (hb : zero.le b = true) :
    a.lt b = true ↔ a.pattern < b.pattern := by
  rw [lt_iff, rank_of_zero_le ha, rank_of_zero_le hb, Int.ofNat_lt]
  exact ⟨fun h => h.2.2, fun h => ⟨isNaN_of_zero_le ha, isNaN_of_zero_le hb, h⟩⟩

theorem exists_isDuration {n : Nat} (h : n < infinityPattern) :
    ∃ a : Binary32, a.IsDuration ∧ a.pattern = n := by
  have hpattern : (ofPattern false n).pattern = n :=
    pattern_ofPattern (Nat.lt_trans h (by decide))
  exact ⟨_, ⟨zero_le_ofPattern (Nat.le_of_lt h), hpattern.symm ▸ h⟩, hpattern⟩

theorem isDuration_iff_ne (h : zero.le a = true) :
    a.IsDuration ↔ a.pattern ≠ infinityPattern :=
  ⟨fun ha => Nat.ne_of_lt ha.finite, fun hne =>
    ⟨h, Nat.lt_of_le_of_ne (zero_le_iff.1 h).1 hne⟩⟩

theorem IsDuration.of_le (hb : b.IsDuration) (ha : zero.le a = true) (h : a.le b = true) :
    a.IsDuration :=
  ⟨ha, Nat.lt_of_le_of_lt ((le_iff_pattern_le ha hb.zero_le).1 h) hb.finite⟩

theorem signedUnits_of_zero_le (h : zero.le a = true) : a.signedUnits = a.units := by
  rw [signedUnits]
  rcases (zero_le_iff.1 h).2 with hsign | hzero
  · rw [hsign]
    rfl
  · have hunits : a.units = 0 := by
      rw [units_eq, hzero, Nat.zero_sub, Nat.zero_mul]
    rw [hunits]
    split <;> rfl

theorem pattern_neg (a : Binary32) : (-a).pattern = a.pattern := pattern_ofPattern a.pattern_lt

theorem negative_neg (a : Binary32) : (-a).negative = !a.negative := negative_ofPattern a.pattern_lt

theorem signedUnits_neg (a : Binary32) : (-a).signedUnits = -a.signedUnits := by
  rw [signedUnits, signedUnits, negative_neg, units_congr a.pattern_neg]
  cases a.negative <;> simp

/-- A sum of finite numbers that is not below zero, by its units. -/
theorem add_of_units_eq {n : Nat} (ha : a.pattern < infinityPattern)
    (hb : b.pattern < infinityPattern) (hsum : a.signedUnits + b.signedUnits = n) :
    zero.le (a + b) = true ∧ (a + b).pattern = nearest n 1 := by
  have hsmall : nearest n 1 < 0x80000000 := Nat.lt_of_le_of_lt (nearest_le ..) (by decide)
  have hadd : a + b = ofPattern ((n : Int) < 0 || (n : Int) = 0 && a.negative && b.negative)
      (nearest n 1) := by
    change add a b = _
    rw [add_eq ha hb, hsum]
    rfl
  have hpattern : (a + b).pattern = nearest n 1 := by rw [hadd, pattern_ofPattern hsmall]
  refine ⟨zero_le_iff.2 ⟨hpattern ▸ nearest_le .., ?_⟩, hpattern⟩
  -- a sum that has a sign is zero
  by_cases hn : n = 0
  · right
    rw [hpattern, hn]
    simp [nearest, rounded]
  · left
    rw [hadd, negative_ofPattern hsmall]
    simp [hn]

theorem zero_le_add (ha : a.IsDuration) (hb : b.IsDuration) : zero.le (a + b) = true := by
  refine (add_of_units_eq (n := a.units + b.units) ha.finite hb.finite ?_).1
  rw [signedUnits_of_zero_le ha.zero_le, signedUnits_of_zero_le hb.zero_le]
  rfl

/-- The difference of two numbers that are not below zero, whether or not they have a sign. -/
theorem sub_of_le (ha : a.IsDuration) (hb : zero.le b = true) (hle : b.le a = true) :
    zero.le (a - b) = true ∧ (a - b).pattern = nearest (a.units - b.units) 1 := by
  have hunits := units_le_units ((le_iff_pattern_le hb ha.zero_le).1 hle)
  apply add_of_units_eq ha.finite (b.pattern_neg ▸ (ha.of_le hb hle).finite)
  rw [signedUnits_neg, signedUnits_of_zero_le ha.zero_le, signedUnits_of_zero_le hb]
  omega

/-- Infinity less something finite is infinity. -/
theorem sub_of_infinite (ha : a.pattern = infinityPattern) (hb : b.pattern < infinityPattern) :
    a - b = a := by
  have hnan : a.isNaN = false := decide_eq_false (ha ▸ Nat.lt_irrefl _)
  have hnan' : (-b).isNaN = false := decide_eq_false (b.pattern_neg ▸ Nat.lt_asymm hb)
  have hinfinite : a.isInfinite = true := decide_eq_true ha
  have hinfinite' : (-b).isInfinite = false := decide_eq_false (b.pattern_neg ▸ Nat.ne_of_lt hb)
  change add a (-b) = a
  rw [add, hnan, hnan', hinfinite, hinfinite']
  rfl

/-- Infinity less infinity is no number. -/
theorem sub_of_infinite_of_infinite (ha : zero.le a = true) (hb : zero.le b = true)
    (ha' : a.pattern = infinityPattern) (hb' : b.pattern = infinityPattern) : a - b = nan := by
  have hsign : a.negative = false := (zero_le_iff.1 ha).2.resolve_right (ha' ▸ by decide)
  have hsign' : b.negative = false := (zero_le_iff.1 hb).2.resolve_right (hb' ▸ by decide)
  have hnan : (-b).isNaN = false := decide_eq_false (b.pattern_neg ▸ hb' ▸ Nat.lt_irrefl _)
  have hinfinite : a.isInfinite = true := decide_eq_true ha'
  have hinfinite' : (-b).isInfinite = true := decide_eq_true (b.pattern_neg.trans hb')
  change add a (-b) = nan
  rw [add, isNaN_of_zero_le ha, hnan, hinfinite, hinfinite', negative_neg, hsign, hsign']
  rfl

theorem zero_le_sub (ha : zero.le a = true) (hb : b.IsDuration) (hle : b.le a = true) :
    zero.le (a - b) = true := by
  by_cases hinfinite : a.pattern = infinityPattern
  · rw [sub_of_infinite hinfinite hb.finite]
    exact ha
  · exact (sub_of_le ((isDuration_iff_ne ha).2 hinfinite) hb.zero_le hle).1

/-- The inverse of a number above zero is not below it. -/
theorem zero_le_inverse (h : zero.lt a = true) : zero.le a.inverse = true := by
  obtain ⟨-, hnan, hrank⟩ := lt_iff.1 h
  have hsign : a.negative = false := by
    have hzero : zero.rank = 0 := rfl
    rw [hzero, rank] at hrank
    cases hnegative : a.negative with
    | false => rfl
    | true =>
      rw [hnegative, if_pos rfl] at hrank
      omega
  rw [inverse, hnan, if_neg Bool.false_ne_true, hsign]
  split
  · exact zero_le_ofPattern (Nat.zero_le _)
  · split
    · exact zero_le_ofPattern (Nat.le_refl _)
    · exact zero_le_ofPattern (nearest_le ..)

end Chip8.Binary32
