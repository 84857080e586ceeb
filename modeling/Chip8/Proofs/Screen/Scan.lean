import Chip8.Screen
import Mathlib.Data.List.Induction

namespace Chip8

/-- Whether the bit at a position of a sprite is set. Positions are numbered as they are drawn, eight
to a row from the most significant bit on. -/
def rowBit (rows : List UInt8) (p : Nat) : Bool := (rows[p / 8]?.getD 0).toNat.testBit (7 - p % 8)

/-- The set bits at the first `n` positions of a sprite as offsets from its origin. -/
def scan (bit : Nat → Bool) (n : Nat) : List (Nat × Nat) :=
  ((List.range n).filter bit).map fun p => (p % 8, p / 8)

theorem scan_succ (bit : Nat → Bool) (n : Nat) :
    scan bit (n + 1) = scan bit n ++ if bit n then [(n % 8, n / 8)] else [] := by
  unfold scan
  rw [List.range_succ, List.filter_append, List.map_append]
  cases hbit : bit n <;> simp [hbit]

theorem scan_congr {bit bit' : Nat → Bool} {n : Nat} (h : ∀ p < n, bit p = bit' p) :
    scan bit n = scan bit' n := by
  unfold scan
  rw [List.filter_congr fun p hp => h p (List.mem_range.1 hp)]

/-- A row more adds its own bits. -/
theorem scan_add_eight (bit : Nat → Bool) (n : Nat) :
    scan bit (8 * n + 8) =
      scan bit (8 * n) ++ ((List.range 8).filter fun c => bit (8 * n + c)).map (·, n) := by
  have hrow (c : Nat) (hc : c ∈ (List.range 8).filter fun c => bit (8 * n + c)) :
      ((8 * n + c) % 8, (8 * n + c) / 8) = (c, n) := by
    have hlt : c < 8 := List.mem_range.1 (List.mem_filter.1 hc).1
    ext <;> dsimp only <;> omega
  unfold scan
  rw [List.range_add, List.filter_append, List.map_append, List.filter_map, List.map_map]
  congr 1
  exact List.map_congr_left hrow

/-- The dots of a sprite are its set bits in the order of their positions. -/
theorem spriteDots_eq_scan (rows : List UInt8) :
    spriteDots rows = scan (rowBit rows) (8 * rows.length) := by
  induction rows using List.reverseRecOn with
  | nil => rfl
  | append_singleton rows b ih =>
    have hrows : scan (rowBit (rows ++ [b])) (8 * rows.length) =
        scan (rowBit rows) (8 * rows.length) := by
      refine scan_congr fun p hp => ?_
      have hrow : p / 8 < rows.length := by omega
      rw [rowBit, rowBit, List.getElem?_append_left hrow]
    have hlast (c : Nat) (hc : c ∈ List.range 8) :
        rowBit (rows ++ [b]) (8 * rows.length + c) = b.toNat.testBit (7 - c) := by
      have hlt : c < 8 := List.mem_range.1 hc
      have hrow : (8 * rows.length + c) / 8 = rows.length := by omega
      have hcolumn : (8 * rows.length + c) % 8 = c := by omega
      rw [rowBit, hrow, hcolumn, List.getElem?_concat_length]
      rfl
    rw [List.length_append, List.length_singleton, Nat.mul_add, scan_add_eight, hrows, ← ih,
      List.filter_congr hlast]
    simp [spriteDots, List.zipIdx_append]

/-- Whether a set bit among the first `n` positions of a sprite falls on a pixel. -/
def Covers (bit : Nat → Bool) (n : Nat) (target : Nat → Nat × Nat) (q : Nat × Nat) : Prop :=
  ∃ p < n, bit p = true ∧ target p = q

instance (bit : Nat → Bool) (n : Nat) (target : Nat → Nat × Nat) (q : Nat × Nat) :
    Decidable (Covers bit n target q) :=
  inferInstanceAs (Decidable (∃ p < n, _))

theorem covers_succ {bit : Nat → Bool} {n : Nat} {target : Nat → Nat × Nat} {q : Nat × Nat} :
    Covers bit (n + 1) target q ↔ Covers bit n target q ∨ bit n = true ∧ target n = q :=
  Nat.exists_lt_succ_right

theorem covers_congr {bit : Nat → Bool} {n : Nat} {target target' : Nat → Nat × Nat}
    (h : ∀ p < n, target p = target' p) (q : Nat × Nat) :
    Covers bit n target q ↔ Covers bit n target' q :=
  exists_congr fun p => and_congr_right fun hp => by rw [h p hp]

namespace Screen

/-- The pixel on which a position of a sprite falls that stands at `o`. -/
def spot (o : Nat × Nat) (p : Nat) : Nat × Nat := ((o.1 + p % 8) % 64, (o.2 + p / 8) % 32)

/-- Whether the set bit at a position falls on a lit pixel if the sprite stands at `o`. -/
def Hits (s : Screen) (bit : Nat → Bool) (o : Nat × Nat) (p : Nat) : Prop :=
  bit p = true ∧ s.pixel (spot o p).1 (spot o p).2 = true

/-- Whether a position below `n` hits a lit pixel. -/
def Met (s : Screen) (bit : Nat → Bool) (o : Nat × Nat) (n : Nat) : Prop := ∃ p < n, s.Hits bit o p

instance (s : Screen) (bit : Nat → Bool) (o : Nat × Nat) (p : Nat) : Decidable (s.Hits bit o p) :=
  inferInstanceAs (Decidable (_ ∧ _))

instance (s : Screen) (bit : Nat → Bool) (o : Nat × Nat) (n : Nat) : Decidable (s.Met bit o n) :=
  inferInstanceAs (Decidable (∃ p < n, _))

/-- The pixel on which a position falls when its turn comes: the sprite stands at one origin until a
lit pixel has been met, and at the other from then on. -/
def landing (s : Screen) (bit : Nat → Bool) (origin : Bool → Nat × Nat) (p : Nat) : Nat × Nat :=
  spot (origin (decide (s.Met bit (origin false) p))) p

/-- The screen `t` is `s` with the set bits among `n` positions turned over, each on a pixel of its
own. -/
structure Stamped (s t : Screen) (bit : Nat → Bool) (n : Nat) (target : Nat → Nat × Nat) : Prop where
  distinct : ∀ p < n, ∀ q < n, target p = target q → p = q
  pixel_eq : ∀ x < 64, ∀ y < 32,
    t.pixel x y = (s.pixel x y ^^ decide (Covers bit n target (x, y)))

/-- A sprite that moves at most by a column and a row. -/
def Creeps (origin : Bool → Nat × Nat) : Prop :=
  ∃ i ≤ 1, ∃ j ≤ 1, origin true = ((origin false).1 + i, (origin false).2 + j)

variable {s t : Screen} {bit : Nat → Bool} {origin : Bool → Nat × Nat} {o : Nat × Nat} {n : Nat}

theorem place_mod (x y : Nat) : place (x % 64) (y % 32) = place x y :=
  place_eq_iff.2 ⟨Nat.mod_mod .., Nat.mod_mod ..⟩

theorem pixel_mod (s : Screen) (x y : Nat) : s.pixel (x % 64) (y % 32) = s.pixel x y := by
  simp only [pixel, place_mod]

theorem flip_mod (s : Screen) (x y : Nat) : s.flip (x % 64) (y % 32) = s.flip x y := by
  simp only [flip, pixel_mod, place_mod]

theorem met_succ : s.Met bit o (n + 1) ↔ s.Met bit o n ∨ s.Hits bit o n :=
  Nat.exists_lt_succ_right

theorem Met.mono {p : Nat} (h : s.Met bit o p) (hp : p ≤ n) : s.Met bit o n := by
  obtain ⟨q, hq, hhits⟩ := h
  exact ⟨q, Nat.lt_of_lt_of_le hq hp, hhits⟩

theorem landing_of_not_met {p : Nat} (h : ¬ s.Met bit (origin false) p) :
    s.landing bit origin p = spot (origin false) p := by
  rw [landing, decide_eq_false h]

theorem landing_mod (s : Screen) (bit : Nat → Bool) (origin : Bool → Nat × Nat) (p : Nat) :
    ((s.landing bit origin p).1 % 64, (s.landing bit origin p).2 % 32) =
      s.landing bit origin p := by
  simp [landing, spot]

theorem Stamped.congr {target target' : Nat → Nat × Nat} (h : s.Stamped t bit n target)
    (htarget : ∀ p < n, target p = target' p) : s.Stamped t bit n target' where
  distinct p hp q hq hsame := by
    rw [← htarget p hp, ← htarget q hq] at hsame
    exact h.distinct p hp q hq hsame
  pixel_eq x hx y hy := by
    rw [h.pixel_eq x hx y hy, decide_eq_decide.2 (covers_congr htarget (x, y))]

/-- The position that meets the first lit pixel still falls where the sprite stands at first; all
later ones fall where it stands then. -/
theorem landing_of_first {k : Nat} (hk : s.Hits bit (origin false) k)
    (hfirst : ∀ p < k, ¬ s.Hits bit (origin false) p) (p : Nat) :
    s.landing bit origin p = spot (origin (decide (k < p))) p := by
  have hmet : s.Met bit (origin false) p ↔ k < p := by
    constructor
    · rintro ⟨q, hq, hhits⟩
      have hle : k ≤ q := Nat.not_lt.1 fun hlt => hfirst q hlt hhits
      omega
    · exact fun hlt => ⟨k, hlt, hk⟩
  rw [landing, decide_eq_decide.2 hmet]

/-- A pixel on which a position falls is turned over by the bit at that position. -/
theorem Stamped.pixel_of_target {target : Nat → Nat × Nat} (h : s.Stamped t bit n target)
    {p x y : Nat} (hp : p < n) (htarget : target p = (x, y)) (hx : x < 64) (hy : y < 32) :
    t.pixel x y = (s.pixel x y ^^ bit p) := by
  have hcovers : Covers bit n target (x, y) ↔ bit p = true := by
    constructor
    · rintro ⟨q, hq, hbit, hsame⟩
      rw [← htarget] at hsame
      rwa [h.distinct q hq p hp hsame] at hbit
    · exact fun hbit => ⟨p, hp, hbit, htarget⟩
  have hdecide : decide (Covers bit n target (x, y)) = bit p := by
    rw [Bool.eq_iff_iff, decide_eq_true_iff, hcovers]
  rw [h.pixel_eq x hx y hy, hdecide]

/-- A position falls on no pixel on which an earlier one has fallen, also if the sprite has moved
since: a later position of the same row stands in a later column, and rows come in order. -/
theorem landing_ne_of_lt {p q : Nat} (h : Creeps origin) (hpq : p < q) (hq : q < 128) :
    s.landing bit origin p ≠ s.landing bit origin q := by
  have hmoved : ∃ i ≤ 1, ∃ j ≤ 1, origin (decide (s.Met bit (origin false) q)) =
      ((origin (decide (s.Met bit (origin false) p))).1 + i,
        (origin (decide (s.Met bit (origin false) p))).2 + j) := by
    by_cases hp : s.Met bit (origin false) p
    · have hlater := hp.mono (Nat.le_of_lt hpq)
      rw [decide_eq_true hp, decide_eq_true hlater]
      exact ⟨0, Nat.zero_le 1, 0, Nat.zero_le 1, rfl⟩
    · rw [decide_eq_false hp]
      cases decide (s.Met bit (origin false) q) with
      | false => exact ⟨0, Nat.zero_le 1, 0, Nat.zero_le 1, rfl⟩
      | true => exact h
  obtain ⟨i, hi, j, hj, horigin⟩ := hmoved
  intro hsame
  have hcolumn := congrArg Prod.fst hsame
  have hrow := congrArg Prod.snd hsame
  simp only [landing, spot, horigin] at hcolumn hrow
  omega

theorem landing_injective (h : Creeps origin) (hn : n ≤ 128) :
    ∀ p < n, ∀ q < n, s.landing bit origin p = s.landing bit origin q → p = q := by
  intro p hp q hq hsame
  obtain hlt | heq | hgt := Nat.lt_trichotomy p q
  · exact absurd hsame (landing_ne_of_lt h hlt (by omega))
  · exact heq
  · exact absurd hsame.symm (landing_ne_of_lt h hgt (by omega))

theorem not_covers_landing (h : Creeps origin) (hn : n < 128) :
    ¬ Covers bit n (s.landing bit origin) (s.landing bit origin n) := by
  rintro ⟨p, hp, -, hsame⟩
  exact landing_ne_of_lt h hp hn hsame

theorem plot_append (origin : Bool → Nat × Nat) (ds es : List (Nat × Nat)) (s : Screen)
    (hit : Bool) :
    plot origin (ds ++ es) s hit =
      plot origin es (plot origin ds s hit).1 (plot origin ds s hit).2 := by
  induction ds generalizing s hit with
  | nil => rfl
  | cons d ds ih => exact ih ..

/-- What a scan has come to after `n` positions. -/
structure Scanned (s : Screen) (bit : Nat → Bool) (origin : Bool → Nat × Nat) (n : Nat)
    (r : Screen × Bool) : Prop where
  pixel_eq : ∀ x y, r.1.pixel x y =
    (s.pixel x y ^^ decide (Covers bit n (s.landing bit origin) (x % 64, y % 32)))
  hit_eq : r.2 = decide (s.Met bit (origin false) n)

variable {r : Screen × Bool}

theorem Scanned.succ_of_unset (h : s.Scanned bit origin n r) (hbit : bit n = false) :
    s.Scanned bit origin (n + 1) r where
  pixel_eq x y := by
    have hcovers : Covers bit (n + 1) (s.landing bit origin) (x % 64, y % 32) ↔
        Covers bit n (s.landing bit origin) (x % 64, y % 32) := by
      simp [covers_succ, hbit]
    rw [h.pixel_eq, decide_eq_decide.2 hcovers]
  hit_eq := by
    have hmet : s.Met bit (origin false) (n + 1) ↔ s.Met bit (origin false) n := by
      simp [met_succ, Hits, hbit]
    rw [h.hit_eq, decide_eq_decide.2 hmet]

theorem Scanned.plot_dot (h : s.Scanned bit origin n r) :
    plot origin [(n % 8, n / 8)] r.1 r.2 =
      (r.1.flip (s.landing bit origin n).1 (s.landing bit origin n).2,
        r.2 || r.1.pixel (s.landing bit origin n).1 (s.landing bit origin n).2) := by
  rw [landing, ← h.hit_eq, spot, flip_mod, pixel_mod]
  rfl

/-- The next position finds its pixel as it was at first, because no earlier one has fallen on it. -/
theorem Scanned.pixel_landing (h : s.Scanned bit origin n r) (hcreeps : Creeps origin)
    (hn : n < 128) :
    r.1.pixel (s.landing bit origin n).1 (s.landing bit origin n).2 =
      s.pixel (s.landing bit origin n).1 (s.landing bit origin n).2 := by
  rw [h.pixel_eq, landing_mod, decide_eq_false (not_covers_landing hcreeps hn), Bool.xor_false]

theorem Scanned.succ_of_set (h : s.Scanned bit origin n r) (hcreeps : Creeps origin) (hn : n < 128)
    (hbit : bit n = true) :
    s.Scanned bit origin (n + 1) (plot origin [(n % 8, n / 8)] r.1 r.2) where
  pixel_eq x y := by
    have hfresh : ¬ Covers bit n (s.landing bit origin) (s.landing bit origin n) :=
      not_covers_landing hcreeps hn
    have hflips : ((s.landing bit origin n).1 % width = x % width ∧
        (s.landing bit origin n).2 % height = y % height) ↔
          s.landing bit origin n = (x % 64, y % 32) := by
      conv_rhs => rw [← landing_mod, Prod.mk.injEq]
      rfl
    rw [h.plot_dot, pixel_flip, h.pixel_eq, Bool.xor_assoc]
    simp only [hflips, covers_succ, hbit, true_and]
    by_cases hlast : s.landing bit origin n = (x % 64, y % 32)
    · rw [hlast] at hfresh
      simp [hfresh, hlast]
    · simp [hlast]
  hit_eq := by
    rw [h.plot_dot, h.pixel_landing hcreeps hn, h.hit_eq]
    by_cases hmet : s.Met bit (origin false) n
    · rw [decide_eq_true hmet, decide_eq_true (hmet.mono (Nat.le_succ n)), Bool.true_or]
    · -- no lit pixel has been met yet, so the sprite still stands at its first origin
      rw [landing_of_not_met hmet, decide_eq_false hmet, Bool.false_or, Bool.eq_iff_iff,
        decide_eq_true_iff, met_succ, Hits]
      simp [hmet, hbit]

theorem scanned_plot (h : Creeps origin) (hn : n ≤ 128) :
    s.Scanned bit origin n (plot origin (scan bit n) s false) := by
  induction n with
  | zero => exact ⟨fun x y => by simp [scan, plot, Covers], by simp [scan, plot, Met]⟩
  | succ n ih =>
    have hbefore := ih (Nat.le_of_succ_le hn)
    rw [scan_succ]
    cases hbit : bit n with
    | false =>
      rw [if_neg Bool.false_ne_true, List.append_nil]
      exact hbefore.succ_of_unset hbit
    | true =>
      rw [if_pos rfl, plot_append]
      exact hbefore.succ_of_set h hn hbit

theorem Scanned.stamped (h : s.Scanned bit origin n r) (hcreeps : Creeps origin) (hn : n ≤ 128) :
    s.Stamped r.1 bit n (s.landing bit origin) where
  distinct := landing_injective hcreeps hn
  pixel_eq x hx y hy := by rw [h.pixel_eq, Nat.mod_eq_of_lt hx, Nat.mod_eq_of_lt hy]

end Screen

end Chip8
