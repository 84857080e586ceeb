import Chip8.Proofs.Instruction.Encoding
import Chip8.Proofs.Machine.Obstacle
import Chip8.Proofs.Screen.Scan

namespace Chip8

theorem exists_position_iff {height : Nat} {P : Nat → Prop} :
    (∃ p < 8 * height, P p) ↔ ∃ r < height, ∃ b < 8, P (8 * r + b) := by
  constructor
  · rintro ⟨p, hp, h⟩
    have hposition : 8 * (p / 8) + p % 8 = p := Nat.div_add_mod p 8
    refine ⟨p / 8, by omega, p % 8, by omega, ?_⟩
    rwa [hposition]
  · rintro ⟨r, hr, b, hb, h⟩
    exact ⟨8 * r + b, by omega, h⟩

theorem Screen.spot_row_add {b : Nat} (hb : b < 8) (o : Nat × Nat) (r : Nat) :
    spot o (8 * r + b) = ((o.1 + b) % 64, (o.2 + r) % 32) := by
  have hcolumn : (8 * r + b) % 8 = b := by omega
  have hrow : (8 * r + b) / 8 = r := by omega
  rw [spot, hcolumn, hrow]

namespace Machine

/-- Whether a bit of the sprite at the index is set, by its position. -/
def spriteBit (m : Machine) (p : Nat) : Bool :=
  (m.ram.byte (m.index.toNat + p / 8)).toNat.testBit (7 - p % 8)

/-- Where a sprite stands if the flag register is taken to hold `flag`. -/
def originWith (m : Machine) (x y : Nibble) (flag : Nat) : Nat × Nat :=
  (if x = Registers.flag then flag else (m.register x).toNat,
    if y = Registers.flag then flag else (m.register y).toNat)

theorem spriteBit_row_add {b : Nat} (hb : b < 8) (m : Machine) (r : Nat) :
    m.spriteBit (8 * r + b) = (m.ram.byte (m.index.toNat + r)).toNat.testBit (7 - b) := by
  have hcolumn : (8 * r + b) % 8 = b := by omega
  have hrow : (8 * r + b) / 8 = r := by omega
  rw [spriteBit, hcolumn, hrow]

theorem spriteOrigin_of_moving {m : Machine} (h : m.dialect.flagBeforeOperands = true)
    (x y : Nibble) (hit : Bool) :
    m.spriteOrigin x y hit = m.originWith x y (if hit then 1 else 0) := by
  have hseen (z : Nibble) : ((m.registers.set Registers.flag (flagOf hit)).get z).toNat =
      if z = Registers.flag then (if hit then 1 else 0) else (m.register z).toNat := by
    rw [Registers.get_set, apply_ite UInt8.toNat]
    cases hit <;> simp [eq_comm, flagOf, register]
  unfold spriteOrigin originWith
  rw [h, if_pos rfl]
  dsimp only
  rw [hseen, hseen]

/-- The flag only ever grows from zero to one, and a sprite moves no farther than that. -/
theorem creeps_spriteOrigin (m : Machine) (x y : Nibble) : Screen.Creeps (m.spriteOrigin x y) := by
  cases hflag : m.dialect.flagBeforeOperands with
  | false =>
    refine ⟨0, Nat.zero_le 1, 0, Nat.zero_le 1, ?_⟩
    rw [spriteOrigin_of_fixed (.inl hflag), spriteOrigin_of_fixed (.inl hflag)]
    rfl
  | true =>
    refine ⟨if x = Registers.flag then 1 else 0, by split <;> omega,
      if y = Registers.flag then 1 else 0, by split <;> omega, ?_⟩
    rw [spriteOrigin_of_moving hflag, spriteOrigin_of_moving hflag, if_pos rfl,
      if_neg Bool.false_ne_true]
    unfold originWith
    by_cases hx : x = Registers.flag <;> by_cases hy : y = Registers.flag <;> simp [hx, hy]

theorem spriteDots_readBlock (m : Machine) (height : Nat) :
    spriteDots ((List.range' m.index.toNat height).map m.ram.byte) =
      scan m.spriteBit (8 * height) := by
  rw [spriteDots_eq_scan, List.length_map, List.length_range']
  refine scan_congr fun p hp => ?_
  have hrow : p / 8 < height := by omega
  rw [rowBit, spriteBit, List.getElem?_map, List.getElem?_range' hrow, Nat.one_mul]
  rfl

/-- A draw whose sprite lies within the memory turns over the pixels on which its set bits fall, each
once, and sets the flag if one of them was lit. -/
theorem execute_draw {m : Machine} {i : Instruction} (hdraw : i.selector = 0xD)
    (hwindow : ∀ r < i.n.val, m.index.toNat + r < memorySize) :
    ∃ screen,
      m.execute i.operation =
        .done { m with
          screen
          registers := m.registers.set Registers.flag (flagOf
            (decide (m.screen.Met m.spriteBit (m.spriteOrigin i.x i.y false) (8 * i.n.val)))) } ∧
      m.screen.Stamped screen m.spriteBit (8 * i.n.val)
        (m.screen.landing m.spriteBit (m.spriteOrigin i.x i.y)) := by
  have hoperation : i.operation = .draw i.x i.y i.n :=
    Instruction.operation_eq_iff.2 ⟨hdraw, rfl, rfl, rfl⟩
  have hcreeps := m.creeps_spriteOrigin i.x i.y
  have hbound : 8 * i.n.val ≤ 128 := by omega
  have hscanned : m.screen.Scanned m.spriteBit (m.spriteOrigin i.x i.y) (8 * i.n.val)
      (Screen.plot (m.spriteOrigin i.x i.y) (scan m.spriteBit (8 * i.n.val)) m.screen false) :=
    Screen.scanned_plot hcreeps hbound
  refine ⟨_, ?_, hscanned.stamped hcreeps hbound⟩
  rw [hoperation, execute, draw, Ram.readBlock_eq_ok hwindow, ← hscanned.hit_eq,
    ← spriteDots_readBlock]
  rfl

/-- Whether a set bit of the sprite at the index falls on a pixel, around both edges, if the word
draws it where its operands stand now. -/
def SpriteCovers (m : Machine) (i : Instruction) (x y : Nat) : Prop :=
  ∃ r < i.n.val, ∃ b < 8,
    (m.ram.byte (m.index.toNat + r)).toNat.testBit (7 - b) = true ∧
      ((m.register i.x).toNat + b) % 64 = x ∧ ((m.register i.y).toNat + r) % 32 = y

instance (m : Machine) (i : Instruction) (x y : Nat) : Decidable (m.SpriteCovers i x y) :=
  inferInstanceAs (Decidable (∃ r < _, ∃ b < 8, _))

theorem covers_iff_spriteCovers (m : Machine) (i : Instruction) (x y : Nat) :
    Covers m.spriteBit (8 * i.n.val)
        (Screen.spot ((m.register i.x).toNat, (m.register i.y).toNat)) (x, y) ↔
      m.SpriteCovers i x y := by
  unfold Covers SpriteCovers
  rw [exists_position_iff]
  refine exists_congr fun r => and_congr_right fun hr => exists_congr fun b =>
    and_congr_right fun hb => ?_
  rw [spriteBit_row_add hb, Screen.spot_row_add hb, Prod.mk.injEq]

/-- A draw with an origin in other registers than the flag turns over the pixels that its sprite
covers. -/
theorem execute_draw_of_ne_flag {m : Machine} {i : Instruction} (hdraw : i.selector = 0xD)
    (hx : i.x ≠ Registers.flag) (hy : i.y ≠ Registers.flag)
    (hwindow : ∀ r < i.n.val, m.index.toNat + r < memorySize) :
    ∃ screen hit,
      m.execute i.operation =
        .done { m with screen, registers := m.registers.set Registers.flag (flagOf hit) } ∧
      (∀ x < 64, ∀ y < 32,
        screen.pixel x y = (m.screen.pixel x y ^^ decide (m.SpriteCovers i x y))) ∧
      (hit = true ↔ ∃ x y, m.SpriteCovers i x y ∧ m.screen.pixel x y = true) := by
  have hfixed := spriteOrigin_of_fixed (m := m) (.inr ⟨hx, hy⟩)
  obtain ⟨screen, hdone, hlanded⟩ := execute_draw hdraw hwindow
  have hstamped : m.screen.Stamped screen m.spriteBit (8 * i.n.val)
      (Screen.spot ((m.register i.x).toNat, (m.register i.y).toNat)) :=
    hlanded.congr fun p _ => by rw [Screen.landing, hfixed]
  rw [hfixed] at hdone
  refine ⟨screen, _, hdone, fun x hx y hy => ?_, ?_⟩
  · rw [← decide_eq_decide.2 (m.covers_iff_spriteCovers i x y)]
    exact hstamped.pixel_eq x hx y hy
  · rw [decide_eq_true_iff]
    constructor
    · rintro ⟨p, hp, hbit, hlit⟩
      exact ⟨_, _, (m.covers_iff_spriteCovers i _ _).1 ⟨p, hp, hbit, rfl⟩, hlit⟩
    · rintro ⟨x, y, hcovers, hlit⟩
      obtain ⟨p, hp, hbit, hspot⟩ := (m.covers_iff_spriteCovers i x y).2 hcovers
      refine ⟨p, hp, hbit, ?_⟩
      rw [hspot]
      exact hlit

/-- A machine whose index points at the glyph of zero. -/
def atGlyph (dialect : Dialect) (screen : Screen) : Machine where
  ram := .fresh
  registers := ⟨#v[31, 0, 0, 0, 0, 0, 0, 0, 0, 0, 0, 0, 0, 0, 0, 62]⟩
  index := 0
  stack := .empty
  screen
  pc := 0x202
  delay := 0
  mode := .running
  key := 0
  last := none
  dialect
  random := .cycling #[]

theorem byte_atGlyph (dialect : Dialect) (screen : Screen) (r : Nat) :
    (atGlyph dialect screen).ram.byte ((atGlyph dialect screen).index.toNat + r) =
      font[r]?.getD 0 := by
  change Ram.fresh.byte (0 + r) = _
  rw [Nat.zero_add, Ram.byte_fresh]

/-- A sprite placed by the flag register moves on once it has met a lit pixel. Up to and with the
bit that meets it the sprite stands where it does with a flag of zero, and from then on where it does
with a flag of one; no pixel is turned over twice. Nothing but the screen and the flag changes. -/
theorem draw_with_moving_origin {m : Machine} {i : Instruction} (hdraw : i.selector = 0xD)
    (hflag : m.dialect.flagBeforeOperands = true)
    (hwindow : ∀ r < i.n.val, m.index.toNat + r < memorySize) :
    ∃ screen hit,
      m.execute i.operation =
        .done { m with screen, registers := m.registers.set Registers.flag (flagOf hit) } ∧
      ((∀ p < 8 * i.n.val, ¬ m.screen.Hits m.spriteBit (m.originWith i.x i.y 0) p) →
        hit = false ∧
          m.screen.Stamped screen m.spriteBit (8 * i.n.val)
            (Screen.spot (m.originWith i.x i.y 0))) ∧
      ∀ k < 8 * i.n.val, m.screen.Hits m.spriteBit (m.originWith i.x i.y 0) k →
        (∀ p < k, ¬ m.screen.Hits m.spriteBit (m.originWith i.x i.y 0) p) →
          hit = true ∧
            m.screen.Stamped screen m.spriteBit (8 * i.n.val) fun p =>
              if p ≤ k then Screen.spot (m.originWith i.x i.y 0) p
              else Screen.spot (m.originWith i.x i.y 1) p := by
  obtain ⟨screen, hdone, hlanded⟩ := execute_draw hdraw hwindow
  have hbefore : m.spriteOrigin i.x i.y false = m.originWith i.x i.y 0 :=
    spriteOrigin_of_moving hflag i.x i.y false
  have hafter : m.spriteOrigin i.x i.y true = m.originWith i.x i.y 1 :=
    spriteOrigin_of_moving hflag i.x i.y true
  rw [← hbefore, ← hafter]
  refine ⟨screen, _, hdone, fun hnone => ?_, fun k hk hhits hfirst => ?_⟩
  · have hfree {p : Nat} (hp : p ≤ 8 * i.n.val) :
        ¬ m.screen.Met m.spriteBit (m.spriteOrigin i.x i.y false) p := by
      rintro ⟨q, hq, hhits⟩
      exact hnone q (Nat.lt_of_lt_of_le hq hp) hhits
    refine ⟨decide_eq_false (hfree (Nat.le_refl _)), hlanded.congr fun p hp => ?_⟩
    exact Screen.landing_of_not_met (hfree (Nat.le_of_lt hp))
  · refine ⟨decide_eq_true ⟨k, hk, hhits⟩, hlanded.congr fun p _ => ?_⟩
    rw [Screen.landing_of_first hhits hfirst]
    by_cases hp : p ≤ k
    · rw [if_pos hp, decide_eq_false (Nat.not_lt.2 hp)]
    · rw [if_neg hp, decide_eq_true (Nat.not_le.1 hp)]

/-- The second bit of the first row meets a lit pixel, so what comes after it stands a column
farther. -/
theorem draw_with_moving_origin_met :
    ∃ screen, (atGlyph .legacy (Screen.blank.flip 1 31)).execute
        (⟨0xDF05⟩ : Instruction).operation =
          .done { atGlyph .legacy (Screen.blank.flip 1 31) with
            screen
            registers := ⟨#v[31, 0, 0, 0, 0, 0, 0, 0, 0, 0, 0, 0, 0, 0, 0, 1]⟩ } ∧
      screen.pixel 0 31 = true ∧ screen.pixel 1 31 = false ∧ screen.pixel 4 31 = true ∧
        screen.pixel 1 0 = true := by
  obtain ⟨screen, hit, hdone, -, hmet⟩ :=
    draw_with_moving_origin (m := atGlyph .legacy (Screen.blank.flip 1 31)) (i := ⟨0xDF05⟩)
      (by decide) rfl (by decide)
  have hbit (p : Nat) : (atGlyph .legacy (Screen.blank.flip 1 31)).spriteBit p =
      (font[p / 8]?.getD 0).toNat.testBit (7 - p % 8) := by
    rw [spriteBit, byte_atGlyph]
  have hlit (x y : Nat) : (atGlyph .legacy (Screen.blank.flip 1 31)).screen.pixel x y =
      decide (1 % 64 = x % 64 ∧ 31 % 32 = y % 32) := Screen.pixel_flip_blank 1 31 x y
  obtain ⟨hcollides, hstamped⟩ := by
    refine hmet 1 (by decide) ⟨hbit 1, hlit _ _⟩ fun p hp => ?_
    obtain rfl : p = 0 := Nat.lt_one_iff.1 hp
    rintro ⟨-, hunlit⟩
    rw [hlit] at hunlit
    exact absurd hunlit (by decide)
  have hpixel {p x y : Nat} (hp : p < 40)
      (htarget : (if p ≤ 1 then Screen.spot (0, 31) p else Screen.spot (1, 31) p) = (x, y))
      (hx : x < 64) (hy : y < 32) :
      screen.pixel x y = (decide (1 % 64 = x % 64 ∧ 31 % 32 = y % 32) ^^
        (font[p / 8]?.getD 0).toNat.testBit (7 - p % 8)) := by
    rw [← hbit, ← hlit]
    exact hstamped.pixel_of_target hp htarget hx hy
  rw [hcollides] at hdone
  exact ⟨screen, hdone, hpixel (p := 0) (by decide) rfl (by decide) (by decide),
    hpixel (p := 1) (by decide) rfl (by decide) (by decide),
    hpixel (p := 3) (by decide) rfl (by decide) (by decide),
    hpixel (p := 8) (by decide) rfl (by decide) (by decide)⟩

end Machine

end Chip8
