import Chip8.Proofs.Machine.Compositing
import Chip8.Proofs.Machine.Transfer

namespace Chip8

/-- A machine with the glyphs in place and three decimal digits in its first registers, under the
dialect in which the glyph instruction points at the glyph of a register's value. -/
structure Machine.HoldsDigits (m : Machine) (digit : Fin 3 → Nat) : Prop where
  dialect_eq : m.dialect = .compliant
  font_eq : ∀ a < fontEnd, m.ram.byte a = font[a]?.getD 0
  digit_le : ∀ j, digit j ≤ 9
  register_eq : ∀ j : Fin 3, (m.register (j.castLE (by decide))).toNat = digit j

/-- Two words that point the index at the glyph of one of the first three registers and draw it,
with its origin in other registers than the flag. -/
structure DigitStep where
  place : Fin 3
  pointing : Instruction
  drawing : Instruction
  points : pointing.selector = 0xF ∧ pointing.immediate = 0x29
  points_at : pointing.x = place.castLE (by decide)
  draws : drawing.selector = 0xD ∧ drawing.n = 5
  x_ne_flag : drawing.x ≠ Registers.flag
  y_ne_flag : drawing.y ≠ Registers.flag

namespace DigitStep

open Machine

/-- The words of a step. -/
def words (s : DigitStep) : List Instruction := [s.pointing, s.drawing]

/-- Whether a set bit of the glyph of a digit falls on a pixel, around both edges, by the registers
of `m`. -/
def Covers (s : DigitStep) (digit : Fin 3 → Nat) (m : Machine) (x y : Nat) : Prop :=
  ∃ r < 5, ∃ b < 8,
    (font[5 * digit s.place + r]?.getD 0).toNat.testBit (7 - b) = true ∧
      ((m.register s.drawing.x).toNat + b) % 64 = x ∧
      ((m.register s.drawing.y).toNat + r) % 32 = y

instance (s : DigitStep) (digit : Fin 3 → Nat) (m : Machine) (x y : Nat) :
    Decidable (s.Covers digit m x y) :=
  inferInstanceAs (Decidable (∃ r < 5, ∃ b < 8, _))

variable {digit : Fin 3 → Nat} {m : Machine}

/-- The index finds the glyph of the digit. -/
theorem execute_pointing (s : DigitStep) (h : m.HoldsDigits digit) :
    ∃ index, m.execute s.pointing.operation = .done { m with index } ∧
      index.toNat = 5 * digit s.place := by
  have hoperation : s.pointing.operation = .glyph s.pointing.x :=
    Instruction.operation_eq_iff.2 ⟨s.points.1, s.points.2, rfl⟩
  have hle : digit s.place ≤ 9 := h.digit_le s.place
  have hregister : (m.register s.pointing.x).toNat = digit s.place := by
    rw [s.points_at]
    exact h.register_eq s.place
  have hnibble : (Nibble.ofLowBits (m.register s.pointing.x).toNat).val = digit s.place := by
    rw [hregister]
    exact Nat.mod_eq_of_lt (by omega)
  have hdirect : ¬ m.dialect.glyphThroughMemory = true := by
    rw [h.dialect_eq]
    decide
  rw [hoperation, execute, pointAtGlyph, if_neg hdirect]
  refine ⟨_, rfl, ?_⟩
  have hlt : 5 * digit s.place < UInt16.size :=
    Nat.lt_of_le_of_lt (Nat.mul_le_mul_left 5 hle) (by decide)
  rw [hnibble, fontStart, glyphSize, Nat.zero_add, UInt16.toNat_ofNat_of_lt' hlt]

/-- A step draws the glyph of its digit, and leaves everything else alone but for the index and the
flag. -/
theorem exists_printed (s : DigitStep) (h : m.HoldsDigits digit) :
    ∃ index screen hit,
      m.executeAll s.words =
        .done { m with index, screen, registers := m.registers.set Registers.flag (flagOf hit) } ∧
      ∀ x < 64, ∀ y < 32,
        screen.pixel x y = (m.screen.pixel x y ^^ decide (s.Covers digit m x y)) := by
  obtain ⟨index, hpointed, hindex⟩ := s.execute_pointing h
  have hle : digit s.place ≤ 9 := h.digit_le s.place
  have hheight : s.drawing.n.val = 5 := by
    rw [s.draws.2]
    rfl
  have hwindow : ∀ r < s.drawing.n.val, index.toNat + r < memorySize := by
    intro r hr
    simp only [memorySize]
    omega
  obtain ⟨screen, hit, hdone, hpixel, -⟩ := execute_draw_of_ne_flag (m := { m with index })
    s.draws.1 s.x_ne_flag s.y_ne_flag hwindow
  refine ⟨index, screen, hit, (executeAll_cons hpointed _).trans (executeAll_cons hdone []), ?_⟩
  have hcovers (x y : Nat) :
      Machine.SpriteCovers { m with index } s.drawing x y ↔ s.Covers digit m x y := by
    unfold SpriteCovers Covers
    rw [hheight]
    refine exists_congr fun r => and_congr_right fun hr => exists_congr fun b =>
      and_congr_right fun _ => ?_
    have hglyph : m.ram.byte (index.toNat + r) = font[5 * digit s.place + r]?.getD 0 := by
      rw [hindex]
      exact h.font_eq _ (by simp only [fontEnd, fontStart, glyphSize]; omega)
    rw [← hglyph]
    rfl
  intro x hx y hy
  rw [← decide_eq_decide.2 (hcovers x y)]
  exact hpixel x hx y hy

end DigitStep

namespace Machine

variable {digit : Fin 3 → Nat} {m : Machine} {i : Instruction}

theorem HoldsDigits.congr {m' : Machine} (h : m.HoldsDigits digit)
    (hdialect : m'.dialect = m.dialect) (hram : m'.ram = m.ram)
    (hregister : ∀ z ≠ Registers.flag, m'.register z = m.register z) : m'.HoldsDigits digit where
  dialect_eq := hdialect.trans h.dialect_eq
  font_eq := by
    rw [hram]
    exact h.font_eq
  digit_le := h.digit_le
  register_eq j := by
    rw [hregister _ (by revert j; decide)]
    exact h.register_eq j

/-- Steps go through, all of them, and each draws its glyph. -/
theorem HoldsDigits.exists_printed (h : m.HoldsDigits digit) (steps : List DigitStep) :
    ∃ m', m.executeAll (steps.flatMap DigitStep.words) = .done m' ∧ m'.HoldsDigits digit ∧
      m'.ram = m.ram ∧ (∀ z ≠ Registers.flag, m'.register z = m.register z) ∧
      ∀ x < 64, ∀ y < 32, m'.screen.pixel x y = (m.screen.pixel x y ^^
        decide (steps.countP (fun s => decide (s.Covers digit m x y)) % 2 = 1)) := by
  let Keeps (m' : Machine) := m'.dialect = m.dialect ∧ m'.ram = m.ram ∧
    ∀ z ≠ Registers.flag, m'.register z = m.register z
  have hholds (m' : Machine) (hkept : Keeps m') : m'.HoldsDigits digit :=
    h.congr hkept.1 hkept.2.1 hkept.2.2
  have hstep (s : DigitStep) (m' : Machine) (hkept : Keeps m') :
      ∃ m'', m'.executeAll s.words = .done m'' ∧ Keeps m'' ∧
        ∀ x < 64, ∀ y < 32,
          m''.screen.pixel x y = (m'.screen.pixel x y ^^ decide (s.Covers digit m x y)) := by
    obtain ⟨index, screen, hit, hdone, hpixel⟩ := s.exists_printed (hholds m' hkept)
    refine ⟨_, hdone, ⟨hkept.1, hkept.2.1, fun z hz => ?_⟩, fun x hx y hy => ?_⟩
    · exact ((Registers.get_set ..).trans (if_neg hz.symm)).trans (hkept.2.2 z hz)
    · have hcovers : s.Covers digit m' x y ↔ s.Covers digit m x y := by
        unfold DigitStep.Covers
        rw [hkept.2.2 _ s.x_ne_flag, hkept.2.2 _ s.y_ne_flag]
      rw [← decide_eq_decide.2 hcovers]
      exact hpixel x hx y hy
  obtain ⟨m', hdone, hkept, hpixel⟩ := executeAll_flatMap hstep steps ⟨rfl, rfl, fun _ _ => rfl⟩
  exact ⟨m', hdone, hholds m' hkept, hkept.2.1, hkept.2.2, hpixel⟩

/-- The decimal digits of a byte: hundreds, tens and ones. -/
def decimalDigit (b : UInt8) (j : Fin 3) : UInt8 := (decimalDigits b).get j

theorem toNat_decimalDigit (b : UInt8) :
    (decimalDigit b 0).toNat = b.toNat / 100 ∧ (decimalDigit b 1).toNat = b.toNat / 10 % 10 ∧
      (decimalDigit b 2).toNat = b.toNat % 10 :=
  ⟨UInt8.toNat_div .., UInt8.toNat_mod .., UInt8.toNat_mod ..⟩

theorem toNat_decimalDigit_le (b : UInt8) (j : Fin 3) : (decimalDigit b j).toNat ≤ 9 := by
  have hlt : b.toNat < 256 := b.toNat_lt
  obtain ⟨hhundreds, htens, hones⟩ := toNat_decimalDigit b
  match j with
  | 0 => omega
  | 1 => omega
  | 2 => omega

theorem decimalDigit_add (b : UInt8) :
    100 * (decimalDigit b 0).toNat + 10 * (decimalDigit b 1).toNat + (decimalDigit b 2).toNat =
      b.toNat := by
  obtain ⟨hhundreds, htens, hones⟩ := toNat_decimalDigit b
  omega

/-- Digits whose window lies within the memory are laid over it. -/
theorem execute_of_decimal (hdialect : m.dialect = .compliant)
    (hdecimal : i.selector = 0xF ∧ i.immediate = 0x33) (hfits : m.index.toNat + 3 ≤ memorySize) :
    m.execute i.operation =
      .done { m with ram := m.ram.overlay m.index.toNat (m.digitBytes i.x) } := by
  have hoperation : i.operation = .decimal i.x :=
    Instruction.operation_eq_iff.2 ⟨hdecimal.1, hdecimal.2, rfl⟩
  have hspan : (Operation.decimal i.x).span m.dialect = 3 := by
    rw [hdialect]
    rfl
  rw [hoperation, execute, storeDigits_eq, hspan, overrun_of_le hfits]
  rfl

/-- Digits at the index are loaded into the first three registers. -/
theorem exists_holdsDigits (hdialect : m.dialect = .compliant)
    (hfont : ∀ a < fontEnd, m.ram.byte a = font[a]?.getD 0) (hle : ∀ j, digit j ≤ 9)
    (hdigit : ∀ j : Fin 3, (m.ram.byte (m.index.toNat + j.val)).toNat = digit j)
    (hfits : m.index.toNat + 3 ≤ memorySize) :
    ∃ registers,
      m.execute (⟨0xF265⟩ : Instruction).operation = .done { m with registers } ∧
      (∀ z : Nibble, 3 ≤ z.val → registers.get z = m.register z) ∧
      Machine.HoldsDigits { m with registers } digit := by
  have hcount : m.dialect.transferCount (⟨0xF265⟩ : Instruction).x = 3 := by
    rw [hdialect]
    decide
  have hload := execute_of_load (m := m) (i := ⟨0xF265⟩) (by decide) (by decide) (by rwa [hcount])
  rw [hcount] at hload
  have hget (z : Nibble) := m.registers.get_fill_of_le hfits m.ram z
  refine ⟨_, hload, fun z hz => ?_, hdialect, hfont, hle, fun j => ?_⟩
  · rw [hget, if_neg (Nat.not_lt.2 hz)]
    rfl
  · rw [← hdigit j]
    exact congrArg UInt8.toNat ((hget _).trans (if_pos j.isLt))

/-- A byte is printed in decimal by its digits. They are stored at the index, after the glyphs, and
loaded into the first three registers; from then on each of these registers finds its glyph, which
is drawn wherever it is wanted, whatever becomes of the other registers and the screen in between.
None of the words fails. -/
theorem prints_in_decimal {m : Machine} {i : Instruction} (hdialect : m.dialect = .compliant)
    (hfont : ∀ a < fontEnd, m.ram.byte a = font[a]?.getD 0)
    (hdecimal : i.selector = 0xF ∧ i.immediate = 0x33)
    (hindex : fontEnd ≤ m.index.toNat) (hfits : m.index.toNat + 3 ≤ memorySize) :
    ∃ digit : Fin 3 → Nat,
      (∀ j, digit j ≤ 9) ∧ 100 * digit 0 + 10 * digit 1 + digit 2 = (m.register i.x).toNat ∧
      (∃ ram registers,
        m.execute i.operation = .done { m with ram } ∧
        (∀ j : Fin 3, (ram.byte (m.index.toNat + j.val)).toNat = digit j) ∧
        (∀ a, (∀ j < 3, a ≠ m.index.toNat + j) → ram.byte a = m.ram.byte a) ∧
        Machine.execute { m with ram } (⟨0xF265⟩ : Instruction).operation =
          .done { m with ram, registers } ∧
        (∀ z : Nibble, 3 ≤ z.val → registers.get z = m.register z) ∧
        Machine.HoldsDigits { m with ram, registers } digit) ∧
      ∀ m' : Machine, m'.HoldsDigits digit → ∀ steps : List DigitStep,
        ∃ m'', m'.executeAll (steps.flatMap DigitStep.words) = .done m'' ∧
          m''.HoldsDigits digit ∧ m''.ram = m'.ram ∧
          (∀ z ≠ Registers.flag, m''.register z = m'.register z) ∧
          ∀ x < 64, ∀ y < 32, m''.screen.pixel x y = (m'.screen.pixel x y ^^
            decide (steps.countP (fun s => decide (s.Covers digit m' x y)) % 2 = 1)) := by
  have hplaces : ¬ m.dialect.stacksDigits = true := by
    rw [hdialect]
    decide
  let ram := m.ram.overlay m.index.toNat (m.digitBytes i.x)
  have hinside (j : Fin 3) :
      ram.byte (m.index.toNat + j.val) = decimalDigit (m.register i.x) j := by
    refine byte_overlay_digitBytes_inside hplaces (List.getElem?_eq_getElem j.isLt) ?_
    simp only [memorySize] at hfits
    omega
  have houtside (a : Nat) (ha : ∀ j < 3, a ≠ m.index.toNat + j) : ram.byte a = m.ram.byte a :=
    byte_overlay_digitBytes_outside hplaces ha
  have hdigit (j : Fin 3) := congrArg UInt8.toNat (hinside j)
  have hglyphs (a : Nat) (ha : a < fontEnd) : ram.byte a = font[a]?.getD 0 :=
    (houtside a (by omega)).trans (hfont a ha)
  have hle := toNat_decimalDigit_le (m.register i.x)
  obtain ⟨registers, hloaded, hothers, hholds⟩ :=
    exists_holdsDigits (m := { m with ram }) hdialect hglyphs hle hdigit hfits
  exact ⟨_, hle, decimalDigit_add _,
    ⟨ram, registers, execute_of_decimal hdialect hdecimal hfits, hdigit, houtside, hloaded, hothers,
      hholds⟩,
    fun m' h => h.exists_printed⟩

/-- A step that draws a digit where the fourth and the fifth register say. -/
def digitStep (j : Fin 3) : DigitStep where
  place := j
  pointing := ⟨0xF029 + 0x100 * UInt16.ofNat j.val⟩
  drawing := ⟨0xD345⟩
  points := by revert j; decide
  points_at := by revert j; decide
  draws := by decide
  x_ne_flag := by decide
  y_ne_flag := by decide

/-- With zeros in the fourth and the fifth register a digit is drawn in the first corner. -/
theorem covers_digitStep (digit : Fin 3 → Nat) {m : Machine} (hcolumn : m.register 3 = 0)
    (hrow : m.register 4 = 0) (j : Fin 3) (x y : Nat) :
    (digitStep j).Covers digit m x y ↔
      ∃ r < 5, ∃ b < 8, (font[5 * digit j + r]?.getD 0).toNat.testBit (7 - b) = true ∧
        b % 64 = x ∧ r % 32 = y := by
  have hx : (digitStep j).drawing.x = 3 := by
    change (⟨0xD345⟩ : Instruction).x = 3
    decide
  have hy : (digitStep j).drawing.y = 4 := by
    change (⟨0xD345⟩ : Instruction).y = 4
    decide
  simp only [DigitStep.Covers, hx, hy, hcolumn, hrow, UInt8.toNat_zero, Nat.zero_add]
  rfl

/-- The digits of thirty-one, all drawn in the first corner, where the second row of the one has a
pixel that neither of the others has. -/
theorem prints_in_decimal_thirty_one :
    ∃ ram registers m',
      Machine.execute { atGlyph .compliant .blank with index := 0x300 }
          (⟨0xF033⟩ : Instruction).operation =
        .done { atGlyph .compliant .blank with index := 0x300, ram } ∧
      (ram.byte 0x301).toNat = 3 ∧ (ram.byte 0x302).toNat = 1 ∧
      Machine.execute { atGlyph .compliant .blank with index := 0x300, ram }
          (⟨0xF265⟩ : Instruction).operation =
        .done { atGlyph .compliant .blank with index := 0x300, ram, registers } ∧
      Machine.executeAll { atGlyph .compliant .blank with index := 0x300, ram, registers }
          [⟨0xF029⟩, ⟨0xD345⟩, ⟨0xF129⟩, ⟨0xD345⟩, ⟨0xF229⟩, ⟨0xD345⟩] = .done m' ∧
      m'.screen.pixel 1 1 = true ∧ m'.screen.pixel 3 1 = false := by
  obtain ⟨digit, hle, hsum,
      ⟨ram, registers, hstored, hdigit, -, hloaded, hothers, hholds⟩, hprints⟩ :=
    prints_in_decimal (m := { atGlyph .compliant .blank with index := 0x300 }) (i := ⟨0xF033⟩) rfl
      (fun a _ => Ram.byte_fresh a) (by decide) (by decide) (by decide)
  obtain ⟨m', hdone, -, -, -, hpixel⟩ := hprints _ hholds [digitStep 0, digitStep 1, digitStep 2]
  have hvalue : 100 * digit 0 + 10 * digit 1 + digit 2 = 31 := hsum
  have hhundreds := hle 0
  have htens := hle 1
  have hones := hle 2
  have hdigits : digit 0 = 0 ∧ digit 1 = 3 ∧ digit 2 = 1 := by omega
  have hblank (x y : Nat) : (atGlyph .compliant .blank).screen.pixel x y = false :=
    Screen.pixel_blank x y
  have hcovers := covers_digitStep digit
    (m := { atGlyph .compliant .blank with index := 0x300, ram, registers })
    (hothers 3 (by decide)) (hothers 4 (by decide))
  refine ⟨ram, registers, m', hstored, ?_, ?_, hloaded, hdone, ?_, ?_⟩
  · exact (hdigit 1).trans hdigits.2.1
  · exact (hdigit 2).trans hdigits.2.2
  · rw [hpixel 1 (by decide) 1 (by decide)]
    simp only [List.countP_cons, List.countP_nil, hcovers, hdigits]
    rw [hblank]
    decide
  · rw [hpixel 3 (by decide) 1 (by decide)]
    simp only [List.countP_cons, List.countP_nil, hcovers, hdigits]
    rw [hblank]
    decide

end Machine

end Chip8
