import Chip8.Proofs.Instruction.Encoding
import Chip8.Proofs.Machine.Boot

namespace Chip8

namespace Dialect

/-- The flag of a subtraction of `b` from `a`, in numbers. -/
def differenceFlag (d : Dialect) (a b : Nat) : Nat :=
  (if d.flagsBorrow then decide (a < b) else decide (b ≤ a)).toNat

/-- The flag of a shift of `a` to the left, in numbers. -/
def doublingFlag (d : Dialect) (a : Nat) : Nat := if d.flagsUpperBits then a / 8 else a / 128

variable (d : Dialect) (a b : UInt8)

theorem toNat_borrowFlag : (d.borrowFlag (a < b)).toNat = d.differenceFlag a.toNat b.toNat := by
  have hlt : a < b ↔ a.toNat < b.toNat := UInt8.lt_iff_toNat_lt
  have hle : b.toNat ≤ a.toNat ↔ ¬ a.toNat < b.toNat := Nat.not_lt.symm
  unfold borrowFlag differenceFlag flagOf
  cases d.flagsBorrow <;> by_cases h : a.toNat < b.toNat <;> simp [hlt, hle, h]

theorem toNat_leftShiftFlag : (d.leftShiftFlag a).toNat = d.doublingFlag a.toNat := by
  unfold leftShiftFlag doublingFlag
  cases d.flagsUpperBits <;> simp [UInt8.toNat_shiftRight, Nat.shiftRight_eq_div_pow]

end Dialect

theorem toNat_flagOf (b : Bool) : (flagOf b).toNat = b.toNat := by cases b <;> rfl

theorem toNat_byte_sub (a b : UInt8) :
    ((a - b).toNat : Int) = ((a.toNat : Int) - b.toNat) % 256 := by
  have ha := a.toNat_lt
  have hb := b.toNat_lt
  rw [UInt8.toNat_sub]
  omega

namespace Registers

/-- What an operand counts as once the flag `f` has been written: where operands are taken again,
the flag register counts as the flag that it now holds. -/
def operandAfter (v : Registers) (again : Bool) (z : Nibble) (f : UInt8) : UInt8 :=
  if again = true ∧ z = flag then f else v.get z

/-- The registers `w` are `v` with a number put into `x`. -/
def Puts (v : Registers) (x : Nibble) (result : Int) (w : Registers) : Prop :=
  ∀ z, (w.get z).toNat = if z = x then result else (v.get z).toNat

/-- The registers `w` are `v` with a number put into `x`, and a flag into the flag register unless
that is `x` itself. -/
def PutsFlagged (v : Registers) (x : Nibble) (f : Nat) (result : Int) (w : Registers) : Prop :=
  ∀ z, (w.get z).toNat = if z = x then result else if z = flag then f else (v.get z).toNat

variable (v : Registers) {again : Bool} {x y : Nibble} {f b : UInt8}
  {result : UInt8 → UInt8 → UInt8}

theorem get_operandAfter (z : Nibble) :
    (if again then v.set flag f else v).get z = v.operandAfter again z f := by
  unfold operandAfter
  cases again with
  | false => rfl
  | true => simp only [if_true, true_and, get_set, eq_comm]

theorem get_putFlagged (z : Nibble) :
    (v.putFlagged again x y f result).get z =
      if z = x then result (v.operandAfter again x f) (v.operandAfter again y f)
      else if z = flag then f
      else v.get z := by
  unfold putFlagged
  dsimp only
  rw [get_operandAfter, get_operandAfter, get_set, get_set]
  simp only [eq_comm]

theorem puts_set {n : Int} (h : b.toNat = n) : v.Puts x n (v.set x b) := by
  intro z
  rw [get_set, ← h]
  by_cases hz : x = z
  · rw [if_pos hz, if_pos hz.symm]
  · rw [if_neg hz, if_neg (Ne.symm hz)]

theorem putsFlagged_putFlagged {n : Int}
    (h : (result (v.operandAfter again x f) (v.operandAfter again y f)).toNat = n) :
    v.PutsFlagged x f.toNat n (v.putFlagged again x y f result) := by
  intro z
  rw [get_putFlagged, ← h]
  split
  · rfl
  · split <;> rfl

end Registers

namespace Machine

/-- What a register holds, as a number. -/
def number (m : Machine) (z : Nibble) : Nat := (m.register z).toNat

/-- What an operand counts as once the flag `f` has been written, as a number. -/
def numberAfter (m : Machine) (z : Nibble) (f : Nat) : Nat :=
  if m.dialect.flagBeforeOperands = true ∧ z = Registers.flag then f else m.number z

/-- The registers `w` are what a word makes of those of `m` if it writes the flag `f`, and then the
result of its operands as they count after that. -/
def Reckons (m : Machine) (i : Instruction) (f : Nat) (result : Int → Int → Int)
    (w : Registers) : Prop :=
  m.registers.PutsFlagged i.x f (result (m.numberAfter i.x f) (m.numberAfter i.y f)) w

variable {m : Machine} {i : Instruction}

theorem toNat_operandAfter (z : Nibble) (f : UInt8) :
    (m.registers.operandAfter m.dialect.flagBeforeOperands z f).toNat =
      m.numberAfter z f.toNat := by
  unfold Registers.operandAfter numberAfter
  rw [apply_ite UInt8.toNat]
  rfl

theorem reckons_putFlagged (m : Machine) (i : Instruction) (f : UInt8) {g : UInt8 → UInt8 → UInt8}
    {result : Int → Int → Int} (h : ∀ a b, (g a b).toNat = result a.toNat b.toNat) :
    m.Reckons i f.toNat result
      (m.registers.putFlagged m.dialect.flagBeforeOperands i.x i.y f g) := by
  apply Registers.putsFlagged_putFlagged
  rw [h, toNat_operandAfter, toNat_operandAfter]

theorem reckons_subtract (m : Machine) (i : Instruction) :
    m.Reckons i (m.dialect.differenceFlag (m.number i.x) (m.number i.y)) (fun a b => (a - b) % 256)
      (m.registers.arithmetic m.dialect .subtract i.x i.y) := by
  rw [number, number, ← Dialect.toNat_borrowFlag]
  exact m.reckons_putFlagged i _ toNat_byte_sub

theorem reckons_subtractFrom (m : Machine) (i : Instruction) :
    m.Reckons i (m.dialect.differenceFlag (m.number i.y) (m.number i.x)) (fun a b => (b - a) % 256)
      (m.registers.arithmetic m.dialect .subtractFrom i.x i.y) := by
  rw [number, number, ← Dialect.toNat_borrowFlag]
  refine m.reckons_putFlagged i _ (g := fun a b => b - a) fun a b => ?_
  exact toNat_byte_sub b a

theorem reckons_shiftRight (m : Machine) (i : Instruction) :
    m.Reckons i (m.number i.x % 2) (fun a _ => a / 2)
      (m.registers.shiftRight m.dialect i.x) := by
  have hflag : (m.register i.x &&& 1).toNat = m.number i.x % 2 := by
    rw [UInt8.toNat_and]
    exact Nat.and_one_is_mod _
  rw [← hflag]
  -- a shift names its operand twice where the word has a second one, which does not count
  refine m.reckons_putFlagged i _ (g := fun a _ => a >>> 1) fun a _ => ?_
  rw [UInt8.toNat_shiftRight]
  simp [Nat.shiftRight_eq_div_pow]

theorem reckons_shiftLeft (m : Machine) (i : Instruction) :
    m.Reckons i (m.dialect.doublingFlag (m.number i.x)) (fun a _ => 2 * a % 256)
      (m.registers.shiftLeft m.dialect i.x) := by
  rw [number, ← Dialect.toNat_leftShiftFlag]
  refine m.reckons_putFlagged i _ (g := fun a _ => a <<< 1) fun a _ => ?_
  rw [UInt8.toNat_shiftLeft]
  simp [Nat.shiftLeft_eq]
  omega

theorem putsFlagged_add (m : Machine) (i : Instruction) :
    m.registers.PutsFlagged i.x (decide (255 < m.number i.x + m.number i.y)).toNat
      ((m.number i.x + m.number i.y) % 256) (m.registers.arithmetic m.dialect .add i.x i.y) := by
  rw [← toNat_flagOf]
  apply Registers.putsFlagged_putFlagged
  change ((m.register i.x + m.register i.y).toNat : Int) = _
  rw [UInt8.toNat_add]
  rfl

/-- A word of the arithmetic family works on nothing but the registers, and goes through. -/
theorem execute_of_arithmetic (hfamily : i.selector = 0x8) :
    m.execute i.operation =
      .done { m with registers := (m.execute i.operation).reached.registers } := by
  have hencodes := i.encodes_operation
  cases ho : i.operation with
  | arithmetic f x y => rfl
  | shiftRight x => rfl
  | shiftLeft x => rfl
  | unsupported j => rfl
  | _ =>
    rw [ho] at hencodes
    exact absurd (hfamily.symm.trans hencodes.1) (by decide)

/-- The words of the arithmetic family, in whole numbers. Four of them put a value into their first
register and touch no other. An addition writes the carry besides, and the subtractions and shifts
their flag, before the result, which therefore stays where the flag register is the target. Where a
dialect takes operands again, a subtraction or a shift of the flag register counts the flag in place
of what it held. Any other word of the family changes nothing. -/
theorem arithmetic_in_numbers (hfamily : i.selector = 0x8) :
    ∃ w, m.execute i.operation = .done { m with registers := w } ∧
      (i.n = 0x0 → m.registers.Puts i.x (m.number i.y) w) ∧
      (i.n = 0x1 → m.registers.Puts i.x ↑(m.number i.x ||| m.number i.y) w) ∧
      (i.n = 0x2 → m.registers.Puts i.x ↑(m.number i.x &&& m.number i.y) w) ∧
      (i.n = 0x3 → m.registers.Puts i.x ↑(m.number i.x ^^^ m.number i.y) w) ∧
      (i.n = 0x4 → m.registers.PutsFlagged i.x (decide (255 < m.number i.x + m.number i.y)).toNat
        ((m.number i.x + m.number i.y) % 256) w) ∧
      (i.n = 0x5 → m.Reckons i (m.dialect.differenceFlag (m.number i.x) (m.number i.y))
        (fun a b => (a - b) % 256) w) ∧
      (i.n = 0x6 → m.Reckons i (m.number i.x % 2) (fun a _ => a / 2) w) ∧
      (i.n = 0x7 → m.Reckons i (m.dialect.differenceFlag (m.number i.y) (m.number i.x))
        (fun a b => (b - a) % 256) w) ∧
      (i.n = 0xE → m.Reckons i (m.dialect.doublingFlag (m.number i.x))
        (fun a _ => 2 * a % 256) w) ∧
      (i.n ∉ [0x0, 0x1, 0x2, 0x3, 0x4, 0x5, 0x6, 0x7, 0xE] → w = m.registers) := by
  have hrow {o : Operation} (ho : o.Encodes i) :
      (m.execute i.operation).reached.registers = (m.execute o).reached.registers := by
    rw [Instruction.operation_of_encodes ho]
  refine ⟨_, execute_of_arithmetic hfamily, fun hn => ?_, fun hn => ?_, fun hn => ?_, fun hn => ?_,
    fun hn => ?_, fun hn => ?_, fun hn => ?_, fun hn => ?_, fun hn => ?_, fun hn => ?_⟩
  · rw [hrow (o := .arithmetic .copy i.x i.y) ⟨hfamily, hn, rfl, rfl⟩]
    exact Registers.puts_set _ rfl
  · rw [hrow (o := .arithmetic .or i.x i.y) ⟨hfamily, hn, rfl, rfl⟩]
    exact Registers.puts_set _ (congrArg Nat.cast (UInt8.toNat_or ..))
  · rw [hrow (o := .arithmetic .and i.x i.y) ⟨hfamily, hn, rfl, rfl⟩]
    exact Registers.puts_set _ (congrArg Nat.cast (UInt8.toNat_and ..))
  · rw [hrow (o := .arithmetic .xor i.x i.y) ⟨hfamily, hn, rfl, rfl⟩]
    exact Registers.puts_set _ (congrArg Nat.cast (UInt8.toNat_xor ..))
  · rw [hrow (o := .arithmetic .add i.x i.y) ⟨hfamily, hn, rfl, rfl⟩]
    exact m.putsFlagged_add i
  · rw [hrow (o := .arithmetic .subtract i.x i.y) ⟨hfamily, hn, rfl, rfl⟩]
    exact m.reckons_subtract i
  · rw [hrow (o := .shiftRight i.x) ⟨hfamily, hn, rfl⟩]
    exact m.reckons_shiftRight i
  · rw [hrow (o := .arithmetic .subtractFrom i.x i.y) ⟨hfamily, hn, rfl, rfl⟩]
    exact m.reckons_subtractFrom i
  · rw [hrow (o := .shiftLeft i.x) ⟨hfamily, hn, rfl⟩]
    exact m.reckons_shiftLeft i
  · rw [hrow (o := .unsupported i) ⟨rfl, .inr (.inl ⟨hfamily, hn⟩)⟩]
    rfl

/-- The flag register as the target of a subtraction that takes its operands again: 31 is taken from
the flag, which says that there was no borrow, and the result is what the register holds. -/
theorem arithmetic_in_numbers_flag_operand :
    ∃ m, boot #[0x8F, 0x05] .legacy (.cycling #[]) = .ok m ∧
      ∃ w, ({ m with registers := (Registers.zero.set 0x0 31).set 0xF 62 } : Machine).execute
          (⟨0x8F05⟩ : Instruction).operation = .done { m with registers := w } ∧
        (w.get 0xF).toNat = 225 ∧ (w.get 0x0).toNat = 31 ∧ (w.get 0x1).toNat = 0 := by
  obtain ⟨m, hm⟩ : ∃ m, boot #[0x8F, 0x05] .legacy (.cycling #[]) = .ok m :=
    exists_boot (by decide) _ _
  refine ⟨m, hm, ?_⟩
  obtain ⟨ram, -, rfl⟩ := boot_eq_ok hm
  obtain ⟨w, hdone, -, -, -, -, -, hsubtract, -⟩ :=
    arithmetic_in_numbers (i := ⟨0x8F05⟩) (by decide)
  have hputs := hsubtract (by decide)
  exact ⟨w, hdone, Int.ofNat_inj.1 (hputs 0xF), Int.ofNat_inj.1 (hputs 0x0),
    Int.ofNat_inj.1 (hputs 0x1)⟩

end Machine

end Chip8
