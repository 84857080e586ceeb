import Chip8.Memory.Ram

namespace Chip8

/-- The sixteen general registers. The last one doubles as the flag of some operations. -/
structure Registers where
  bytes : Vector UInt8 16
deriving DecidableEq

namespace Registers

/-- The number of the flag register. -/
def flag : Nibble := 0xF

/-- Registers that all hold zero. -/
def zero : Registers := ⟨Vector.replicate 16 0⟩

/-- The value of a register. -/
def get (v : Registers) (x : Nibble) : UInt8 := v.bytes.get x

/-- Puts a value into a register. -/
def set (v : Registers) (x : Nibble) (b : UInt8) : Registers := ⟨v.bytes.set x b x.isLt⟩

/-- The values in the order of the registers. -/
def toList (v : Registers) : List UInt8 := v.bytes.toList

/-- Loads registers from addresses one after the other, as far as the addresses allow. -/
def loadEach (v : Registers) (r : Ram) : List (Nibble × Nat) → Attempt Registers
  | [] => .done v
  | (x, a) :: rest =>
    match r.read a with
    | .error f => .stopped v f
    | .ok b => (v.set x b).loadEach r rest

theorem get_eq (v : Registers) (x : Nibble) : v.get x = v.bytes[x.val] := rfl

@[simp] theorem get_set_self (v : Registers) (x : Nibble) (b : UInt8) : (v.set x b).get x = b := by
  simp [get_eq, set]

theorem get_set (v : Registers) (x y : Nibble) (b : UInt8) :
    (v.set x b).get y = if x = y then b else v.get y := by
  simp [get_eq, set, Vector.getElem_set, Fin.ext_iff]

theorem ext_get {v w : Registers} (h : ∀ x, v.get x = w.get x) : v = w := by
  obtain ⟨v⟩ := v
  obtain ⟨w⟩ := w
  congr 1
  exact Vector.ext fun i hi => h ⟨i, hi⟩

end Registers

end Chip8
