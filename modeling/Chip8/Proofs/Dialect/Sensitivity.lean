import Chip8.Dialect
import Chip8.Memory.Registers
import Chip8.Proofs.Instruction.Encoding

namespace Chip8

/-- The switches of a dialect. -/
inductive Switch
  | flagsBorrow
  | flagsUpperBits
  | stacksDigits
  | glyphThroughMemory
  | transfersExclusive
  | flagBeforeOperands
deriving DecidableEq

/-- How a dialect sets a switch. -/
def Dialect.setting (d : Dialect) : Switch → Bool
  | .flagsBorrow => d.flagsBorrow
  | .flagsUpperBits => d.flagsUpperBits
  | .stacksDigits => d.stacksDigits
  | .glyphThroughMemory => d.glyphThroughMemory
  | .transfersExclusive => d.transfersExclusive
  | .flagBeforeOperands => d.flagBeforeOperands

/-- The words that a switch may bear on, by their nibbles. -/
def Instruction.Sensitive (i : Instruction) : Switch → Prop
  | .flagsBorrow => i.selector = 0x8 ∧ (i.n = 0x5 ∨ i.n = 0x7)
  | .flagsUpperBits => i.selector = 0x8 ∧ i.n = 0xE
  | .stacksDigits => i.selector = 0xF ∧ i.immediate = 0x33
  | .glyphThroughMemory => i.selector = 0xF ∧ i.immediate = 0x29
  | .transfersExclusive => i.selector = 0xF ∧ (i.immediate = 0x55 ∨ i.immediate = 0x65)
  | .flagBeforeOperands =>
    i.selector = 0x8 ∧ (i.n = 0x5 ∨ i.n = 0x7) ∧ (i.x = 0xF ∨ i.y = 0xF) ∨
      i.selector = 0x8 ∧ (i.n = 0x6 ∨ i.n = 0xE) ∧ i.x = 0xF ∨
      i.selector = 0xD ∧ (i.x = 0xF ∨ i.y = 0xF)

namespace Operation

/-- The operations that a switch may bear on. -/
def Sensitive : Operation → Switch → Prop
  | arithmetic .subtract x y, w | arithmetic .subtractFrom x y, w =>
    w = .flagsBorrow ∨ w = .flagBeforeOperands ∧ (x = Registers.flag ∨ y = Registers.flag)
  | shiftRight x, w => w = .flagBeforeOperands ∧ x = Registers.flag
  | shiftLeft x, w => w = .flagsUpperBits ∨ w = .flagBeforeOperands ∧ x = Registers.flag
  | draw x y _, w => w = .flagBeforeOperands ∧ (x = Registers.flag ∨ y = Registers.flag)
  | glyph _, w => w = .glyphThroughMemory
  | decimal _, w => w = .stacksDigits
  | store _, w | load _, w => w = .transfersExclusive
  | _, _ => False

end Operation

theorem Operation.Encodes.sensitive {i : Instruction} {o : Operation} {w : Switch}
    (hi : o.Encodes i) (h : o.Sensitive w) : i.Sensitive w := by
  cases o with
  | arithmetic f x y =>
    obtain ⟨hs, hn, rfl, rfl⟩ := hi
    cases f <;> simp only [Operation.Sensitive] at h
    · obtain rfl | ⟨rfl, hxy⟩ := h
      · exact ⟨hs, .inl hn⟩
      · exact .inl ⟨hs, .inl hn, hxy⟩
    · obtain rfl | ⟨rfl, hxy⟩ := h
      · exact ⟨hs, .inr hn⟩
      · exact .inl ⟨hs, .inr hn, hxy⟩
  | shiftRight x =>
    obtain ⟨hs, hn, rfl⟩ := hi
    obtain ⟨rfl, hx⟩ := h
    exact .inr (.inl ⟨hs, .inl hn, hx⟩)
  | shiftLeft x =>
    obtain ⟨hs, hn, rfl⟩ := hi
    obtain rfl | ⟨rfl, hx⟩ := h
    · exact ⟨hs, hn⟩
    · exact .inr (.inl ⟨hs, .inr hn, hx⟩)
  | draw x y height =>
    obtain ⟨hs, rfl, rfl, -⟩ := hi
    obtain ⟨rfl, hxy⟩ := h
    exact .inr (.inr ⟨hs, hxy⟩)
  | glyph x =>
    obtain rfl := h
    exact ⟨hi.1, hi.2.1⟩
  | decimal x =>
    obtain rfl := h
    exact ⟨hi.1, hi.2.1⟩
  | store x =>
    obtain rfl := h
    exact ⟨hi.1, .inl hi.2.1⟩
  | load x =>
    obtain rfl := h
    exact ⟨hi.1, .inr hi.2.1⟩
  | _ => exact h.elim

end Chip8
