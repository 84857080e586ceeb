import Chip8.Instruction.Operation

namespace Chip8

/-- The first nibble of the words of a family. -/
def Family.selector : Family → Nibble
  | .system => 0x0
  | .jump => 0x1
  | .call => 0x2
  | .skipIfByte => 0x3
  | .skipUnlessByte => 0x4
  | .skipIfEqual => 0x5
  | .setByte => 0x6
  | .addByte => 0x7
  | .arithmetic => 0x8
  | .skipUnlessEqual => 0x9
  | .setIndex => 0xA
  | .jumpOffset => 0xB
  | .random => 0xC
  | .draw => 0xD
  | .keypad => 0xE
  | .peripheral => 0xF

theorem Family.selector_ofNibble (d : Nibble) : (ofNibble d).selector = d := by
  revert d
  decide

theorem Family.ofNibble_selector (f : Family) : ofNibble f.selector = f := by
  cases f <;> rfl

theorem Instruction.selector_of_family {i : Instruction} {f : Family} (h : i.family = f) :
    i.selector = f.selector := by
  rw [← h, family, Family.selector_ofNibble]

theorem Instruction.family_of_selector {i : Instruction} {f : Family}
    (h : i.selector = f.selector) : i.family = f := by
  rw [family, h, Family.ofNibble_selector]

/-- The last nibble of the words of a two-register operation. -/
def Arithmetic.selector : Arithmetic → Nibble
  | .copy => 0x0
  | .or => 0x1
  | .and => 0x2
  | .xor => 0x3
  | .add => 0x4
  | .subtract => 0x5
  | .subtractFrom => 0x7

namespace Operation

/-- Whether a word stands for an operation, read off its nibbles. This is the table of the
instruction set; decoding goes the other way. -/
def Encodes (i : Instruction) : Operation → Prop
  | clear => i.selector = 0x0 ∧ i.n = 0x0
  | ret => i.selector = 0x0 ∧ i.n = 0xE
  | jump a => i.selector = 0x1 ∧ a = i.address
  | call a => i.selector = 0x2 ∧ a = i.address
  | skipIfByte x b => i.selector = 0x3 ∧ x = i.x ∧ b = i.immediate
  | skipUnlessByte x b => i.selector = 0x4 ∧ x = i.x ∧ b = i.immediate
  | skipIfEqual x y => i.selector = 0x5 ∧ x = i.x ∧ y = i.y
  | setByte x b => i.selector = 0x6 ∧ x = i.x ∧ b = i.immediate
  | addByte x b => i.selector = 0x7 ∧ x = i.x ∧ b = i.immediate
  | arithmetic f x y => i.selector = 0x8 ∧ i.n = f.selector ∧ x = i.x ∧ y = i.y
  | shiftRight x => i.selector = 0x8 ∧ i.n = 0x6 ∧ x = i.x
  | shiftLeft x => i.selector = 0x8 ∧ i.n = 0xE ∧ x = i.x
  | skipUnlessEqual x y => i.selector = 0x9 ∧ x = i.x ∧ y = i.y
  | setIndex a => i.selector = 0xA ∧ a = i.address
  | jumpOffset a => i.selector = 0xB ∧ a = i.address
  | random x b => i.selector = 0xC ∧ x = i.x ∧ b = i.immediate
  | draw x y height => i.selector = 0xD ∧ x = i.x ∧ y = i.y ∧ height = i.n
  | skipIfKey x => i.selector = 0xE ∧ i.immediate = 0x9E ∧ x = i.x
  | skipUnlessKey x => i.selector = 0xE ∧ i.immediate = 0xA1 ∧ x = i.x
  | readDelay x => i.selector = 0xF ∧ i.immediate = 0x07 ∧ x = i.x
  | awaitKey x => i.selector = 0xF ∧ i.immediate = 0x0A ∧ x = i.x
  | setDelay x => i.selector = 0xF ∧ i.immediate = 0x15 ∧ x = i.x
  | setSound x => i.selector = 0xF ∧ i.immediate = 0x18 ∧ x = i.x
  | addIndex x => i.selector = 0xF ∧ i.immediate = 0x1E ∧ x = i.x
  | glyph x => i.selector = 0xF ∧ i.immediate = 0x29 ∧ x = i.x
  | decimal x => i.selector = 0xF ∧ i.immediate = 0x33 ∧ x = i.x
  | store x => i.selector = 0xF ∧ i.immediate = 0x55 ∧ x = i.x
  | load x => i.selector = 0xF ∧ i.immediate = 0x65 ∧ x = i.x
  | unsupported j => j = i ∧
      (i.selector = 0x0 ∧ i.n ∉ [0x0, 0xE] ∨
       i.selector = 0x8 ∧ i.n ∉ [0x0, 0x1, 0x2, 0x3, 0x4, 0x5, 0x6, 0x7, 0xE] ∨
       i.selector = 0xE ∧ i.immediate ∉ [0x9E, 0xA1] ∨
       i.selector = 0xF ∧
         i.immediate ∉ [0x07, 0x0A, 0x15, 0x18, 0x1E, 0x29, 0x33, 0x55, 0x65])

end Operation

namespace Instruction

theorem encodes_operation (i : Instruction) : i.operation.Encodes i := by
  unfold operation
  split <;> rename_i h <;> have hs := selector_of_family h <;> simp only [Family.selector] at hs
  · split <;> simp_all [Operation.Encodes]
  · simp [Operation.Encodes, hs]
  · simp [Operation.Encodes, hs]
  · simp [Operation.Encodes, hs]
  · simp [Operation.Encodes, hs]
  · simp [Operation.Encodes, hs]
  · simp [Operation.Encodes, hs]
  · simp [Operation.Encodes, hs]
  · unfold arithmeticOperation
    split <;> simp_all [Operation.Encodes, Arithmetic.selector]
  · simp [Operation.Encodes, hs]
  · simp [Operation.Encodes, hs]
  · simp [Operation.Encodes, hs]
  · simp [Operation.Encodes, hs]
  · simp [Operation.Encodes, hs]
  · split <;> simp_all [Operation.Encodes]
  · unfold peripheralOperation
    split <;> simp_all [Operation.Encodes]

/-- A word whose nibbles are not in the table is left unsupported, in each of the four families
that have such words. -/
theorem operation_of_not_supported {i : Instruction} (h : (Operation.unsupported i).Encodes i) :
    i.operation = .unsupported i := by
  obtain ⟨-, ⟨hs, hn⟩ | ⟨hs, hn⟩ | ⟨hs, hn⟩ | ⟨hs, hn⟩⟩ := h
  · have hf : i.family = .system := family_of_selector hs
    simp only [List.mem_cons, List.not_mem_nil, or_false, not_or] at hn
    simp only [operation, hf]
    split <;> simp_all
  · have hf : i.family = .arithmetic := family_of_selector hs
    simp only [List.mem_cons, List.not_mem_nil, or_false, not_or] at hn
    simp only [operation, hf, arithmeticOperation]
    split <;> simp_all
  · have hf : i.family = .keypad := family_of_selector hs
    simp only [List.mem_cons, List.not_mem_nil, or_false, not_or] at hn
    simp only [operation, hf]
    split <;> simp_all
  · have hf : i.family = .peripheral := family_of_selector hs
    simp only [List.mem_cons, List.not_mem_nil, or_false, not_or] at hn
    simp only [operation, hf, peripheralOperation]
    split <;> simp_all

theorem operation_of_encodes {i : Instruction} {o : Operation} (h : o.Encodes i) :
    i.operation = o := by
  have hf (f : Family) (hs : i.selector = f.selector) : i.family = f := family_of_selector hs
  cases o with
  | clear => simp [operation, hf .system h.1, h.2]
  | ret => simp [operation, hf .system h.1, h.2]
  | jump a => simp [operation, hf .jump h.1, h.2]
  | call a => simp [operation, hf .call h.1, h.2]
  | skipIfByte x b => simp [operation, hf .skipIfByte h.1, h.2]
  | skipUnlessByte x b => simp [operation, hf .skipUnlessByte h.1, h.2]
  | skipIfEqual x y => simp [operation, hf .skipIfEqual h.1, h.2]
  | setByte x b => simp [operation, hf .setByte h.1, h.2]
  | addByte x b => simp [operation, hf .addByte h.1, h.2]
  | arithmetic f x y =>
    obtain ⟨hs, hn, rfl, rfl⟩ := h
    cases f <;> simp [operation, hf .arithmetic hs, arithmeticOperation, hn, Arithmetic.selector]
  | shiftRight x => simp [operation, hf .arithmetic h.1, arithmeticOperation, h.2]
  | shiftLeft x => simp [operation, hf .arithmetic h.1, arithmeticOperation, h.2]
  | skipUnlessEqual x y => simp [operation, hf .skipUnlessEqual h.1, h.2]
  | setIndex a => simp [operation, hf .setIndex h.1, h.2]
  | jumpOffset a => simp [operation, hf .jumpOffset h.1, h.2]
  | random x b => simp [operation, hf .random h.1, h.2]
  | draw x y height => simp [operation, hf .draw h.1, h.2]
  | skipIfKey x => simp [operation, hf .keypad h.1, h.2]
  | skipUnlessKey x => simp [operation, hf .keypad h.1, h.2]
  | readDelay x => simp [operation, hf .peripheral h.1, peripheralOperation, h.2]
  | awaitKey x => simp [operation, hf .peripheral h.1, peripheralOperation, h.2]
  | setDelay x => simp [operation, hf .peripheral h.1, peripheralOperation, h.2]
  | setSound x => simp [operation, hf .peripheral h.1, peripheralOperation, h.2]
  | addIndex x => simp [operation, hf .peripheral h.1, peripheralOperation, h.2]
  | glyph x => simp [operation, hf .peripheral h.1, peripheralOperation, h.2]
  | decimal x => simp [operation, hf .peripheral h.1, peripheralOperation, h.2]
  | store x => simp [operation, hf .peripheral h.1, peripheralOperation, h.2]
  | load x => simp [operation, hf .peripheral h.1, peripheralOperation, h.2]
  | unsupported j =>
    obtain rfl := h.1
    exact operation_of_not_supported h

/-- Decoding finds exactly the operation whose row of the table fits. -/
theorem operation_eq_iff {i : Instruction} {o : Operation} : i.operation = o ↔ o.Encodes i :=
  ⟨fun h => h ▸ i.encodes_operation, operation_of_encodes⟩

end Instruction

end Chip8
