import Chip8.Instruction.Mnemonic
import Chip8.Proofs.Instruction.Encoding
import Chip8.Proofs.Text.Hex
import Mathlib.Data.List.Basic

namespace Chip8

/-- The word of a two-register operation in assembly text. -/
def Arithmetic.mnemonic : Arithmetic → String
  | copy => "LD"
  | or => "OR"
  | and => "AND"
  | xor => "XOR"
  | add => "ADD"
  | subtract => "SUB"
  | subtractFrom => "SUBN"

/-- An operation as a line of assembly. A word without an operation is shown as data. -/
def Operation.mnemonic : Operation → String
  | clear => "CLS"
  | ret => "RET"
  | jump a => "JP " ++ addressText a
  | call a => "CALL " ++ addressText a
  | skipIfByte x b => "SE " ++ registerName x ++ ", " ++ byteText b
  | skipUnlessByte x b => "SNE " ++ registerName x ++ ", " ++ byteText b
  | skipIfEqual x y => "SE " ++ registerName x ++ ", " ++ registerName y
  | skipUnlessEqual x y => "SNE " ++ registerName x ++ ", " ++ registerName y
  | setByte x b => "LD " ++ registerName x ++ ", " ++ byteText b
  | addByte x b => "ADD " ++ registerName x ++ ", " ++ byteText b
  | arithmetic f x y => f.mnemonic ++ " " ++ registerName x ++ ", " ++ registerName y
  | shiftRight x => "SHR " ++ registerName x
  | shiftLeft x => "SHL " ++ registerName x
  | setIndex a => "LD I, " ++ addressText a
  | jumpOffset a => "JP V0, " ++ addressText a
  | random x b => "RND " ++ registerName x ++ ", " ++ byteText b
  | draw x y height =>
    "DRW " ++ registerName x ++ ", " ++ registerName y ++ ", " ++ Hex.text 1 height.val
  | skipIfKey x => "SKP " ++ registerName x
  | skipUnlessKey x => "SKNP " ++ registerName x
  | readDelay x => "LD " ++ registerName x ++ ", DT"
  | awaitKey x => "LD " ++ registerName x ++ ", K"
  | setDelay x => "LD DT, " ++ registerName x
  | setSound x => "LD ST, " ++ registerName x
  | addIndex x => "ADD I, " ++ registerName x
  | glyph x => "LD F, " ++ registerName x
  | decimal x => "LD B, " ++ registerName x
  | store x => "LD [I], " ++ registerName x
  | load x => "LD " ++ registerName x ++ ", [I]"
  | unsupported i => "DW 0x" ++ Hex.text 4 i.word.toNat

namespace Instruction

/-- A word whose nibbles are not in the table of the instruction set falls through the table of texts
as well, and is shown as data. -/
theorem mnemonic_of_not_supported {i : Instruction} (h : (Operation.unsupported i).Encodes i) :
    i.mnemonic = "DW 0x" ++ Hex.text 4 i.word.toNat := by
  obtain ⟨-, hnibbles⟩ := h
  unfold mnemonic
  -- every row but the last one names nibbles that are ruled out
  split <;> simp_all

/-- The text of a word is that of the operation whose row of the table fits. -/
theorem mnemonic_of_encodes {i : Instruction} {o : Operation} (h : o.Encodes i) :
    i.mnemonic = o.mnemonic := by
  cases o with
  | arithmetic f x y =>
    obtain ⟨hs, hn, rfl, rfl⟩ := h
    cases f <;>
      simp [mnemonic, Operation.mnemonic, Arithmetic.mnemonic, hs, hn, Arithmetic.selector]
  | unsupported j =>
    obtain rfl := h.1
    exact mnemonic_of_not_supported h
  | _ => simp_all [mnemonic, Operation.mnemonic, Operation.Encodes]

/-- The table of texts agrees with the decoder on every word. -/
theorem mnemonic_eq (i : Instruction) : i.mnemonic = i.operation.mnemonic :=
  mnemonic_of_encodes i.encodes_operation

end Instruction

/-- The words with which lines of assembly begin. -/
inductive Keyword
  | cls | ret | jp | call | se | sne | ld | add | or | and | xor | sub | subn | shr | shl | rnd
  | drw | skp | sknp | dw
deriving DecidableEq

namespace Keyword

def letters : Keyword → List Char
  | cls => ['C', 'L', 'S']
  | ret => ['R', 'E', 'T']
  | jp => ['J', 'P']
  | call => ['C', 'A', 'L', 'L']
  | se => ['S', 'E']
  | sne => ['S', 'N', 'E']
  | ld => ['L', 'D']
  | add => ['A', 'D', 'D']
  | or => ['O', 'R']
  | and => ['A', 'N', 'D']
  | xor => ['X', 'O', 'R']
  | sub => ['S', 'U', 'B']
  | subn => ['S', 'U', 'B', 'N']
  | shr => ['S', 'H', 'R']
  | shl => ['S', 'H', 'L']
  | rnd => ['R', 'N', 'D']
  | drw => ['D', 'R', 'W']
  | skp => ['S', 'K', 'P']
  | sknp => ['S', 'K', 'N', 'P']
  | dw => ['D', 'W']

/-- Every keyword. -/
def all : List Keyword :=
  [cls, ret, jp, call, se, sne, ld, add, or, and, xor, sub, subn, shr, shl, rnd, drw, skp, sknp, dw]

theorem find_letters (k : Keyword) : all.find? (·.letters = k.letters) = some k := by
  cases k <;> rfl

theorem letters_injective : Function.Injective letters := by
  intro k l h
  have hk := k.find_letters
  rw [h, l.find_letters] at hk
  exact (Option.some.inj hk).symm

theorem separator_notMem (k : Keyword) : ' ' ∉ k.letters ∧ ',' ∉ k.letters := by
  cases k <;> decide

end Keyword

/-- The words that follow a keyword. A digit is the height of a sprite, or one of the letters that
stand for glyphs and for decimal digits, since these are hexadecimal digits too. -/
inductive Operand
  | register (x : Nibble)
  | byte (b : UInt8)
  | address (a : Address)
  | word (i : Instruction)
  | digit (d : Nibble)
  | index
  | indirect
  | delay
  | sound
  | key

namespace Operand

def letters : Operand → List Char
  | register x => ['V', Hex.digit x]
  | byte b => '0' :: 'x' :: Hex.fixed 2 b.toNat
  | address a => '0' :: 'x' :: Hex.fixed 3 a.val
  | word i => '0' :: 'x' :: Hex.fixed 4 i.word.toNat
  | digit d => [Hex.digit d]
  | index => ['I']
  | indirect => ['[', 'I', ']']
  | delay => ['D', 'T']
  | sound => ['S', 'T']
  | key => ['K']

theorem letters_injective : Function.Injective letters := by
  have hindex (d : Nibble) : Hex.digit d ≠ 'I' := by
    revert d
    decide
  have hkey (d : Nibble) : Hex.digit d ≠ 'K' := by
    revert d
    decide
  intro o p h
  cases o with
  | register x =>
    cases p with
    | register y =>
      have hdigit : Hex.digit x = Hex.digit y := by simpa [letters] using h
      rw [Hex.digit_injective hdigit]
    | _ => simp [letters, Hex.fixed] at h
  | byte b =>
    cases p with
    | byte c =>
      have hdigits : Hex.fixed 2 b.toNat = Hex.fixed 2 c.toNat := by simpa [letters] using h
      rw [UInt8.toNat.inj (Hex.fixed_inj b.toNat_lt c.toNat_lt hdigits)]
    | _ => simp [letters, Hex.fixed] at h
  | address a =>
    cases p with
    | address b =>
      have hdigits : Hex.fixed 3 a.val = Hex.fixed 3 b.val := by simpa [letters] using h
      rw [Fin.ext (Hex.fixed_inj a.isLt b.isLt hdigits)]
    | _ => simp [letters, Hex.fixed] at h
  | word i =>
    cases p with
    | word j =>
      have hdigits : Hex.fixed 4 i.word.toNat = Hex.fixed 4 j.word.toNat := by
        simpa [letters] using h
      have hword := UInt16.toNat.inj (Hex.fixed_inj i.word.toNat_lt j.word.toNat_lt hdigits)
      exact congrArg (fun w => word ⟨w⟩) hword
    | _ => simp [letters, Hex.fixed] at h
  | digit d =>
    cases p with
    | digit e =>
      have hdigit : Hex.digit d = Hex.digit e := by simpa [letters] using h
      rw [Hex.digit_injective hdigit]
    | _ => simp [letters, Hex.fixed, hindex, hkey] at h
  | _ => cases p <;> simp [letters, Hex.fixed, (hindex _).symm, (hkey _).symm] at h ⊢

/-- Operands behind a keyword, with a comma between any two. -/
def spell : List Operand → List Char
  | [] => []
  | [o] => ' ' :: o.letters
  | o :: os => ' ' :: o.letters ++ ',' :: spell os

theorem notMem_letters {c : Char} (hdigit : ∀ d, Hex.digit d ≠ c)
    (hc : c ∉ ['V', '0', 'x', 'I', '[', ']', 'D', 'S', 'T', 'K']) (o : Operand) :
    c ∉ o.letters := by
  have hfixed := Hex.notMem_fixed hdigit
  cases o <;> simp_all [letters, (hdigit _).symm]

theorem separator_notMem (o : Operand) : ' ' ∉ o.letters ∧ ',' ∉ o.letters :=
  ⟨notMem_letters (by decide) (by decide) o, notMem_letters (by decide) (by decide) o⟩

theorem filter_spell_cons (o : Operand) (os : List Operand) :
    (spell (o :: os)).filter (· ≠ ',') = ' ' :: (o.letters ++ spell os).filter (· ≠ ',') := by
  cases os <;> simp [spell]

theorem filter_of_notMem {w : List Char} (hw : ',' ∉ w) : w.filter (· ≠ ',') = w :=
  List.filter_eq_self.2 fun _ hc => decide_eq_true fun h => hw (h ▸ hc)

/-- Without the commas a word and the operands behind it are a row of words. -/
theorem filter_append_spell {w : List Char} (hw : ',' ∉ w) (os : List Operand) :
    (w ++ spell os).filter (· ≠ ',') = [' '].intercalate (w :: os.map letters) := by
  induction os generalizing w with
  | nil =>
    rw [spell, List.append_nil, filter_of_notMem hw, List.map_nil, List.intercalate_singleton]
  | cons o os ih =>
    rw [List.filter_append, filter_of_notMem hw, filter_spell_cons, ih o.separator_notMem.2,
      List.map_cons, List.intercalate_cons_cons, List.append_assoc, List.singleton_append]

end Operand

/-- The keyword of a two-register operation. -/
def Arithmetic.keyword : Arithmetic → Keyword
  | copy => .ld
  | or => .or
  | and => .and
  | xor => .xor
  | add => .add
  | subtract => .sub
  | subtractFrom => .subn

namespace Operation

def keyword : Operation → Keyword
  | clear => .cls
  | ret => .ret
  | jump _ | jumpOffset _ => .jp
  | call _ => .call
  | skipIfByte .. | skipIfEqual .. => .se
  | skipUnlessByte .. | skipUnlessEqual .. => .sne
  | setByte .. | setIndex _ | readDelay _ | awaitKey _ | setDelay _ | setSound _ | glyph _
  | decimal _ | store _ | load _ => .ld
  | addByte .. | addIndex _ => .add
  | arithmetic f _ _ => f.keyword
  | shiftRight _ => .shr
  | shiftLeft _ => .shl
  | random .. => .rnd
  | draw .. => .drw
  | skipIfKey _ => .skp
  | skipUnlessKey _ => .sknp
  | unsupported _ => .dw

def operands : Operation → List Operand
  | clear | ret => []
  | jump a | call a => [.address a]
  | skipIfByte x b | skipUnlessByte x b | setByte x b | addByte x b | random x b =>
    [.register x, .byte b]
  | skipIfEqual x y | skipUnlessEqual x y | arithmetic _ x y => [.register x, .register y]
  | shiftRight x | shiftLeft x | skipIfKey x | skipUnlessKey x => [.register x]
  | setIndex a => [.index, .address a]
  | jumpOffset a => [.register 0, .address a]
  | draw x y height => [.register x, .register y, .digit height]
  | readDelay x => [.register x, .delay]
  | awaitKey x => [.register x, .key]
  | setDelay x => [.delay, .register x]
  | setSound x => [.sound, .register x]
  | addIndex x => [.index, .register x]
  | glyph x => [.digit 0xF, .register x]
  | decimal x => [.digit 0xB, .register x]
  | store x => [.indirect, .register x]
  | load x => [.register x, .indirect]
  | unsupported i => [.word i]

/-- The operation that a keyword and its operands stand for. -/
def ofParts? : Keyword → List Operand → Option Operation
  | .cls, [] => some clear
  | .ret, [] => some ret
  | .jp, [.address a] => some (jump a)
  | .jp, [.register _, .address a] => some (jumpOffset a)
  | .call, [.address a] => some (call a)
  | .se, [.register x, .byte b] => some (skipIfByte x b)
  | .se, [.register x, .register y] => some (skipIfEqual x y)
  | .sne, [.register x, .byte b] => some (skipUnlessByte x b)
  | .sne, [.register x, .register y] => some (skipUnlessEqual x y)
  | .ld, [.register x, .byte b] => some (setByte x b)
  | .ld, [.register x, .register y] => some (arithmetic .copy x y)
  | .ld, [.index, .address a] => some (setIndex a)
  | .ld, [.register x, .delay] => some (readDelay x)
  | .ld, [.register x, .key] => some (awaitKey x)
  | .ld, [.delay, .register x] => some (setDelay x)
  | .ld, [.sound, .register x] => some (setSound x)
  | .ld, [.digit 0xF, .register x] => some (glyph x)
  | .ld, [.digit 0xB, .register x] => some (decimal x)
  | .ld, [.indirect, .register x] => some (store x)
  | .ld, [.register x, .indirect] => some (load x)
  | .add, [.register x, .byte b] => some (addByte x b)
  | .add, [.register x, .register y] => some (arithmetic .add x y)
  | .add, [.index, .register x] => some (addIndex x)
  | .or, [.register x, .register y] => some (arithmetic .or x y)
  | .and, [.register x, .register y] => some (arithmetic .and x y)
  | .xor, [.register x, .register y] => some (arithmetic .xor x y)
  | .sub, [.register x, .register y] => some (arithmetic .subtract x y)
  | .subn, [.register x, .register y] => some (arithmetic .subtractFrom x y)
  | .shr, [.register x] => some (shiftRight x)
  | .shl, [.register x] => some (shiftLeft x)
  | .rnd, [.register x, .byte b] => some (random x b)
  | .drw, [.register x, .register y, .digit height] => some (draw x y height)
  | .skp, [.register x] => some (skipIfKey x)
  | .sknp, [.register x] => some (skipUnlessKey x)
  | .dw, [.word i] => some (unsupported i)
  | _, _ => none

theorem ofParts?_parts (o : Operation) : ofParts? o.keyword o.operands = some o := by
  cases o with
  | arithmetic f x y => cases f <;> rfl
  | _ => rfl

theorem toList_registerName (x : Nibble) :
    (registerName x).toList = (Operand.register x).letters := by
  have htext : (Hex.text 1 x.val).toList = Hex.fixed 1 x.val := Hex.toList_text_of_lt x.isLt
  simp [registerName, htext, Operand.letters, Hex.fixed, Nibble.ofLowBits]

theorem toList_byteText (b : UInt8) : (byteText b).toList = (Operand.byte b).letters := by
  have htext : (Hex.text 2 b.toNat).toList = Hex.fixed 2 b.toNat :=
    Hex.toList_text_of_lt b.toNat_lt
  simp [byteText, htext, Operand.letters]

theorem toList_addressText (a : Address) :
    (addressText a).toList = (Operand.address a).letters := by
  have htext : (Hex.text 3 a.val).toList = Hex.fixed 3 a.val := Hex.toList_text_of_lt a.isLt
  simp [addressText, htext, Operand.letters]

theorem toList_height (height : Nibble) :
    (Hex.text 1 height.val).toList = (Operand.digit height).letters := by
  have htext : (Hex.text 1 height.val).toList = Hex.fixed 1 height.val :=
    Hex.toList_text_of_lt height.isLt
  simp [htext, Operand.letters, Hex.fixed, Nibble.ofLowBits]

theorem toList_word (i : Instruction) :
    '0' :: 'x' :: (Hex.text 4 i.word.toNat).toList = (Operand.word i).letters := by
  have htext : (Hex.text 4 i.word.toNat).toList = Hex.fixed 4 i.word.toNat :=
    Hex.toList_text_of_lt i.word.toNat_lt
  rw [htext]
  rfl

/-- A line of assembly is a keyword and its operands. -/
theorem toList_mnemonic (o : Operation) :
    o.mnemonic.toList = o.keyword.letters ++ Operand.spell o.operands := by
  cases o with
  | arithmetic f x y =>
    cases f <;>
      simp [mnemonic, Arithmetic.mnemonic, keyword, Arithmetic.keyword, Keyword.letters, operands,
        Operand.spell, toList_registerName]
  | _ =>
    simp [-Hex.toList_text, mnemonic, keyword, Keyword.letters, operands, Operand.spell,
      toList_registerName, toList_byteText, toList_addressText, toList_height, ← toList_word] <;> rfl

/-- The words of a line of assembly are read off its text. -/
theorem splitOn_mnemonic (o : Operation) :
    (o.mnemonic.toList.filter (· ≠ ',')).splitOn ' ' =
      o.keyword.letters :: o.operands.map Operand.letters := by
  rw [toList_mnemonic, Operand.filter_append_spell o.keyword.separator_notMem.2]
  refine List.splitOn_intercalate _ (fun w hw => ?_) (List.cons_ne_nil _ _)
  obtain rfl | hw := List.mem_cons.1 hw
  · exact o.keyword.separator_notMem.1
  · obtain ⟨p, -, rfl⟩ := List.mem_map.1 hw
    exact p.separator_notMem.1

/-- A line of assembly tells the operation that it stands for. -/
theorem mnemonic_injective : Function.Injective mnemonic := by
  intro o p h
  -- equal lines have equal words, and these give the keyword and the operands back
  have hwords := o.splitOn_mnemonic
  rw [h, splitOn_mnemonic] at hwords
  obtain ⟨hletters, hlist⟩ := List.cons.inj hwords
  have hkeyword := Keyword.letters_injective hletters
  have hoperands := List.map_injective_iff.2 Operand.letters_injective hlist
  have hparts := o.ofParts?_parts
  rw [← hkeyword, ← hoperands, ofParts?_parts] at hparts
  exact (Option.some.inj hparts).symm

end Operation

/-- Words with one text stand for one operation. -/
theorem Instruction.operation_eq_of_mnemonic {i j : Instruction} (h : i.mnemonic = j.mnemonic) :
    i.operation = j.operation := by
  rw [mnemonic_eq, mnemonic_eq] at h
  exact Operation.mnemonic_injective h

end Chip8
