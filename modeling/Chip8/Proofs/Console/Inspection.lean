import Chip8.Proofs.Console.Reading
import Chip8.Proofs.Instruction.Assembly
import Chip8.Proofs.Machine.Boot
import Chip8.Proofs.Text.Numeral

namespace Chip8

-- Powers of natural numbers are the built-in ones, whatever else is in scope.
attribute [local instance (high)] instPowNat

/-- The words of operands, with the commas behind them. -/
def Operand.spelled : List Operand → List (List Char)
  | [] => []
  | [o] => [o.letters]
  | o :: os => (o.letters ++ [',']) :: spelled os

theorem Operand.solid_of_mem_spelled {os : List Operand} {v : List Char} (h : v ∈ spelled os) :
    v ≠ [] ∧ ' ' ∉ v := by
  have hletters (o : Operand) : o.letters ≠ [] := by
    cases o <;> exact List.cons_ne_nil _ _
  induction os using spelled.induct with
  | case1 => exact absurd h List.not_mem_nil
  | case2 o =>
    rw [spelled, List.mem_singleton] at h
    exact h ▸ ⟨hletters o, o.separator_notMem.1⟩
  | case3 o os hos ih =>
    rw [spelled, List.mem_cons] at h
    · obtain rfl | h := h
      · simp [o.separator_notMem.1]
      · exact ih h
    · exact hos

theorem Operand.append_spell (v : List Char) (os : List Operand) :
    v ++ spell os = [' '].intercalate (v :: spelled os) := by
  induction os using spelled.induct generalizing v with
  | case1 => simp [spell, spelled]
  | case2 o => simp [spell, spelled, List.intercalate_cons_cons]
  | case3 o os hos ih =>
    have htail := ih (o.letters ++ [','])
    rw [spelled, List.intercalate_cons_cons, ← htail, spell]
    · simp
    all_goals exact hos

namespace Operation

theorem length_mnemonic_le (o : Operation) : o.mnemonic.toList.length ≤ 17 := by
  rw [toList_mnemonic]
  cases o with
  | arithmetic f x y =>
    cases f <;>
      simp [keyword, Arithmetic.keyword, Keyword.letters, operands, Operand.spell, Operand.letters]
  | _ => simp [keyword, Keyword.letters, operands, Operand.spell, Operand.letters]

/-- A line of assembly has single blanks, and none at its ends. -/
theorem intercalate_words_mnemonic (o : Operation) :
    [' '].intercalate (words o.mnemonic.toList) = o.mnemonic.toList := by
  rw [toList_mnemonic, Operand.append_spell, words_intercalate]
  intro v hv
  obtain rfl | hv := List.mem_cons.1 hv
  · refine ⟨?_, o.keyword.separator_notMem.1⟩
    cases o.keyword <;> exact List.cons_ne_nil _ _
  · exact Operand.solid_of_mem_spelled hv

end Operation

/-- What a line says. -/
def Line.letters (line : Line) : List Char := line.flatMap Piece.glyph

theorem Line.letters_ofText (s : String) (colour : Option Colour) :
    (ofText s colour).letters = s.toList := by
  rw [letters, ofText, List.flatMap_map]
  exact List.flatMap_singleton' s.toList

theorem Line.length_cells_ofText (s : String) (colour : Option Colour) :
    (ofText s colour).cells.length = s.toList.length := by
  rw [cells, ofText, List.flatMap_map, List.length_flatMap]
  simp

/-- Whether the lines of a panel are texts that there is room for. -/
structure Panel.Holds (p : Panel) (texts : List String) : Prop where
  exists_lines_eq : ∃ colour, p.lines = texts.map (Line.ofText · colour)
  length_texts_le : texts.length ≤ p.innerHeight
  length_le : ∀ s ∈ texts, s.toList.length ≤ p.innerWidth

namespace Panel.Holds

variable {p : Panel} {texts : List String}

theorem exists_line (hp : p.Holds texts) (j : Nat) :
    ∃ colour, p.lines.getD j [] = Line.ofText (texts.getD j "") colour := by
  obtain ⟨colour, hlines⟩ := hp.exists_lines_eq
  refine ⟨colour, ?_⟩
  rw [hlines, List.getD_eq_getElem?_getD, List.getD_eq_getElem?_getD, List.getElem?_map]
  cases texts[j]? <;> rfl

theorem length_getD_le (hp : p.Holds texts) (j : Nat) :
    (texts.getD j "").toList.length ≤ p.innerWidth := by
  rw [List.getD_eq_getElem?_getD]
  cases htext : texts[j]? with
  | none => exact Nat.zero_le _
  | some s => exact hp.length_le s (List.mem_of_getElem? htext)

end Panel.Holds

/-- What is read off a frame about the machine behind it. -/
@[ext]
structure Readout where
  pc : Option Nat
  index : Option Nat
  delay : Option Nat
  register : Nibble → Option Nat
  word : Option Nat
  mnemonic : List Char

/-- Reads the rows of the panels at the right. -/
def Frame.readout (f : Frame) : Readout :=
  let registers : Rect := ⟨f.width - 19, 3, 19, 13⟩
  let instruction : Rect := ⟨f.width - 19, 16, 19, 4⟩
  { pc := f.number? registers 0 1
    index := f.number? registers 0 3
    delay := f.number? registers 1 1
    register := fun x => f.number? registers (3 + x.val % 8) (1 + 2 * (x.val / 8))
    word := f.number? instruction 0 0
    mnemonic := f.rowLine instruction 1 }

theorem Frame.number?_of_rowWords {f : Frame} {area : Rect} {ws : List (List Char)}
    {j k width n : Nat} (hwords : f.rowWords area j = ws)
    (hword : ws[k]? = some (Hex.text width n).toList) (hwidth : 0 < width) :
    f.number? area j k = some n := by
  rw [number?, hwords, hword]
  exact CommandLine.readNumber?_text hwidth n

/-- What there is to be read off about a machine. -/
def Machine.readout (m : Machine) : Readout :=
  { pc := some m.pc.toNat
    index := some m.index.toNat
    delay := some m.delay.toNat
    register := fun x => some (m.register x).toNat
    word := m.last.map (·.word.toNat)
    mnemonic := (m.last.map (·.mnemonic.toList)).getD [] }

namespace Console

variable {c : Console} {w h j : Nat} {p : Panel} {texts : List String}

/-- A name, a colon and a number. -/
def entry (name : List Char) (width n : Nat) : List Char :=
  name ++ ':' :: ' ' :: (Hex.text width n).toList

theorem words_text {width : Nat} (hwidth : 0 < width) (n : Nat) :
    words (Hex.text width n).toList = [(Hex.text width n).toList] := by
  rw [Hex.toList_text]
  refine words_of_notMem ?_ (Hex.notMem_fixed (by decide) _ _)
  rw [← List.length_pos_iff, Hex.length_fixed]
  exact Nat.lt_of_lt_of_le hwidth (Nat.le_max_left ..)

theorem words_entry {name : List Char} (hname : ' ' ∉ name) {width : Nat} (hwidth : 0 < width)
    (n : Nat) : words (entry name width n) = [name ++ [':'], (Hex.text width n).toList] := by
  have hlabel : ' ' ∉ name ++ [':'] := by simp [hname]
  rw [entry, List.append_cons, words_append_blank, words_text hwidth,
    words_of_notMem (List.concat_ne_nil _ _) hlabel]
  rfl

theorem length_entry_le (name : List Char) (width room : Nat) {n : Nat} (hwidth : width ≤ room + 1)
    (h : n < 16 ^ (room + 1)) : (entry name width n).length ≤ name.length + room + 3 := by
  have hnumber := Hex.length_text_le width room hwidth h
  simp only [entry, List.length_append, List.length_cons]
  omega

/-- The first line has the program counter and the index. -/
theorem toList_firstLine (m : Machine) :
    ("PC: " ++ Hex.text 3 m.pc.toNat ++ "  I: " ++ Hex.text 3 m.index.toNat).toList =
      entry ['P', 'C'] 3 m.pc.toNat ++ ' ' :: ' ' :: entry ['I'] 3 m.index.toNat := by
  simp [entry, -Hex.toList_text]

theorem toList_timerLine (m : Machine) :
    ("DT: " ++ Hex.text 2 m.delay.toNat).toList = entry ['D', 'T'] 2 m.delay.toNat := by
  simp [entry, -Hex.toList_text]

theorem toList_registerLine (m : Machine) (j : Fin 8) :
    (registerLine m j).toList =
      entry (Operand.register (j.castLE (by decide))).letters 2
          (m.register (j.castLE (by decide))).toNat ++
        ' ' :: ' ' :: ' ' :: entry (Operand.register (j.natAdd 8)).letters 2
          (m.register (j.natAdd 8)).toNat := by
  simp [registerLine, entry, Operation.toList_registerName, -Hex.toList_text]

theorem length_stateText_le (c : Console) : c.stateText.1.toList.length ≤ 17 := by
  unfold stateText
  split
  · decide
  · split <;> decide

/-- The first line just fits if both addresses take four digits. -/
theorem length_registerLines_le {m : Machine} {s : String} (hs : s ∈ registerLines m) :
    s.toList.length ≤ 17 := by
  rw [registerLines, List.mem_append, List.mem_map] at hs
  obtain hs | ⟨j, -, rfl⟩ := hs
  · simp only [List.mem_cons, List.not_mem_nil, or_false] at hs
    obtain rfl | rfl | rfl := hs
    · have hpc := length_entry_le ['P', 'C'] 3 3 (by decide) m.pc.toNat_lt
      have hindex := length_entry_le ['I'] 3 3 (by decide) m.index.toNat_lt
      rw [toList_firstLine]
      simp only [List.length_append, List.length_cons, List.length_nil] at hpc hindex ⊢
      omega
    · have hdelay := length_entry_le ['D', 'T'] 2 1 (by decide) m.delay.toNat_lt
      rw [toList_timerLine]
      exact Nat.le_trans hdelay (by decide)
    · exact Nat.zero_le 17
  · have hlength (x : Nibble) :
        (entry (Operand.register x).letters 2 (m.register x).toNat).length ≤ 6 :=
      length_entry_le _ 2 1 (by decide) (m.register x).toNat_lt
    have hlow := hlength (j.castLE (by decide))
    have hhigh := hlength (j.natAdd 8)
    rw [toList_registerLine]
    simp only [List.length_append, List.length_cons]
    omega

theorem length_instructionLines_le {m : Machine} {s : String} (hs : s ∈ instructionLines m) :
    s.toList.length ≤ 17 := by
  unfold instructionLines at hs
  split at hs
  · next i _ =>
    rw [List.mem_pair] at hs
    obtain rfl | rfl := hs
    · exact Nat.le_trans (Hex.length_text_le 4 3 (by decide) i.word.toNat_lt) (by decide)
    · rw [i.mnemonic_eq]
      exact i.operation.length_mnemonic_le
  · rw [List.mem_singleton.1 hs]
    decide

theorem length_keyText_le (c : Console) : c.keyText.toList.length ≤ 17 := by
  unfold keyText
  split
  · next press _ =>
    exact Nat.le_trans (Hex.length_text_le 1 0 (by decide) press.key.isLt) (by decide)
  · decide

theorem holds_statePanel (c : Console) (w : Nat) :
    (c.statePanel ⟨w - 19, 0, 19, 3⟩).Holds [c.stateText.1] where
  exists_lines_eq := ⟨_, rfl⟩
  length_texts_le := Nat.le_refl 1
  length_le _ hs := List.mem_singleton.1 hs ▸ c.length_stateText_le

theorem holds_registersPanel (c : Console) (w : Nat) :
    (c.registersPanel ⟨w - 19, 3, 19, 13⟩).Holds (registerLines c.machine) where
  exists_lines_eq := ⟨none, rfl⟩
  length_texts_le := Nat.le_refl 11
  length_le _ hs := length_registerLines_le hs

theorem holds_instructionPanel (c : Console) (w : Nat) :
    (c.instructionPanel ⟨w - 19, 16, 19, 4⟩).Holds (instructionLines c.machine) where
  exists_lines_eq := ⟨none, rfl⟩
  length_texts_le := by
    unfold instructionLines
    split
    · exact Nat.le_refl 2
    · exact Nat.le_succ 1
  length_le _ hs := length_instructionLines_le hs

theorem holds_keyPanel (c : Console) (w : Nat) (hh : 37 ≤ h) :
    (c.keyPanel ⟨w - 19, 20, 19, h - 20⟩).Holds [c.keyText] where
  exists_lines_eq := ⟨none, rfl⟩
  length_texts_le := by
    change 1 ≤ h - 20 - 2
    omega
  length_le _ hs := List.mem_singleton.1 hs ▸ c.length_keyText_le

/-- The panels at the right hold texts that there is room for. -/
theorem exists_holds (c : Console) (w : Nat) (hh : 37 ≤ h) (hp : p ∈ (c.panels w h).drop 2) :
    p.innerWidth = 17 ∧ ∃ texts, p.Holds texts := by
  have hside : (c.panels w h).drop 2 =
      [ c.statePanel ⟨w - 19, 0, 19, 3⟩, c.registersPanel ⟨w - 19, 3, 19, 13⟩
      , c.instructionPanel ⟨w - 19, 16, 19, 4⟩, c.keyPanel ⟨w - 19, 20, 19, h - 20⟩ ] := rfl
  simp only [hside, List.mem_cons, List.not_mem_nil, or_false] at hp
  obtain rfl | rfl | rfl | rfl := hp
  · exact ⟨rfl, _, c.holds_statePanel w⟩
  · exact ⟨rfl, _, c.holds_registersPanel w⟩
  · exact ⟨rfl, _, c.holds_instructionPanel w⟩
  · exact ⟨rfl, _, c.holds_keyPanel w hh⟩

theorem rowText_of_holds (hw : 85 ≤ w) (hh : 37 ≤ h) (hp : p ∈ c.panels w h)
    (hholds : p.Holds texts) (hj : j < p.innerHeight) :
    ∃ before after,
      (c.frame w h).rowText p.area j = padded before (texts.getD j "").toList after := by
  obtain ⟨colour, hline⟩ := hholds.exists_line j
  exact ⟨_, _, rowText_frame_of_fits hw hh hp hj hline (hholds.length_getD_le j)⟩

/-- A panel with one line shows it in its first row. -/
theorem rowText_of_holds_singleton {s : String} (hw : 85 ≤ w) (hh : 37 ≤ h)
    (hp : p ∈ c.panels w h) (hholds : p.Holds [s]) :
    ∃ before after, (c.frame w h).rowText p.area 0 = padded before s.toList after := by
  have hrow := rowText_of_holds (j := 0) hw hh hp hholds hholds.length_texts_le
  simpa only [List.getD_cons_zero] using hrow

theorem rowWords_of_holds (hw : 85 ≤ w) (hh : 37 ≤ h) (hp : p ∈ c.panels w h)
    (hholds : p.Holds texts) (hj : j < p.innerHeight) :
    (c.frame w h).rowWords p.area j = words (texts.getD j "").toList := by
  obtain ⟨before, after, htext⟩ := rowText_of_holds hw hh hp hholds hj
  rw [Frame.rowWords, htext, words_padded]

theorem rowWords_registers (hw : 85 ≤ w) (hh : 37 ≤ h) (hj : j < 11) :
    (c.frame w h).rowWords ⟨w - 19, 3, 19, 13⟩ j =
      words ((registerLines c.machine).getD j "").toList := by
  have hmem : c.registersPanel ⟨w - 19, 3, 19, 13⟩ ∈ c.panels w h :=
    List.mem_of_getElem? (i := 3) rfl
  exact rowWords_of_holds (p := c.registersPanel ⟨w - 19, 3, 19, 13⟩) hw hh hmem
    (c.holds_registersPanel w) hj

theorem rowWords_instruction (hw : 85 ≤ w) (hh : 37 ≤ h) (hj : j < 2) :
    (c.frame w h).rowWords ⟨w - 19, 16, 19, 4⟩ j =
      words ((instructionLines c.machine).getD j "").toList := by
  have hmem : c.instructionPanel ⟨w - 19, 16, 19, 4⟩ ∈ c.panels w h :=
    List.mem_of_getElem? (i := 4) rfl
  exact rowWords_of_holds (p := c.instructionPanel ⟨w - 19, 16, 19, 4⟩) hw hh hmem
    (c.holds_instructionPanel w) hj

theorem words_firstLine (m : Machine) :
    words ((registerLines m).getD 0 "").toList =
      [ ['P', 'C', ':'], (Hex.text 3 m.pc.toNat).toList
      , ['I', ':'], (Hex.text 3 m.index.toNat).toList ] := by
  change words ("PC: " ++ Hex.text 3 m.pc.toNat ++ "  I: " ++ Hex.text 3 m.index.toNat).toList = _
  rw [toList_firstLine, words_append_blank, words_blank_cons, words_entry (by decide) (by decide),
    words_entry (by decide) (by decide)]
  rfl

theorem words_timerLine (m : Machine) :
    words ((registerLines m).getD 1 "").toList =
      [['D', 'T', ':'], (Hex.text 2 m.delay.toNat).toList] := by
  change words ("DT: " ++ Hex.text 2 m.delay.toNat).toList = _
  rw [toList_timerLine, words_entry (by decide) (by decide)]
  rfl

theorem getD_registerLines (m : Machine) (j : Fin 8) :
    (registerLines m).getD (3 + j.val) "" = registerLine m j := by
  rw [registerLines, List.getD_eq_getElem?_getD, List.getElem?_append_right (Nat.le_add_right 3 _)]
  simp

theorem words_registerLine (m : Machine) (j : Fin 8) :
    words (registerLine m j).toList =
      [ (Operand.register (j.castLE (by decide))).letters ++ [':']
      , (Hex.text 2 (m.register (j.castLE (by decide))).toNat).toList
      , (Operand.register (j.natAdd 8)).letters ++ [':']
      , (Hex.text 2 (m.register (j.natAdd 8)).toNat).toList ] := by
  have hname (x : Nibble) : ' ' ∉ (Operand.register x).letters :=
    (Operand.register x).separator_notMem.1
  rw [toList_registerLine, words_append_blank, words_blank_cons, words_blank_cons,
    words_entry (hname _) Nat.two_pos, words_entry (hname _) Nat.two_pos]
  rfl

/-- The value of a register is read off its place. -/
theorem number?_register (hw : 85 ≤ w) (hh : 37 ≤ h) (x : Nibble) :
    (c.frame w h).number? ⟨w - 19, 3, 19, 13⟩ (3 + x.val % 8) (1 + 2 * (x.val / 8)) =
      some (c.machine.register x).toNat := by
  let j : Fin 8 := ⟨x.val % 8, Nat.mod_lt _ (by decide)⟩
  have hrow : (c.frame w h).rowWords ⟨w - 19, 3, 19, 13⟩ (3 + j.val) =
      words (registerLine c.machine j).toList := by
    rw [rowWords_registers hw hh (by omega), getD_registerLines]
  rw [words_registerLine] at hrow
  refine Frame.number?_of_rowWords hrow ?_ Nat.two_pos
  obtain hlow | hhigh : x.val / 8 = 0 ∨ x.val / 8 = 1 := by omega
  · have hx : j.castLE (by decide) = x := Fin.ext (by simp [j]; omega)
    rw [hlow, hx]
    rfl
  · have hx : j.natAdd 8 = x := Fin.ext (by simp [j]; omega)
    rw [hhigh, hx]
    rfl

theorem number?_word (hw : 85 ≤ w) (hh : 37 ≤ h) :
    (c.frame w h).number? ⟨w - 19, 16, 19, 4⟩ 0 0 = c.machine.last.map (·.word.toNat) := by
  have hrow := rowWords_instruction (c := c) (j := 0) hw hh (by decide)
  cases hlast : c.machine.last with
  | some i =>
    rw [instructionLines, hlast] at hrow
    exact Frame.number?_of_rowWords (hrow.trans (words_text (by decide) _)) rfl (by decide)
  | none =>
    rw [instructionLines, hlast] at hrow
    rw [Frame.number?, hrow]
    decide

theorem rowLine_mnemonic (hw : 85 ≤ w) (hh : 37 ≤ h) :
    (c.frame w h).rowLine ⟨w - 19, 16, 19, 4⟩ 1 =
      (c.machine.last.map (·.mnemonic.toList)).getD [] := by
  have hrow := rowWords_instruction (c := c) (j := 1) hw hh (by decide)
  cases hlast : c.machine.last with
  | some i =>
    rw [instructionLines, hlast] at hrow
    rw [Frame.rowLine, hrow]
    change [' '].intercalate (words i.mnemonic.toList) = i.mnemonic.toList
    rw [i.mnemonic_eq, i.operation.intercalate_words_mnemonic]
  | none =>
    rw [instructionLines, hlast] at hrow
    rw [Frame.rowLine, hrow]
    rfl

theorem rowText_state (hw : 85 ≤ w) (hh : 37 ≤ h) :
    ∃ before after, (c.frame w h).rowText ⟨w - 19, 0, 19, 3⟩ 0 =
      padded before c.stateText.1.toList after := by
  have hmem : c.statePanel ⟨w - 19, 0, 19, 3⟩ ∈ c.panels w h := List.mem_of_getElem? (i := 2) rfl
  exact rowText_of_holds_singleton (p := c.statePanel ⟨w - 19, 0, 19, 3⟩) hw hh hmem
    (c.holds_statePanel w)

theorem rowText_key (hw : 85 ≤ w) (hh : 37 ≤ h) :
    ∃ before after, (c.frame w h).rowText ⟨w - 19, 20, 19, h - 20⟩ 0 =
      padded before c.keyText.toList after := by
  have hmem : c.keyPanel ⟨w - 19, 20, 19, h - 20⟩ ∈ c.panels w h :=
    List.mem_of_getElem? (i := 5) rfl
  exact rowText_of_holds_singleton (p := c.keyPanel ⟨w - 19, 20, 19, h - 20⟩) hw hh hmem
    (c.holds_keyPanel w hh)

/-- The state is read off its row. -/
theorem rowLine_state (hw : 85 ≤ w) (hh : 37 ≤ h) :
    (c.frame w h).rowLine ⟨w - 19, 0, 19, 3⟩ 0 = c.stateText.1.toList := by
  obtain ⟨before, after, hrow⟩ := rowText_state (c := c) hw hh
  rw [Frame.rowLine, Frame.rowWords, hrow, words_padded]
  unfold stateText
  split
  · decide
  · split <;> decide

/-- The key is read off its row. -/
theorem number?_key (hw : 85 ≤ w) (hh : 37 ≤ h) :
    (c.frame w h).number? ⟨w - 19, 20, 19, h - 20⟩ 0 0 = c.press.map (·.key.val) := by
  obtain ⟨before, after, hrow⟩ := rowText_key (c := c) hw hh
  have hwords : (c.frame w h).rowWords ⟨w - 19, 20, 19, h - 20⟩ 0 = words c.keyText.toList := by
    rw [Frame.rowWords, hrow, words_padded]
  cases hpress : c.press with
  | some press =>
    rw [keyText, hpress] at hwords
    exact Frame.number?_of_rowWords (hwords.trans (words_text (by decide) _)) rfl (by decide)
  | none =>
    rw [keyText, hpress] at hwords
    rw [Frame.number?, hwords]
    decide

/-- Each state has a text of its own. -/
theorem stateText_eq_iff (c : Console) :
    (c.stateText.1.toList = "PAUSED".toList ↔ c.clocked.paused = true) ∧
    (c.stateText.1.toList = "WAITING KEY".toList ↔
      c.clocked.paused = false ∧ c.machine.isAwaitingKey = true) ∧
    (c.stateText.1.toList = "RUNNING".toList ↔
      c.clocked.paused = false ∧ c.machine.isAwaitingKey = false) := by
  unfold stateText
  cases c.clocked.paused <;> cases c.machine.isAwaitingKey <;> decide

/-- What is read off is what there is. -/
theorem readout_frame (hw : 85 ≤ w) (hh : 37 ≤ h) : (c.frame w h).readout = c.machine.readout := by
  have haddresses :=
    (rowWords_registers (c := c) (j := 0) hw hh (by decide)).trans (words_firstLine _)
  have htimer := (rowWords_registers (c := c) (j := 1) hw hh (by decide)).trans (words_timerLine _)
  have hpc := Frame.number?_of_rowWords (k := 1) haddresses rfl (by decide)
  have hindex := Frame.number?_of_rowWords (k := 3) haddresses rfl (by decide)
  have hdelay := Frame.number?_of_rowWords (k := 1) htimer rfl (by decide)
  exact Readout.ext hpc hindex hdelay (funext (number?_register hw hh)) (number?_word hw hh)
    (rowLine_mnemonic hw hh)

/-- Nothing in the panels at the right is cut off. Each has room for its lines, and each row inside
it shows its line in full, with blanks around it; the addresses, the timer, the registers and the
instruction are read off the cells as they are in the machine; and so are the state, by its text,
and the key that is held. -/
theorem frame_tells_machine (c : Console) (hw : 85 ≤ w) (hh : 37 ≤ h) :
    ((c.panels w h).drop 2).map Panel.title =
      [" State ", " Registers ", " Instruction ", " Key "] ∧
    (∀ p ∈ (c.panels w h).drop 2,
      p.innerWidth = 17 ∧ p.lines.length ≤ p.innerHeight ∧
      (∀ line ∈ p.lines, (Line.cells line).length ≤ 17) ∧
      ∀ j < p.innerHeight, ∃ before after,
        (c.frame w h).rowText p.area j = padded before (Line.letters (p.lines.getD j [])) after) ∧
    (c.frame w h).readout = c.machine.readout ∧
    (∃ before after, (c.frame w h).rowText ⟨w - 19, 0, 19, 3⟩ 0 =
      padded before c.stateText.1.toList after) ∧
    ((c.frame w h).rowLine ⟨w - 19, 0, 19, 3⟩ 0 = "PAUSED".toList ↔ c.clocked.paused = true) ∧
    ((c.frame w h).rowLine ⟨w - 19, 0, 19, 3⟩ 0 = "WAITING KEY".toList ↔
      c.clocked.paused = false ∧ c.machine.isAwaitingKey = true) ∧
    ((c.frame w h).rowLine ⟨w - 19, 0, 19, 3⟩ 0 = "RUNNING".toList ↔
      c.clocked.paused = false ∧ c.machine.isAwaitingKey = false) ∧
    (∃ before after, (c.frame w h).rowText ⟨w - 19, 20, 19, h - 20⟩ 0 =
      padded before c.keyText.toList after) ∧
    (c.frame w h).number? ⟨w - 19, 20, 19, h - 20⟩ 0 0 = c.press.map (·.key.val) := by
  obtain ⟨hpaused, hwaiting, hrunning⟩ := c.stateText_eq_iff
  rw [rowLine_state hw hh]
  refine ⟨rfl, fun p hp => ?_, readout_frame hw hh, rowText_state hw hh, hpaused, hwaiting,
    hrunning, rowText_key hw hh, number?_key hw hh⟩
  obtain ⟨hwidth, texts, hholds⟩ := c.exists_holds w hh hp
  obtain ⟨colour, hlines⟩ := hholds.exists_lines_eq
  refine ⟨hwidth, ?_, fun line hline => ?_, fun j hj => ?_⟩
  · rw [hlines, List.length_map]
    exact hholds.length_texts_le
  · rw [hlines, List.mem_map] at hline
    obtain ⟨s, hs, rfl⟩ := hline
    rw [Line.length_cells_ofText, ← hwidth]
    exact hholds.length_le s hs
  · obtain ⟨_, hline⟩ := hholds.exists_line j
    rw [hline, Line.letters_ofText]
    exact rowText_of_holds hw hh (List.mem_of_mem_drop hp) hholds hj

/-- Addresses beyond the memory take four digits each and fill the first row of the registers. The
machine is neither paused nor waiting, and no key is held. -/
theorem frame_tells_machine_beyond_memory :
    ∃ c : Console, c.machine.pc = 0xFFFF ∧ c.machine.index = 0xABCD ∧
      (c.frame 85 37).readout.pc = some 0xFFFF ∧ (c.frame 85 37).readout.index = some 0xABCD ∧
      (c.frame 85 37).readout.word = some 0xD12F ∧
      (c.frame 85 37).readout.mnemonic = "DRW V1, V2, F".toList ∧
      (c.frame 85 37).rowLine ⟨66, 0, 19, 3⟩ 0 = "RUNNING".toList ∧
      (c.frame 85 37).number? ⟨66, 20, 19, 17⟩ 0 0 = none := by
  obtain ⟨m, hm⟩ : ∃ m, Machine.boot #[0x12, 0x00] .compliant (.cycling #[]) = .ok m :=
    Machine.exists_boot (by decide) _ _
  have hawaiting : m.isAwaitingKey = false := by
    rw [Machine.isAwaitingKey, Machine.mode_boot hm]
  obtain ⟨c, hpc, hindex, hlast, hpaused, hrunning, hpress⟩ : ∃ c : Console,
      c.machine.pc = 0xFFFF ∧ c.machine.index = 0xABCD ∧ c.machine.last = some ⟨0xD12F⟩ ∧
      c.clocked.paused = false ∧ c.machine.isAwaitingKey = false ∧ c.press = none :=
    ⟨start { m with pc := 0xFFFF, index := 0xABCD, last := some ⟨0xD12F⟩ } standardRate, rfl, rfl,
      rfl, rfl, hawaiting, rfl⟩
  obtain ⟨-, -, hreadout, -, -, -, hstate, -, hkey⟩ :=
    c.frame_tells_machine (w := 85) (h := 37) (by decide) (by decide)
  refine ⟨c, hpc, hindex, ?_, ?_, ?_, ?_, hstate.2 ⟨hpaused, hrunning⟩, ?_⟩
  · rw [hreadout, Machine.readout, hpc]
    rfl
  · rw [hreadout, Machine.readout, hindex]
    rfl
  · rw [hreadout, Machine.readout, hlast]
    rfl
  · have hletters : (⟨0xD12F⟩ : Instruction).mnemonic.toList = "DRW V1, V2, F".toList := by decide
    rw [hreadout, Machine.readout, hlast]
    exact hletters
  · rw [hkey, hpress]
    rfl

end Console

end Chip8
