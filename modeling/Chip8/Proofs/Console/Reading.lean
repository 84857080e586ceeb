import Chip8.CommandLine.Seed
import Chip8.Proofs.Console.Layout
import Mathlib.Data.List.Basic

namespace Chip8

/-- The words of a text, which blanks keep apart. -/
def words (cs : List Char) : List (List Char) := (cs.splitOn ' ').filter (· ≠ [])

/-- A text with blanks before and after it. -/
def padded (before : Nat) (cs : List Char) (after : Nat) : List Char :=
  List.replicate before ' ' ++ cs ++ List.replicate after ' '

section Words

variable {cs : List Char} {c : Char}

@[simp] theorem words_nil : words [] = [] := rfl

theorem words_append_blank (cs ds : List Char) :
    words (cs ++ ' ' :: ds) = words cs ++ words ds := by
  simp only [words, List.splitOn_eq_splitOnP]
  rw [List.splitOnP_append_cons cs ds (p := (· == ' ')) (beq_self_eq_true ' '), List.filter_append]

@[simp] theorem words_blank_cons (cs : List Char) : words (' ' :: cs) = words cs :=
  words_append_blank [] cs

/-- Words with blanks between them are read back. -/
theorem words_intercalate {ws : List (List Char)} (hws : ∀ w ∈ ws, w ≠ [] ∧ ' ' ∉ w) :
    words ([' '].intercalate ws) = ws := by
  obtain rfl | hne := eq_or_ne ws []
  · rfl
  · rw [words, List.splitOn_intercalate ' ' (fun w hw => (hws w hw).2) hne]
    exact List.filter_eq_self.2 fun w hw => decide_eq_true (hws w hw).1

theorem words_of_notMem (hne : cs ≠ []) (hcs : ' ' ∉ cs) : words cs = [cs] := by
  have hwords : words ([' '].intercalate [cs]) = [cs] :=
    words_intercalate fun w hw => List.mem_singleton.1 hw ▸ ⟨hne, hcs⟩
  rwa [List.intercalate_singleton] at hwords

/-- Blanks around a text do not change its words. -/
@[simp] theorem words_padded (before after : Nat) (cs : List Char) :
    words (padded before cs after) = words cs := by
  induction before with
  | succ before ih => exact (words_blank_cons _).trans ih
  | zero =>
    rw [padded, List.replicate_zero, List.nil_append]
    induction after with
    | zero => rw [List.replicate_zero, List.append_nil]
    | succ after ih =>
      rw [List.replicate_succ', ← List.append_assoc, words_append_blank, ih, words_nil,
        List.append_nil]

/-- The words of a text hold its letters, but for the blanks. -/
theorem flatten_words (cs : List Char) : (words cs).flatten = cs.filter (· ≠ ' ') := by
  rw [words, List.flatten_filter_ne_nil, List.splitOn_eq_splitOnP]
  induction cs with
  | nil => rfl
  | cons c rest ih =>
    obtain ⟨v, vs, hsplit⟩ := List.exists_cons_of_ne_nil (List.splitOnP_ne_nil (· == ' ') rest)
    rw [List.splitOnP_cons_eq_if_modifyHead, hsplit]
    rw [hsplit] at ih
    by_cases hc : c = ' '
    · simpa [hc] using ih
    · simpa [hc] using ih

/-- A text that does not end in a blank loses letters if it is cut. -/
theorem words_take_eq_iff (hlast : cs.getLast? = some c) (hc : c ≠ ' ') (room : Nat) :
    words (cs.take room) = words cs ↔ cs.length ≤ room := by
  refine ⟨fun hwords => ?_, fun hfits => by rw [List.take_of_length_le hfits]⟩
  by_contra hcut
  have hletters := congrArg List.flatten hwords
  rw [flatten_words, flatten_words] at hletters
  have hsplit : cs.filter (· ≠ ' ') =
      (cs.take room).filter (· ≠ ' ') ++ (cs.drop room).filter (· ≠ ' ') := by
    rw [← List.filter_append, List.take_append_drop]
  rw [← hletters] at hsplit
  have hnone : (cs.drop room).filter (· ≠ ' ') = [] := List.self_eq_append_right.1 hsplit
  have hmem : c ∈ cs.drop room := by
    refine List.mem_of_getLast? ?_
    rw [List.getLast?_drop, if_neg hcut, hlast]
  exact hc (by simpa using List.filter_eq_nil_iff.1 hnone c hmem)

end Words

namespace Frame

/-- The text in a row inside a framed area. -/
def rowText (f : Frame) (area : Rect) (j : Nat) : List Char :=
  (List.range (area.width - 2)).flatMap fun i =>
    (f.cell (area.left + 1 + i) (area.top + 1 + j)).glyph

/-- The words in a row inside a framed area. -/
def rowWords (f : Frame) (area : Rect) (j : Nat) : List (List Char) := words (f.rowText area j)

/-- The words in all rows inside a framed area, from the top. -/
def wordsIn (f : Frame) (area : Rect) : List (List Char) :=
  (List.range (area.height - 2)).flatMap (f.rowWords area)

/-- The words in a row inside a framed area, with a blank between any two. -/
def rowLine (f : Frame) (area : Rect) (j : Nat) : List Char :=
  [' '].intercalate (f.rowWords area j)

/-- The hexadecimal number that stands as a word in a row inside a framed area. -/
def number? (f : Frame) (area : Rect) (j k : Nat) : Option Nat :=
  (f.rowWords area j)[k]?.bind (CommandLine.readNumber? 16)

end Frame

/-- As much of a text as there is room for, with blanks behind it. -/
theorem flatMap_glyph_textCell (cs : List Char) (colour : Option Colour) (room : Nat) :
    (List.range room).flatMap (fun k => (textCell cs colour k).glyph) =
      cs.take room ++ List.replicate (room - cs.length) ' ' := by
  simp only [glyph_textCell]
  rw [← List.map_eq_flatMap]
  refine List.ext_getElem ?_ fun k hk _ => ?_
  · simp only [List.length_map, List.length_range, List.length_append, List.length_take,
      List.length_replicate]
    omega
  · rw [List.length_map, List.length_range] at hk
    rw [List.getElem_map, List.getElem_range, List.getElem_append, List.getD_eq_getElem?_getD]
    split
    · next hinside =>
      rw [List.length_take] at hinside
      rw [List.getElem_take, List.getElem?_eq_getElem, Option.getD_some]
    · next hbehind =>
      rw [List.length_take] at hbehind
      rw [List.getElem_replicate, List.getElem?_eq_none (by omega), Option.getD_none]

/-- The same behind an indent. -/
theorem flatMap_glyph_indented (cs : List Char) (colour : Option Colour) (start room : Nat) :
    (List.range (start + room)).flatMap
        (fun i => (if i < start then Cell.blank else textCell cs colour (i - start)).glyph) =
      padded start (cs.take room) (room - cs.length) := by
  have hbefore : ∀ i ∈ List.range start,
      (if i < start then Cell.blank else textCell cs colour (i - start)).glyph = [' '] :=
    fun i hi => by
      rw [if_pos (List.mem_range.1 hi)]
      rfl
  have hbehind (k : Nat) :
      (if start + k < start then Cell.blank else textCell cs colour (start + k - start)) =
        textCell cs colour k := by
    rw [if_neg (Nat.not_lt.2 (Nat.le_add_right start k)), Nat.add_sub_cancel_left]
  rw [List.range_add, List.flatMap_append, List.flatMap_map, List.flatMap_congr hbefore,
    ← List.map_eq_flatMap, List.map_const', List.length_range]
  simp only [hbehind]
  rw [flatMap_glyph_textCell, padded, List.append_assoc]

/-- A row of a panel shows as much of its line as there is room for. -/
theorem Panel.flatMap_glyph_inside {p : Panel} {cs : List Char} {colour : Option Colour} {j : Nat}
    (hline : p.lines.getD j [] = cs.map (.ofChar · colour)) :
    (List.range p.innerWidth).flatMap (fun i => (p.inside i j).glyph) =
      padded (p.indent (min p.innerWidth cs.length)) (cs.take p.innerWidth)
        (p.innerWidth - p.indent (min p.innerWidth cs.length) - cs.length) := by
  have hlength : (cs.take p.innerWidth).length = min p.innerWidth cs.length := List.length_take
  have hroom : p.indent (min p.innerWidth cs.length) + min p.innerWidth cs.length ≤
      p.innerWidth := by
    unfold indent
    split <;> omega
  simp only [inside_eq hline]
  generalize p.indent (min p.innerWidth cs.length) = start at hroom
  have hrow := flatMap_glyph_indented (cs.take p.innerWidth) colour start (p.innerWidth - start)
  have hwidth : start + (p.innerWidth - start) = p.innerWidth := by omega
  have hfits : (cs.take p.innerWidth).take (p.innerWidth - start) = cs.take p.innerWidth :=
    List.take_of_length_le (by omega)
  have hafter : p.innerWidth - start - min p.innerWidth cs.length =
      p.innerWidth - start - cs.length := by omega
  rw [hwidth, hfits, hlength, hafter] at hrow
  exact hrow

namespace Console

variable {c : Console} {w h j : Nat} {p : Panel} {cs : List Char} {colour : Option Colour}

theorem rowText_frame (hw : 85 ≤ w) (hh : 37 ≤ h) (hp : p ∈ c.panels w h) (hj : j < p.innerHeight)
    (hline : p.lines.getD j [] = cs.map (.ofChar · colour)) :
    (c.frame w h).rowText p.area j =
      padded (p.indent (min p.innerWidth cs.length)) (cs.take p.innerWidth)
        (p.innerWidth - p.indent (min p.innerWidth cs.length) - cs.length) := by
  rw [← Panel.flatMap_glyph_inside hline, Frame.rowText]
  refine List.flatMap_congr fun i hi => ?_
  rw [cell_frame_inner hw hh hp (List.mem_range.1 hi) hj]

/-- A line that there is room for is shown in full. -/
theorem rowText_frame_of_fits (hw : 85 ≤ w) (hh : 37 ≤ h) (hp : p ∈ c.panels w h)
    (hj : j < p.innerHeight) (hline : p.lines.getD j [] = cs.map (.ofChar · colour))
    (hfits : cs.length ≤ p.innerWidth) :
    (c.frame w h).rowText p.area j =
      padded (p.indent cs.length) cs (p.innerWidth - p.indent cs.length - cs.length) := by
  rw [rowText_frame hw hh hp hj hline, Nat.min_eq_right hfits, List.take_of_length_le hfits]

end Console

end Chip8
