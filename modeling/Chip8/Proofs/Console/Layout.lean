import Chip8.Console.Frame

namespace Chip8

theorem Rect.contains_eq (r : Rect) (x y : Nat) :
    r.contains x y =
      decide ((r.left ≤ x ∧ x < r.left + r.width) ∧ r.top ≤ y ∧ y < r.top + r.height) := by
  simp [contains]

/-- The cell of a text in one colour at a place behind its start. -/
def textCell (cs : List Char) (colour : Option Colour) (k : Nat) : Cell :=
  match cs[k]? with
  | some c => ⟨[c], colour⟩
  | none => .blank

theorem glyph_textCell (cs : List Char) (colour : Option Colour) (k : Nat) :
    (textCell cs colour k).glyph = [cs.getD k ' '] := by
  rw [textCell, List.getD_eq_getElem?_getD]
  cases cs[k]? <;> rfl

theorem textCell_none (cs : List Char) (k : Nat) :
    textCell cs none k = ⟨[cs.getD k ' '], none⟩ := by
  rw [textCell, List.getD_eq_getElem?_getD]
  cases cs[k]? <;> rfl

theorem getD_map_eq_textCell (cs : List Char) (colour : Option Colour) (k : Nat) :
    (cs.map fun c => (⟨[c], colour⟩ : Cell)).getD k .blank = textCell cs colour k := by
  unfold textCell
  rw [List.getD_eq_getElem?_getD, List.getElem?_map]
  cases cs[k]? <;> rfl

theorem textCell_take {cs : List Char} {colour : Option Colour} {room k : Nat} (h : k < room) :
    textCell (cs.take room) colour k = textCell cs colour k := by
  rw [textCell, textCell, List.getElem?_take_of_lt h]

namespace Panel

variable {p : Panel} {cs : List Char} {colour : Option Colour} {i j : Nat}

theorem frame?_eq_none_iff :
    p.frame? i j = none ↔
      (i ≠ 0 ∧ i + 1 ≠ p.area.width) ∧ j ≠ 0 ∧ j + 1 ≠ p.area.height := by
  unfold frame?
  grind

theorem frame?_inner (hi : i < p.innerWidth) (hj : j < p.innerHeight) :
    p.frame? (i + 1) (j + 1) = none := by
  unfold innerWidth at hi
  unfold innerHeight at hj
  exact frame?_eq_none_iff.2 (by omega)

/-- A frame is drawn with the letters of the title and six others. -/
theorem mem_of_frame? {side : Char} (h : p.frame? i j = some side) :
    side ∈ p.title.toList ∨ side ∈ ['┌', '┐', '─', '└', '┘', '│'] := by
  have htitle : p.title.toList.getD (i - 1) '─' ∈ p.title.toList ∨
      p.title.toList.getD (i - 1) '─' ∈ ['┌', '┐', '─', '└', '┘', '│'] := by
    rw [List.getD_eq_getElem?_getD]
    cases hletter : p.title.toList[i - 1]? with
    | none => exact .inr (by decide)
    | some letter => exact .inl (List.mem_of_getElem? hletter)
  unfold frame? at h
  dsimp only at h
  repeat' split at h
  all_goals cases h
  -- of the upper side there are the corners and the title, of the others the six letters alone
  case isTrue.isFalse.isFalse => exact htitle
  all_goals exact .inr (by decide)

/-- Inside the frame there is what the lines say, in the colour of the panel where they have
none. -/
theorem cell_inner (hi : i < p.innerWidth) (hj : j < p.innerHeight) :
    p.cell (i + 1) (j + 1) =
      { p.inside i j with colour := (p.inside i j).colour <|> p.colour } := by
  rw [cell, frame?_inner hi hj]
  rfl

theorem glyph_cell_of_frame? {side : Char} (h : p.frame? i j = some side) :
    (p.cell i j).glyph = [side] := by
  rw [cell, h]

theorem inside_eq (hline : p.lines.getD j [] = cs.map (.ofChar · colour)) (i : Nat) :
    p.inside i j =
      if i < p.indent (min p.innerWidth cs.length) then .blank
      else textCell (cs.take p.innerWidth) colour (i - p.indent (min p.innerWidth cs.length)) := by
  have hcells : (Line.fit p.innerWidth (cs.map (.ofChar · colour))).cells =
      (cs.take p.innerWidth).map fun c => ⟨[c], colour⟩ :=
    Line.cells_fitAfter_ofChar (Nat.le_refl _) cs colour
  have hlength : ((cs.take p.innerWidth).map fun c => (⟨[c], colour⟩ : Cell)).length =
      min p.innerWidth cs.length := by
    rw [List.length_map, List.length_take]
  rw [inside, hline, hcells, hlength, getD_map_eq_textCell]

/-- A text that there is room for stands in its row from the indent on. -/
theorem inside_of_fits (hline : p.lines.getD j [] = cs.map (.ofChar · colour))
    (hfits : cs.length ≤ p.innerWidth) (i : Nat) :
    p.inside i j =
      if i < p.indent cs.length then .blank else textCell cs colour (i - p.indent cs.length) := by
  rw [inside_eq hline, Nat.min_eq_right hfits, List.take_of_length_le hfits]

/-- A text that is not centred stands in its row from the left on, as far as there is room. -/
theorem inside_of_left (hline : p.lines.getD j [] = cs.map (.ofChar · colour))
    (hleft : p.centred = false) (hi : i < p.innerWidth) : p.inside i j = textCell cs colour i := by
  have hindent (length : Nat) : p.indent length = 0 := by rw [indent, hleft]; rfl
  rw [inside_eq hline, hindent, if_neg (Nat.not_lt_zero i), Nat.sub_zero, textCell_take hi]

end Panel

/-- A frame shows the panel that a cell lies in, if there is just one. -/
theorem Frame.cell_of_mem {f : Frame} {p : Panel} {x y : Nat}
    (hone : f.panels.countP (·.area.contains x y) = 1) (hp : p ∈ f.panels)
    (hin : p.area.contains x y = true) :
    f.cell x y = p.cell (x - p.area.left) (y - p.area.top) := by
  rw [List.countP_eq_length_filter] at hone
  obtain ⟨q, hq⟩ := List.length_eq_one_iff.1 hone
  have hmem : p ∈ f.panels.filter (·.area.contains x y) := List.mem_filter.2 ⟨hp, hin⟩
  obtain rfl : p = q := List.mem_singleton.1 (hq ▸ hmem)
  rw [cell, ← List.head?_filter, hq]
  rfl

namespace Console

variable {c : Console} {w h : Nat} {p : Panel} {i j x y : Nat}

/-- The titles and the areas of the six panels. -/
theorem map_panels (c : Console) (w h : Nat) :
    (c.panels w h).map (fun p => (p.title, p.area)) =
      [ (" Display ", ⟨0, 0, w - 19, 34⟩)
      , (" Status ", ⟨0, 34, w - 19, h - 34⟩)
      , (" State ", ⟨w - 19, 0, 19, 3⟩)
      , (" Registers ", ⟨w - 19, 3, 19, 13⟩)
      , (" Instruction ", ⟨w - 19, 16, 19, 4⟩)
      , (" Key ", ⟨w - 19, 20, 19, h - 20⟩) ] :=
  rfl

/-- The panels tile the terminal. -/
theorem countP_panels (c : Console) (hw : 85 ≤ w) (hh : 37 ≤ h) (x y : Nat) :
    (c.panels w h).countP (·.area.contains x y) = if x < w ∧ y < h then 1 else 0 := by
  have hareas : (c.panels w h).countP (·.area.contains x y) =
      ((c.panels w h).map fun p => (p.title, p.area)).countP (·.2.contains x y) := by
    rw [List.countP_map]
    rfl
  rw [hareas, map_panels]
  simp only [List.countP_cons, List.countP_nil, Rect.contains_eq, decide_eq_true_iff]
  repeat' split
  all_goals omega

theorem panels_frame (hw : 85 ≤ w) (hh : 37 ≤ h) : (c.frame w h).panels = c.panels w h :=
  if_pos ⟨hw, hh⟩

theorem cell_frame (hw : 85 ≤ w) (hh : 37 ≤ h) (hp : p ∈ c.panels w h)
    (hin : p.area.contains x y = true) :
    (c.frame w h).cell x y = p.cell (x - p.area.left) (y - p.area.top) := by
  have hsome : 0 < (c.panels w h).countP (·.area.contains x y) := List.countP_pos_iff.2 ⟨p, hp, hin⟩
  have hone : (c.panels w h).countP (·.area.contains x y) = 1 := by
    rw [c.countP_panels hw hh] at hsome ⊢
    split at hsome
    · next hinside => exact if_pos hinside
    · exact absurd hsome (Nat.lt_irrefl 0)
  rw [← panels_frame hw hh] at hone hp
  exact Frame.cell_of_mem hone hp hin

/-- Inside a panel a terminal shows what its lines say. -/
theorem cell_frame_inner (hw : 85 ≤ w) (hh : 37 ≤ h) (hp : p ∈ c.panels w h)
    (hi : i < p.innerWidth) (hj : j < p.innerHeight) :
    (c.frame w h).cell (p.area.left + 1 + i) (p.area.top + 1 + j) =
      { p.inside i j with colour := (p.inside i j).colour <|> p.colour } := by
  have hin : p.area.contains (p.area.left + 1 + i) (p.area.top + 1 + j) = true := by
    rw [Rect.contains_eq, decide_eq_true_iff]
    unfold Panel.innerWidth at hi
    unfold Panel.innerHeight at hj
    omega
  have hcolumn : p.area.left + 1 + i - p.area.left = i + 1 := by omega
  have hrow : p.area.top + 1 + j - p.area.top = j + 1 := by omega
  rw [cell_frame hw hh hp hin, hcolumn, hrow, Panel.cell_inner hi hj]

/-- What a panel of no colour shows has the colour of the line. -/
theorem cell_frame_of_plain (hw : 85 ≤ w) (hh : 37 ≤ h) (hp : p ∈ c.panels w h)
    (hplain : p.colour = none) (hi : i < p.innerWidth) (hj : j < p.innerHeight) :
    (c.frame w h).cell (p.area.left + 1 + i) (p.area.top + 1 + j) = p.inside i j := by
  rw [cell_frame_inner hw hh hp hi hj, hplain]
  simp

end Console

end Chip8
