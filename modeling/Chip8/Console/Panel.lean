import Chip8.Text.Columns

namespace Chip8

/-- The colours of the console. -/
inductive Colour
  | red
  | green
  | yellow
  | cyan
deriving DecidableEq

/-- One place of a terminal: what it shows, and the colour of that if it is not the usual one. -/
structure Cell where
  glyph : Cluster
  colour : Option Colour
deriving DecidableEq

namespace Cell

/-- Nothing at all. -/
def blank : Cell := ⟨[' '], none⟩

end Cell

/-- A piece of a line: what it shows, how many columns that takes, and its colour if it is not the
usual one. -/
structure Piece where
  glyph : Cluster
  columns : Nat
  colour : Option Colour
deriving DecidableEq

namespace Piece

/-- A cluster in a colour. -/
def ofCluster (cluster : Cluster) (colour : Option Colour) : Piece :=
  ⟨cluster, cluster.columns, colour⟩

/-- A character that takes one column, in a colour. -/
def ofChar (c : Char) (colour : Option Colour) : Piece := ⟨[c], 1, colour⟩

/-- The cells of a piece. It is shown in the first of them, and the others are left blank. -/
def cells (p : Piece) : List Cell :=
  match p.columns with
  | 0 => []
  | more + 1 => ⟨p.glyph, p.colour⟩ :: List.replicate more .blank

@[simp] theorem length_cells (p : Piece) : p.cells.length = p.columns := by
  unfold cells
  split <;> simp_all

@[simp] theorem cells_ofChar (c : Char) (colour : Option Colour) :
    (ofChar c colour).cells = [⟨[c], colour⟩] := rfl

end Piece

/-- A line of a panel. -/
abbrev Line := List Piece

namespace Line

/-- A text whose characters take one column each, in one colour. -/
def ofText (s : String) (colour : Option Colour) : Line := s.toList.map (.ofChar · colour)

/-- The cells of a line. -/
def cells (line : Line) : List Cell := line.flatMap Piece.cells

/-- The pieces of a line that are shown in a room of some width of which `left` columns are free. A
piece that is too wide for an empty room is left out, and any other that is too wide ends the
line. -/
def fitAfter (room left : Nat) : Line → Line
  | [] => []
  | p :: rest =>
    if room < p.columns then fitAfter room left rest
    else if left < p.columns then []
    else p :: fitAfter room (left - p.columns) rest

/-- The pieces of a line that are shown in a room of some width. -/
def fit (room : Nat) (line : Line) : Line := fitAfter room room line

@[simp] theorem cells_cons (p : Piece) (line : Line) :
    cells (p :: line) = p.cells ++ cells line := rfl

theorem length_cells_fitAfter_le (room left : Nat) (line : Line) :
    (cells (fitAfter room left line)).length ≤ left := by
  induction line generalizing left with
  | nil => exact Nat.zero_le left
  | cons p rest ih =>
    rw [fitAfter]
    split
    · exact ih left
    · split
      · exact Nat.zero_le left
      · have hrest := ih (left - p.columns)
        simp only [cells_cons, List.length_append, Piece.length_cells]
        omega

/-- What is shown in a room fits it. -/
theorem length_cells_fit_le (room : Nat) (line : Line) : (cells (fit room line)).length ≤ room :=
  length_cells_fitAfter_le room room line

theorem cells_fitAfter_ofChar {room left : Nat} (hleft : left ≤ room) (cs : List Char)
    (colour : Option Colour) :
    cells (fitAfter room left (cs.map (.ofChar · colour))) =
      (cs.take left).map fun c => ⟨[c], colour⟩ := by
  induction cs generalizing left with
  | nil => simp [fitAfter, cells]
  | cons c rest ih =>
    have hcolumns : (Piece.ofChar c colour).columns = 1 := rfl
    rw [List.map_cons, fitAfter, hcolumns]
    cases left with
    | zero =>
      split
      · exact ih hleft
      · simp [cells]
    | succ left =>
      have hroom : ¬ room < 1 := by omega
      simp [hroom, ih (Nat.le_of_succ_le hleft)]

/-- Of a text whose characters take one column each, as many are shown as there are columns. -/
theorem cells_fit_ofText (room : Nat) (s : String) (colour : Option Colour) :
    cells (fit room (ofText s colour)) = (s.toList.take room).map fun c => ⟨[c], colour⟩ :=
  cells_fitAfter_ofChar (Nat.le_refl room) s.toList colour

end Line

/-- A rectangle of cells. -/
structure Rect where
  left : Nat
  top : Nat
  width : Nat
  height : Nat
deriving DecidableEq

/-- Whether a rectangle has the cell in column `x` and row `y`. -/
def Rect.contains (r : Rect) (x y : Nat) : Bool :=
  r.left ≤ x && x < r.left + r.width && (r.top ≤ y && y < r.top + r.height)

/-- A framed part of a terminal. -/
structure Panel where
  area : Rect
  title : String
  lines : List Line
  /-- Whether lines stand in the middle, rather than at the left. -/
  centred : Bool
  /-- The colour of everything that has none of its own, the frame included. -/
  colour : Option Colour

namespace Panel

/-- How many columns the frame leaves for the lines. -/
def innerWidth (p : Panel) : Nat := p.area.width - 2

/-- How many rows the frame leaves for the lines. -/
def innerHeight (p : Panel) : Nat := p.area.height - 2

/-- The frame at column `i` and row `j` of the panel. A panel of a single row has only the upper
side, and one of a single column only the left side. The title stands in the upper side, after the
corner. -/
def frame? (p : Panel) (i j : Nat) : Option Char :=
  let last := i + 1 = p.area.width
  if j = 0 then
    if i = 0 then some '┌'
    else if last then some '┐'
    else some (p.title.toList.getD (i - 1) '─')
  else if j + 1 = p.area.height then
    if i = 0 then some '└' else if last then some '┘' else some '─'
  else if i = 0 ∨ last then some '│'
  else none

/-- The column at which a line of a given length starts. -/
def indent (p : Panel) (length : Nat) : Nat :=
  if p.centred then p.innerWidth / 2 - length / 2 else 0

/-- The cell at column `i` and row `j` inside the frame. Lines are cut at the right. -/
def inside (p : Panel) (i j : Nat) : Cell :=
  let line := ((p.lines.getD j []).fit p.innerWidth).cells
  let start := p.indent line.length
  if i < start then .blank else line.getD (i - start) .blank

/-- The cell at column `i` and row `j` of the panel. -/
def cell (p : Panel) (i j : Nat) : Cell :=
  let bare : Cell :=
    match p.frame? i j with
    | some side => ⟨[side], none⟩
    | none => p.inside (i - 1) (j - 1)
  { bare with colour := bare.colour <|> p.colour }

end Panel

/-- What a terminal shows: panels, and nothing around them. -/
structure Frame where
  width : Nat
  height : Nat
  panels : List Panel

namespace Frame

/-- The cell in column `x` and row `y`. -/
def cell (f : Frame) (x y : Nat) : Cell :=
  match f.panels.find? (·.area.contains x y) with
  | some p => p.cell (x - p.area.left) (y - p.area.top)
  | none => .blank

/-- The cells of a row. -/
def row (f : Frame) (y : Nat) : List Cell := (List.range f.width).map (f.cell · y)

/-- All rows, from the top. -/
def rows (f : Frame) : List (List Cell) := (List.range f.height).map f.row

end Frame

end Chip8
