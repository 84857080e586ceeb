namespace Chip8

namespace Screen

/-- Pixels in a row. -/
def width : Nat := 64

/-- Rows of pixels. -/
def height : Nat := 32

end Screen

/-- The picture: one row of pixels after the other, the top row first and each from the left. -/
structure Screen where
  pixels : Vector Bool (Screen.width * Screen.height)
deriving DecidableEq

namespace Screen

/-- Every pixel is off. -/
def blank : Screen := ⟨Vector.replicate _ false⟩

/-- The place of a pixel. Both coordinates wrap around at the edges. -/
def place (x y : Nat) : Fin (width * height) :=
  ⟨y % height * width + x % width, by simp only [width, height]; omega⟩

/-- Whether a pixel is on. -/
def pixel (s : Screen) (x y : Nat) : Bool := s.pixels[place x y]

/-- Turns a pixel on if it is off, and off if it is on. -/
def flip (s : Screen) (x y : Nat) : Screen :=
  ⟨s.pixels.set (place x y) (!s.pixel x y)⟩

/-- The pixels of a row, from the left. -/
def row (s : Screen) (y : Nat) : List Bool := (List.range width).map (s.pixel · y)

/-- All rows, from the top. -/
def rows (s : Screen) : List (List Bool) := (List.range height).map s.row

/-- How many pixels are on. -/
def litCount (s : Screen) : Nat := s.pixels.count true

theorem place_eq_iff {x y x' y' : Nat} :
    place x y = place x' y' ↔ x % width = x' % width ∧ y % height = y' % height := by
  simp only [place, width, height, Fin.mk.injEq]
  omega

theorem pixel_flip (s : Screen) (x y x' y' : Nat) :
    (s.flip x y).pixel x' y' =
      (s.pixel x' y' ^^ decide (x % width = x' % width ∧ y % height = y' % height)) := by
  by_cases h : place x y = place x' y'
  · simp [flip, pixel, h, place_eq_iff.1 h]
  · simp [flip, pixel, Fin.val_inj, h, mt place_eq_iff.2 h]

@[simp] theorem pixel_blank (x y : Nat) : blank.pixel x y = false := by
  simp [blank, pixel]

theorem pixel_flip_blank (x y x' y' : Nat) :
    (blank.flip x y).pixel x' y' =
      decide (x % width = x' % width ∧ y % height = y' % height) := by
  rw [pixel_flip, pixel_blank, Bool.false_xor]

end Screen

/-- The set bits of a sprite as offsets from its origin, column first. A byte is a row, drawn from
its most significant bit, and the rows come in order. -/
def spriteDots (rows : List UInt8) : List (Nat × Nat) :=
  rows.zipIdx.flatMap fun (b, r) =>
    ((List.range 8).filter fun c => b.toNat.testBit (7 - c)).map (·, r)

/-- Flips the dots of a sprite in order. `origin` is where the sprite stands, and may depend on
whether a lit pixel has been met so far, which is `hit`; so the answer tells it as well. -/
def Screen.plot (origin : Bool → Nat × Nat) : List (Nat × Nat) → Screen → Bool → Screen × Bool
  | [], s, hit => (s, hit)
  | (column, row) :: dots, s, hit =>
    let start := origin hit
    let x := start.1 + column
    let y := start.2 + row
    let lit := s.pixel x y
    Screen.plot origin dots (s.flip x y) (hit || lit)

end Chip8
