import Chip8.Proofs.Console.Layout
import Chip8.Proofs.Machine.Boot
import Chip8.Proofs.Machine.LitPixels
import Mathlib.Data.Finset.Prod
import Mathlib.Data.Fintype.Fin

namespace Chip8

namespace Screen

/-- The column and the row of a pixel. -/
def coordinates (k : Fin (width * height)) : Nat × Nat := (k.val % width, k.val / width)

theorem coordinates_place {x y : Nat} (hx : x < width) (hy : y < height) :
    coordinates (place x y) = (x, y) := by
  simp only [coordinates, place, width, height, Prod.mk.injEq] at hx hy ⊢
  omega

theorem place_coordinates (k : Fin (width * height)) :
    place (coordinates k).1 (coordinates k).2 = k := by
  have hroom : k.val < 64 * 32 := k.isLt
  refine Fin.ext ?_
  simp only [coordinates, place, width, height]
  omega

theorem pixel_coordinates (s : Screen) (k : Fin (width * height)) :
    s.pixel (coordinates k).1 (coordinates k).2 = s.pixels[k] :=
  congrArg (fun k : Fin _ => s.pixels[k]) (place_coordinates k)

theorem coordinates_lt (k : Fin (width * height)) :
    (coordinates k).1 < width ∧ (coordinates k).2 < height := by
  have hroom : k.val < 64 * 32 := k.isLt
  simp only [coordinates, width, height]
  omega

theorem coordinates_injective : Function.Injective coordinates := fun k l hkl => by
  rw [← place_coordinates k, hkl, place_coordinates]

/-- The pixels that are on. -/
def litPixels (s : Screen) : Finset (Fin (width * height)) :=
  Finset.univ.filter fun k => s.pixels[k] = true

theorem mem_litPixels {s : Screen} {k : Fin (width * height)} :
    k ∈ s.litPixels ↔ s.pixel (coordinates k).1 (coordinates k).2 = true := by
  rw [litPixels, Finset.mem_filter, pixel_coordinates]
  exact and_iff_right (Finset.mem_univ k)

theorem card_litPixels (s : Screen) : s.litPixels.card = s.litCount := by
  rw [litCount, ← Vector.count_toList]
  exact Fin.card_filter_univ_eq_vector_get_eq_count true ⟨s.pixels.toList, s.pixels.length_toList⟩

end Screen

/-- The places of a rectangle at which a frame shows a full block. -/
def Frame.blocks (f : Frame) (area : Rect) : Finset (Nat × Nat) :=
  (Finset.Ico area.left (area.left + area.width) ×ˢ
    Finset.Ico area.top (area.top + area.height)).filter fun p => (f.cell p.1 p.2).glyph = ['█']

theorem Frame.mem_blocks {f : Frame} {area : Rect} {x y : Nat} :
    (x, y) ∈ f.blocks area ↔ area.contains x y = true ∧ (f.cell x y).glyph = ['█'] := by
  simp [blocks, Rect.contains_eq]

/-- Whether a rectangle lies in the middle of a terminal, up to one more cell at the left and one at
the top. -/
structure Rect.InMiddle (r : Rect) (w h : Nat) : Prop where
  left_add_width_le : r.left + r.width ≤ w
  top_add_height_le : r.top + r.height ≤ h
  left_eq : r.left = w - (r.left + r.width) ∨ r.left = w - (r.left + r.width) + 1
  top_eq : r.top = h - (r.top + r.height) ∨ r.top = h - (r.top + r.height) + 1

namespace Console

variable {c : Console} {w h i j x y : Nat}

/-- The characters of a row of pixels. -/
def pixelRow (s : Screen) (j : Nat) : List Char :=
  (List.range Screen.width).map fun x => if s.pixel x j then '█' else ' '

theorem lines_displayPanel (hj : j < Screen.height) (c : Console) (area : Rect) :
    (c.displayPanel area).lines.getD j [] =
      (pixelRow c.machine.screen j).map (.ofChar · (some .green)) := by
  have hrow : c.machine.screen.rows[j]? = some (c.machine.screen.row j) := by
    rw [Screen.rows, List.getElem?_map, List.getElem?_range hj]
    rfl
  rw [displayPanel, List.getD_eq_getElem?_getD, List.getElem?_map, hrow, Option.map_some,
    Option.getD_some, Screen.row, pixelRow, List.map_map, List.map_map]
  rfl

theorem length_pixelRow (s : Screen) (j : Nat) : (pixelRow s j).length = 64 := by
  rw [pixelRow, List.length_map, List.length_range]
  rfl

theorem textCell_pixelRow {s : Screen} {k : Nat} (hk : k < Screen.width) (j : Nat) :
    textCell (pixelRow s j) (some .green) k =
      ⟨[if s.pixel k j then '█' else ' '], some .green⟩ := by
  have hpixel : (pixelRow s j)[k]? = some (if s.pixel k j then '█' else ' ') := by
    rw [pixelRow, List.getElem?_map, List.getElem?_range hk]
    rfl
  rw [textCell, hpixel]

theorem textCell_pixelRow_of_le {s : Screen} {k : Nat} (hk : 64 ≤ k) (j : Nat) :
    textCell (pixelRow s j) (some .green) k = .blank := by
  rw [textCell, List.getElem?_eq_none (by rwa [length_pixelRow])]

/-- Inside its panel the screen stands in the middle. -/
theorem cell_display (hw : 85 ≤ w) (hh : 37 ≤ h) (hi : i < w - 21) (hj : j < 32) :
    (c.frame w h).cell (1 + i) (1 + j) =
      if i < (w - 21) / 2 - 32 then .blank
      else textCell (pixelRow c.machine.screen j) (some .green) (i - ((w - 21) / 2 - 32)) := by
  have hmem : c.displayPanel ⟨0, 0, w - 19, 34⟩ ∈ c.panels w h := List.mem_cons_self
  have hwidth : (c.displayPanel ⟨0, 0, w - 19, 34⟩).innerWidth = w - 21 := Nat.sub_sub ..
  have hindent : (c.displayPanel ⟨0, 0, w - 19, 34⟩).indent 64 = (w - 21) / 2 - 32 := by
    rw [Panel.indent, hwidth]
    rfl
  have hfits : (pixelRow c.machine.screen j).length ≤ w - 21 := by
    rw [length_pixelRow]
    omega
  have hcell := cell_frame_of_plain hw hh hmem rfl (hwidth ▸ hi) hj
  rw [Panel.inside_of_fits (lines_displayPanel hj c _) (hwidth ▸ hfits), length_pixelRow, hindent]
    at hcell
  have hcolumn : 0 + 1 + i = 1 + i := by omega
  have hrow : 0 + 1 + j = 1 + j := by omega
  rw [← hcell, ← hcolumn, ← hrow]
  rfl

/-- Each pixel has its cell. -/
theorem cell_pixel (hw : 85 ≤ w) (hh : 37 ≤ h) (hx : x < 64) (hy : y < 32) :
    (c.frame w h).cell (1 + (w - 21) / 2 - 32 + x) (1 + y) =
      ⟨[if c.machine.screen.pixel x y then '█' else ' '], some .green⟩ := by
  have hcolumn : 1 + (w - 21) / 2 - 32 + x = 1 + ((w - 21) / 2 - 32 + x) := by omega
  have hi : (w - 21) / 2 - 32 + x < w - 21 := by omega
  rw [hcolumn, cell_display hw hh hi hy, if_neg (by omega), Nat.add_sub_cancel_left,
    textCell_pixelRow hx]

/-- Beside the pixels there is nothing. -/
theorem cell_beside_pixels (hw : 85 ≤ w) (hh : 37 ≤ h) (hi : i < w - 21) (hj : j < 32)
    (hbeside : i < (w - 21) / 2 - 32 ∨ (w - 21) / 2 + 32 ≤ i) :
    (c.frame w h).cell (1 + i) (1 + j) = .blank := by
  rw [cell_display hw hh hi hj]
  split
  · rfl
  · exact textCell_pixelRow_of_le (by omega) j

/-- A full block in the display panel is a pixel that is on. -/
theorem exists_of_block (hw : 85 ≤ w) (hh : 37 ≤ h)
    (hin : (⟨0, 0, w - 19, 34⟩ : Rect).contains x y = true)
    (hblock : ((c.frame w h).cell x y).glyph = ['█']) :
    ∃ k < 64, ∃ j < 32, x = 1 + (w - 21) / 2 - 32 + k ∧ y = 1 + j ∧
      c.machine.screen.pixel k j = true := by
  have hmem : c.displayPanel ⟨0, 0, w - 19, 34⟩ ∈ c.panels w h := List.mem_cons_self
  have hcell := cell_frame hw hh hmem hin
  change _ = Panel.cell _ x y at hcell
  cases hside : (c.displayPanel ⟨0, 0, w - 19, 34⟩).frame? x y with
  | some side =>
    rw [hcell, Panel.glyph_cell_of_frame? hside] at hblock
    obtain rfl : side = '█' := List.singleton_inj.1 hblock
    rcases Panel.mem_of_frame? hside with htitle | hletter
    · exact absurd htitle (by decide : '█' ∉ " Display ".toList)
    · exact absurd hletter (by decide)
  | none =>
    obtain ⟨⟨hleft, hright⟩, htop, hbottom⟩ := Panel.frame?_eq_none_iff.1 hside
    rw [Rect.contains_eq, decide_eq_true_iff] at hin
    obtain ⟨i, rfl⟩ : ∃ i, x = 1 + i := ⟨x - 1, by omega⟩
    obtain ⟨j, rfl⟩ : ∃ j, y = 1 + j := ⟨y - 1, by omega⟩
    change 1 + i + 1 ≠ w - 19 at hright
    change 1 + j + 1 ≠ 34 at hbottom
    dsimp only at hin
    have hi : i < w - 21 := by omega
    have hj : j < 32 := by omega
    rw [cell_display hw hh hi hj] at hblock
    split at hblock
    · exact absurd hblock (by decide)
    · by_cases hk : i - ((w - 21) / 2 - 32) < 64
      · rw [textCell_pixelRow hk] at hblock
        refine ⟨i - ((w - 21) / 2 - 32), hk, j, hj, by omega, rfl, ?_⟩
        by_contra hoff
        rw [if_neg hoff] at hblock
        exact absurd hblock (by decide)
      · rw [textCell_pixelRow_of_le (Nat.le_of_not_lt hk)] at hblock
        exact absurd hblock (by decide)

/-- The full blocks in the display panel stand for the pixels that are on. -/
theorem blocks_display (hw : 85 ≤ w) (hh : 37 ≤ h) :
    (c.frame w h).blocks ⟨0, 0, w - 19, 34⟩ =
      c.machine.screen.litPixels.image fun k =>
        (1 + (w - 21) / 2 - 32 + (Screen.coordinates k).1, 1 + (Screen.coordinates k).2) := by
  ext ⟨x, y⟩
  rw [Frame.mem_blocks, Finset.mem_image]
  constructor
  · rintro ⟨hin, hblock⟩
    obtain ⟨k, hk, j, hj, rfl, rfl, hlit⟩ := exists_of_block hw hh hin hblock
    have hcoordinates := Screen.coordinates_place hk hj
    refine ⟨Screen.place k j, ?_, ?_⟩
    · rwa [Screen.mem_litPixels, hcoordinates]
    · rw [hcoordinates]
  · rintro ⟨k, hlit, hplace⟩
    rw [Screen.mem_litPixels] at hlit
    obtain ⟨hx, hy⟩ := Screen.coordinates_lt k
    change _ < 64 at hx
    change _ < 32 at hy
    obtain ⟨rfl, rfl⟩ := Prod.mk.inj hplace
    constructor
    · rw [Rect.contains_eq, decide_eq_true_iff]
      dsimp only
      omega
    · rw [cell_pixel hw hh hx hy, hlit]
      rfl

theorem card_blocks_display (hw : 85 ≤ w) (hh : 37 ≤ h) :
    ((c.frame w h).blocks ⟨0, 0, w - 19, 34⟩).card = c.machine.screen.litCount := by
  rw [blocks_display hw hh, ← Screen.card_litPixels]
  refine Finset.card_image_of_injective _ fun k l hkl => Screen.coordinates_injective ?_
  simp only [Prod.mk.injEq, Nat.add_left_cancel_iff] at hkl
  exact Prod.ext hkl.1 hkl.2

/-- The box in which a terminal tells that it is too small. -/
def noticeArea (w h : Nat) : Rect :=
  ⟨(w - min 45 w + 1) / 2, (h - min 3 h + 1) / 2, min 45 w, min 3 h⟩

theorem inMiddle_noticeArea (w h : Nat) : (noticeArea w h).InMiddle w h := by
  constructor <;> simp only [noticeArea] <;> omega

/-- Around the notice there is nothing. -/
theorem cell_frame_of_small (hsmall : ¬ (85 ≤ w ∧ 37 ≤ h))
    (hout : ¬ (noticeArea w h).contains x y = true) : (c.frame w h).cell x y = .blank := by
  have hpanels : (c.frame w h).panels = [tooSmall w h] := if_neg hsmall
  have hnone : [tooSmall w h].find? (·.area.contains x y) = none :=
    List.find?_eq_none.2 fun p hp => List.mem_singleton.1 hp ▸ hout
  rw [Frame.cell, hpanels, hnone]

/-- A terminal that is large enough shows a picture of the machine's screen. Six panels tile it, and
each cell is one of the panel that it lies in. In the display panel there is a green cell for each
pixel, a full block or a blank, and no other full block, so that there are as many of these as there
are pixels that are on. A smaller terminal shows the same whatever the console, and nothing outside
a box in its middle. -/
theorem frame_pictures_screen (c : Console) (w h : Nat) :
    (85 ≤ w → 37 ≤ h →
      (c.panels w h).map (fun p => (p.title, p.area)) =
        [ (" Display ", ⟨0, 0, w - 19, 34⟩)
        , (" Status ", ⟨0, 34, w - 19, h - 34⟩)
        , (" State ", ⟨w - 19, 0, 19, 3⟩)
        , (" Registers ", ⟨w - 19, 3, 19, 13⟩)
        , (" Instruction ", ⟨w - 19, 16, 19, 4⟩)
        , (" Key ", ⟨w - 19, 20, 19, h - 20⟩) ] ∧
      (∀ x y, (c.panels w h).countP (·.area.contains x y) = if x < w ∧ y < h then 1 else 0) ∧
      (∀ p ∈ c.panels w h, ∀ x y, p.area.contains x y = true →
        (c.frame w h).cell x y = p.cell (x - p.area.left) (y - p.area.top)) ∧
      (∀ x < 64, ∀ y < 32, (c.frame w h).cell (1 + (w - 21) / 2 - 32 + x) (1 + y) =
        ⟨[if c.machine.screen.pixel x y then '█' else ' '], some .green⟩) ∧
      (∀ i < w - 21, ∀ j < 32, i < (w - 21) / 2 - 32 ∨ (w - 21) / 2 + 32 ≤ i →
        (c.frame w h).cell (1 + i) (1 + j) = .blank) ∧
      ((c.frame w h).blocks ⟨0, 0, w - 19, 34⟩).card = c.machine.screen.litCount) ∧
    (¬ (85 ≤ w ∧ 37 ≤ h) →
      (∀ d : Console, d.frame w h = c.frame w h) ∧
      (noticeArea w h).InMiddle w h ∧
      (noticeArea w h).width = min 45 w ∧ (noticeArea w h).height = min 3 h ∧
      ∀ x y, (c.frame w h).cell x y ≠ .blank → (noticeArea w h).contains x y = true) := by
  refine ⟨fun hw hh => ?_, fun hsmall => ?_⟩
  · refine ⟨c.map_panels w h, c.countP_panels hw hh, fun p hp x y hin => cell_frame hw hh hp hin,
      fun x hx y hy => cell_pixel hw hh hx hy, fun i hi j hj hbeside => ?_,
      card_blocks_display hw hh⟩
    exact cell_beside_pixels hw hh hi hj hbeside
  · have hsame (d : Console) : d.frame w h = c.frame w h := by
      have hnotice (d : Console) : d.frame w h = ⟨w, h, [tooSmall w h]⟩ :=
        congrArg (Frame.mk w h) (if_neg hsmall)
      rw [hnotice, hnotice]
    refine ⟨hsame, inMiddle_noticeArea w h, rfl, rfl, fun x y hcell => ?_⟩
    by_contra hout
    exact hcell (cell_frame_of_small hsmall hout)

/-- The last pixel, alone on a screen, in a terminal that is one column wider than it must be; and
one of the usual size, which is too small. -/
theorem frame_pictures_screen_last_pixel :
    ∃ c : Console, c.machine.screen = Screen.blank.flip 63 31 ∧
      (c.frame 86 40).cell 64 32 = ⟨['█'], some .green⟩ ∧ (c.frame 86 40).cell 65 32 = .blank ∧
      ((c.frame 86 40).blocks ⟨0, 0, 67, 34⟩).card = 1 ∧
      ∀ d : Console, d.frame 80 24 = c.frame 80 24 := by
  obtain ⟨m, hm⟩ : ∃ m, Machine.boot #[0x12, 0x00] .compliant (.cycling #[]) = .ok m :=
    Machine.exists_boot (by decide) _ _
  obtain ⟨c, hscreen⟩ : ∃ c : Console, c.machine.screen = Screen.blank.flip 63 31 :=
    ⟨start { m with screen := Screen.blank.flip 63 31 } standardRate, rfl⟩
  have hlit : c.machine.screen.pixel 63 31 = true := by
    rw [hscreen, Screen.pixel_flip_blank]
    exact decide_eq_true ⟨rfl, rfl⟩
  have hcount : c.machine.screen.litCount = 1 := by
    have hblank : Screen.blank.litCount = 0 := by
      simp [Screen.blank, Screen.litCount, Vector.count_replicate]
    rw [hscreen, Screen.litCount_flip_of_unlit (Screen.pixel_blank 63 31), hblank]
  obtain ⟨-, -, -, hpixels, hbeside, hblocks⟩ :=
    (frame_pictures_screen c 86 40).1 (by decide) (by decide)
  have hpixel := hpixels 63 (by decide) 31 (by decide)
  rw [hlit, if_pos rfl] at hpixel
  have hsmall := (frame_pictures_screen c 80 24).2 (by decide)
  exact ⟨c, hscreen, hpixel, hbeside 64 (by decide) 31 (by decide) (.inr (by decide)),
    hblocks.trans hcount, hsmall.1⟩

end Console

end Chip8
