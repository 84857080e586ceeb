import Chip8.Console
import Chip8.Console.Panel
import Chip8.Instruction.Mnemonic

namespace Chip8

namespace Console

/-- The rows or columns that a frame adds. -/
def frameSize : Nat := 2

/-- The width of the panels beside the display. -/
def sideWidth : Nat := 17 + frameSize

/-- The height of the display panel. -/
def displayHeight : Nat := Screen.height + frameSize

/-- The height of the panel that tells whether the machine runs. -/
def stateHeight : Nat := 1 + frameSize

/-- The height of the panel of the registers. -/
def registersHeight : Nat := 11 + frameSize

/-- The height of the panel of the instruction. -/
def instructionHeight : Nat := 2 + frameSize

/-- The least width of a terminal that shows everything. -/
def minWidth : Nat := Screen.width + frameSize + sideWidth

/-- The least height of a terminal that shows everything. -/
def minHeight : Nat := displayHeight + 1 + frameSize

/-- A pixel as a piece of a line. -/
def pixelPiece (lit : Bool) : Piece := .ofChar (if lit then '█' else ' ') (some .green)

/-- The lines of a text. -/
def textLines (cs : List Char) : List (List Char) :=
  cs.foldr (fun c lines =>
    if c = '\n' then [] :: lines
    else
      match lines with
      | line :: rest => (c :: line) :: rest
      | [] => [[c]]) [[]]

/-- A line of a text as it is shown: its clusters without the control characters. -/
def shownLine (cs : List Char) : Line :=
  ((Cluster.split cs).filter (!·.any isControl)).map (.ofCluster · none)

/-- A text without line ends is one line. -/
theorem textLines_of_notMem {cs : List Char} (hcs : '\n' ∉ cs) : textLines cs = [cs] := by
  unfold textLines
  induction cs with
  | nil => rfl
  | cons c rest ih =>
    have hc : c ≠ '\n' := fun heq => hcs (by simp [heq])
    rw [List.foldr_cons, ih fun hmem => hcs (List.mem_cons_of_mem c hmem)]
    simp [hc]

/-- Printable characters of the ASCII range are shown in one column each. -/
theorem shownLine_of_printable {cs : List Char}
    (hcs : ∀ c ∈ cs, 0x20 ≤ c.toNat ∧ c.toNat < 0x7F) :
    shownLine cs = cs.map (.ofChar · none) := by
  have hplain : ∀ c ∈ cs, joining c = .plain := fun c hc =>
    joining_of_printable (hcs c hc).1 (hcs c hc).2
  have hshown : ∀ c ∈ cs, isControl c = false := fun c hc => by
    have hrange := hcs c hc
    simp [isControl]
    omega
  have hkept : (cs.map ([·])).filter (!·.any isControl) = cs.map ([·]) := by
    rw [List.filter_eq_self]
    intro cluster hcluster
    obtain ⟨c, hc, rfl⟩ := List.mem_map.1 hcluster
    simp [hshown c hc]
  rw [shownLine, Cluster.split_of_plain hplain, hkept, List.map_map]
  refine List.map_congr_left fun c hc => ?_
  have hnarrow : c.toNat ≤ 0xA0 := by have := (hcs c hc).2; omega
  simp [Piece.ofCluster, Piece.ofChar, Cluster.columns_singleton hnarrow]

/-- The picture of the machine's screen. -/
def displayPanel (c : Console) (area : Rect) : Panel :=
  { area
    title := " Display "
    lines := c.machine.screen.rows.map fun row => row.map pixelPiece
    centred := true
    colour := none }

/-- The status. -/
def statusPanel (c : Console) (area : Rect) : Panel :=
  { area
    title := " Status "
    lines := (textLines c.status.toList).map shownLine
    centred := false
    colour := some .red }

/-- Whether the machine runs, in a word and its colour. -/
def stateText (c : Console) : String × Colour :=
  if c.clocked.paused then ("PAUSED", .yellow)
  else if c.machine.isAwaitingKey then ("WAITING KEY", .cyan)
  else ("RUNNING", .green)

/-- Whether the machine runs. -/
def statePanel (c : Console) (area : Rect) : Panel :=
  { area
    title := " State "
    lines := [Line.ofText c.stateText.1 (some c.stateText.2)]
    centred := true
    colour := none }

/-- The general registers in two columns, a line for each pair. -/
def registerLine (m : Machine) (j : Fin 8) : String :=
  let low : Nibble := j.castLE (by decide)
  let high : Nibble := j.natAdd 8
  let entry := fun x => registerName x ++ ": " ++ Hex.text 2 (m.register x).toNat
  entry low ++ "   " ++ entry high

/-- The lines of the registers. -/
def registerLines (m : Machine) : List String :=
  [ "PC: " ++ Hex.text 3 m.pc.toNat ++ "  I: " ++ Hex.text 3 m.index.toNat
  , "DT: " ++ Hex.text 2 m.delay.toNat
  , "" ] ++ (List.finRange 8).map (registerLine m)

/-- The registers. -/
def registersPanel (c : Console) (area : Rect) : Panel :=
  { area
    title := " Registers "
    lines := (registerLines c.machine).map (Line.ofText · none)
    centred := false
    colour := none }

/-- The lines of the instruction that was fetched last. -/
def instructionLines (m : Machine) : List String :=
  match m.last with
  | some i => [Hex.text 4 i.word.toNat, i.mnemonic]
  | none => ["----"]

/-- The instruction that was fetched last. -/
def instructionPanel (c : Console) (area : Rect) : Panel :=
  { area
    title := " Instruction "
    lines := (instructionLines c.machine).map (Line.ofText · none)
    centred := true
    colour := none }

/-- The key that is held, as the keypad names it. -/
def keyText (c : Console) : String :=
  match c.press with
  | some p => Hex.text 1 p.key.val
  | none => "-"

/-- The key that is held. -/
def keyPanel (c : Console) (area : Rect) : Panel :=
  { area
    title := " Key "
    lines := [Line.ofText c.keyText none]
    centred := true
    colour := none }

/-- The six panels of a terminal that is large enough: at the left the display and the status below
it, at the right the others. What is left over widens the left side, and goes to the lowest panel on
either side. -/
def panels (c : Console) (width height : Nat) : List Panel :=
  let left := width - sideWidth
  let instructionTop := stateHeight + registersHeight
  let keyTop := instructionTop + instructionHeight
  [ c.displayPanel ⟨0, 0, left, displayHeight⟩
  , c.statusPanel ⟨0, displayHeight, left, height - displayHeight⟩
  , c.statePanel ⟨left, 0, sideWidth, stateHeight⟩
  , c.registersPanel ⟨left, stateHeight, sideWidth, registersHeight⟩
  , c.instructionPanel ⟨left, instructionTop, sideWidth, instructionHeight⟩
  , c.keyPanel ⟨left, keyTop, sideWidth, height - keyTop⟩ ]

/-- What a terminal shows that is too small for the console: how large it would have to be, in its
middle. -/
def tooSmall (width height : Nat) : Panel :=
  let w := min 45 width
  let h := min 3 height
  let size := minWidth.repr ++ "x" ++ minHeight.repr
  { area := ⟨(width - w + 1) / 2, (height - h + 1) / 2, w, h⟩
    title := ""
    lines := [Line.ofText ("Terminal is too small (" ++ size ++ " min)") none]
    centred := true
    colour := some .red }

/-- What a terminal of a given size shows. -/
def frame (c : Console) (width height : Nat) : Frame :=
  { width
    height
    panels :=
      if minWidth ≤ width ∧ minHeight ≤ height then c.panels width height
      else [tooSmall width height] }

end Console

end Chip8
