import Chip8.Fault

namespace Chip8

/-- The addressable memory. -/
structure Ram where
  bytes : Vector UInt8 memorySize
deriving DecidableEq

namespace Ram

/-- The memory of a machine without a program: the glyphs, and zeros everywhere else. -/
def fresh : Ram :=
  ⟨Vector.ofFn fun a =>
    if fontStart ≤ a.val then font[a.val - fontStart]?.getD 0 else 0⟩

/-- Copies a program to its place; what lies around it stays. -/
def load (r : Ram) (program : Array UInt8) : Except Fault Ram :=
  if program.size ≤ programCapacity then
    .ok ⟨Vector.ofFn fun a =>
      if programStart ≤ a.val then program.getD (a.val - programStart) r.bytes[a] else r.bytes[a]⟩
  else .error (.programTooLarge program.size)

/-- The byte at an address. -/
def read (r : Ram) (a : Nat) : Except Fault UInt8 :=
  if h : a < memorySize then .ok r.bytes[a] else .error (.outOfBounds a)

/-- The byte at five times a nibble. -/
def glyphCell (r : Ram) (d : Nibble) : UInt8 :=
  have : glyphSize * d.val < memorySize := by simp only [glyphSize, memorySize]; omega
  r.bytes[glyphSize * d.val]

/-- Replaces the byte at an address. -/
@[inline] def write (r : Ram) (a : Nat) (b : UInt8) : Except Fault Ram :=
  if h : a < memorySize then .ok ⟨r.bytes.set a b⟩ else .error (.outOfBounds a)

/-- The bytes at `count` addresses from `a` on, if all of them can be read. -/
def readBlock (r : Ram) (a : Nat) : Nat → Except Fault (List UInt8)
  | 0 => .ok []
  | count + 1 =>
    match r.read a with
    | .error f => .error f
    | .ok b => (r.readBlock (a + 1) count).map (b :: ·)

/-- Writes bytes one after the other, as far as the addresses allow. -/
def writeEach (r : Ram) : List (Nat × UInt8) → Attempt Ram
  | [] => .done r
  | (a, b) :: rest =>
    match r.write a b with
    | .error f => .stopped r f
    | .ok r => r.writeEach rest

theorem read_of_lt (r : Ram) {a : Nat} (h : a < memorySize) : r.read a = .ok r.bytes[a] :=
  dif_pos h

theorem read_of_le (r : Ram) {a : Nat} (h : memorySize ≤ a) :
    r.read a = .error (.outOfBounds a) :=
  dif_neg (Nat.not_lt.2 h)

/-- After a write every address holds what it held before, but for the one written to. -/
theorem read_of_write {r s : Ram} {a : Nat} {b : UInt8} (h : r.write a b = .ok s) (c : Nat) :
    s.read c = if c = a then .ok b else r.read c := by
  unfold write at h
  split at h
  · rename_i ha
    cases h
    unfold read
    by_cases hc : c < memorySize
    · by_cases hca : c = a
      · simp [hca, ha]
      · simp [hc, hca, Ne.symm hca]
    · have hca : c ≠ a := fun h => hc (h ▸ ha)
      simp [hc, hca]
  · cases h

end Ram

end Chip8
