import Chip8.Machine.Arithmetic
import Chip8.Machine.State

namespace Chip8

namespace Machine

/-- Passes over the next instruction if the condition holds. -/
def skipIf (m : Machine) (condition : Bool) : Machine :=
  if condition then { m with pc := m.pc + 2 } else m

/-- Ends the latest call. -/
def ret (m : Machine) : Attempt Machine :=
  .ofExcept m (m.stack.pop.map fun top => { m with pc := top.1, stack := top.2 })

/-- Starts a call. The machine comes back to where its program counter stands now. -/
def call (m : Machine) (target : Address) : Attempt Machine :=
  .ofExcept m ((m.stack.push m.pc).map fun stack => { m with pc := target.toWord, stack })

/-- Puts the next random byte, masked, into a register. -/
def randomize (m : Machine) (x : Nibble) (mask : UInt8) : Machine :=
  { m.setRegister x (m.random.head &&& mask) with random := m.random.drop 1 }

/-- Where a sprite with its origin in `x` and `y` stands, once the flag register holds whether a lit
pixel has been met. -/
def spriteOrigin (m : Machine) (x y : Nibble) (hit : Bool) : Nat × Nat :=
  let seen :=
    if m.dialect.flagBeforeOperands then m.registers.set Registers.flag (flagOf hit)
    else m.registers
  ((seen.get x).toNat, (seen.get y).toNat)

/-- Draws the rows of a sprite. The flag tells whether a lit pixel has been turned off. -/
def drawRows (m : Machine) (x y : Nibble) (rows : List UInt8) : Machine :=
  let drawn := Screen.plot (m.spriteOrigin x y) (spriteDots rows) m.screen false
  { m with screen := drawn.1, registers := m.registers.set Registers.flag (flagOf drawn.2) }

/-- Draws a sprite of `height` rows from the index on. All of it is read before the first dot is
drawn, so a sprite that reaches past the memory changes nothing. -/
def draw (m : Machine) (x y height : Nibble) : Attempt Machine :=
  .ofExcept m ((m.ram.readBlock m.index.toNat height.val).map (m.drawRows x y))

/-- Points the index at a glyph. -/
def pointAtGlyph (m : Machine) (x : Nibble) : Machine :=
  if m.dialect.glyphThroughMemory then { m with index := (m.ram.glyphCell x).toUInt16 }
  else
    let digit := Nibble.ofLowBits (m.register x).toNat
    { m with index := UInt16.ofNat (fontStart + glyphSize * digit.val) }

/-- The decimal digits of a byte: hundreds, tens and ones. -/
def decimalDigits (b : UInt8) : List UInt8 := [b / 100, b / 10 % 10, b % 10]

/-- Writes the decimal digits of a register at the index. -/
def storeDigits (m : Machine) (x : Nibble) : Attempt Machine :=
  let place := fun k => if m.dialect.stacksDigits then m.index.toNat else m.index.toNat + k
  let cells := (decimalDigits (m.register x)).zipIdx.map fun (digit, k) => (place k, digit)
  (m.ram.writeEach cells).map fun ram => { m with ram }

/-- The registers that a block transfer up to `x` moves, in order. -/
def transferred (m : Machine) (x : Nibble) : List Nibble :=
  let count := if m.dialect.transfersExclusive then x.val else x.val + 1
  (List.finRange 16).take count

/-- Writes the first registers to the memory from the index on. -/
def storeRegisters (m : Machine) (x : Nibble) : Attempt Machine :=
  let cells := (m.transferred x).map fun j => (m.index.toNat + j.val, m.register j)
  (m.ram.writeEach cells).map fun ram => { m with ram }

/-- Loads the first registers from the memory at the index. -/
def loadRegisters (m : Machine) (x : Nibble) : Attempt Machine :=
  let cells := (m.transferred x).map fun j => (j, m.index.toNat + j.val)
  (m.registers.loadEach m.ram cells).map fun registers => { m with registers }

/-- Carries out an operation on a machine whose program counter has already moved on. -/
def execute (m : Machine) : Operation → Attempt Machine
  | .clear => .done { m with screen := .blank }
  | .ret => m.ret
  | .jump a => .done { m with pc := a.toWord }
  | .call a => m.call a
  | .skipIfByte x b => .done (m.skipIf (m.register x == b))
  | .skipUnlessByte x b => .done (m.skipIf (m.register x != b))
  | .skipIfEqual x y => .done (m.skipIf (m.register x == m.register y))
  | .skipUnlessEqual x y => .done (m.skipIf (m.register x != m.register y))
  | .setByte x b => .done (m.setRegister x b)
  | .addByte x b => .done (m.setRegister x (m.register x + b))
  | .arithmetic f x y => .done { m with registers := m.registers.arithmetic m.dialect f x y }
  | .shiftRight x => .done { m with registers := m.registers.shiftRight m.dialect x }
  | .shiftLeft x => .done { m with registers := m.registers.shiftLeft m.dialect x }
  | .setIndex a => .done { m with index := a.toWord }
  | .jumpOffset a => .done { m with pc := a.toWord + (m.register 0).toUInt16 }
  | .random x mask => .done (m.randomize x mask)
  | .draw x y height => m.draw x y height
  | .skipIfKey x => .done (m.skipIf (m.register x == m.key))
  | .skipUnlessKey x => .done (m.skipIf (m.register x != m.key))
  | .readDelay x => .done (m.setRegister x m.delay)
  | .awaitKey x => .done { m with mode := .awaitingKey x }
  | .setDelay x => .done { m with delay := m.register x }
  | .setSound _ => .done m
  | .addIndex x => .done { m with index := m.index + (m.register x).toUInt16 }
  | .glyph x => .done (m.pointAtGlyph x)
  | .decimal x => m.storeDigits x
  | .store x => m.storeRegisters x
  | .load x => m.loadRegisters x
  | .unsupported _ => .done m

/-- A sprite stays where it is if its origin is taken before the flag is written, or from other
registers than the flag. -/
theorem spriteOrigin_of_fixed {m : Machine} {x y : Nibble}
    (h : m.dialect.flagBeforeOperands = false ∨ x ≠ Registers.flag ∧ y ≠ Registers.flag)
    (hit : Bool) :
    m.spriteOrigin x y hit = ((m.register x).toNat, (m.register y).toNat) := by
  unfold spriteOrigin register
  obtain hbefore | ⟨hx, hy⟩ := h
  · rw [hbefore]
    rfl
  · dsimp only
    split
    · rw [Registers.get_set, if_neg hx.symm, Registers.get_set, if_neg hy.symm]
    · rfl

end Machine

end Chip8
