import Chip8.Proofs.Machine.Effect

namespace Chip8

/-- A change of those parts of a machine with which only few operations have to do. -/
structure Change where
  screen : Screen → Screen := id
  delay : UInt8 → UInt8 := id
  key : UInt8 → UInt8 := id
  last : Option Instruction → Option Instruction := id
  random : ByteSource → ByteSource := id

/-- Whether a change leaves everything alone with which an operation has to do. -/
def Change.Spares (c : Change) : Operation → Prop
  | .clear | .draw .. => c.screen = id
  | .readDelay _ | .setDelay _ => c.delay = id
  | .skipIfKey _ | .skipUnlessKey _ => c.key = id
  | .random .. => c.random = id
  | _ => True

namespace Machine

/-- A machine with some parts changed. -/
def change (m : Machine) (c : Change) : Machine :=
  { m with
    screen := c.screen m.screen
    delay := c.delay m.delay
    key := c.key m.key
    last := c.last m.last
    random := c.random m.random }

variable {m : Machine} {c : Change}

theorem skipIf_change (m : Machine) (c : Change) (condition : Bool) :
    (m.change c).skipIf condition = (m.skipIf condition).change c := by
  cases condition <;> rfl

theorem ret_change (m : Machine) (c : Change) : (m.change c).ret = m.ret.map (·.change c) := by
  have hstack : (m.change c).stack = m.stack := rfl
  unfold ret
  rw [hstack]
  cases m.stack.pop <;> rfl

theorem call_change (m : Machine) (c : Change) (a : Address) :
    (m.change c).call a = (m.call a).map (·.change c) := by
  have hpush : (m.change c).stack.push (m.change c).pc = m.stack.push m.pc := rfl
  unfold call
  rw [hpush]
  cases m.stack.push m.pc <;> rfl

theorem draw_change (h : c.screen = id) (m : Machine) (x y height : Nibble) :
    (m.change c).draw x y height = (m.draw x y height).map (·.change c) := by
  have hblock : (m.change c).ram.readBlock (m.change c).index.toNat height.val =
      m.ram.readBlock m.index.toNat height.val := rfl
  have hrows (rows : List UInt8) :
      (m.change c).drawRows x y rows = (m.drawRows x y rows).change c := by
    obtain ⟨screen, delay, key, last, random⟩ := c
    obtain rfl : screen = id := h
    rfl
  unfold draw
  rw [hblock]
  cases m.ram.readBlock m.index.toNat height.val with
  | error f => rfl
  | ok rows => exact congrArg Attempt.done (hrows rows)

theorem pointAtGlyph_change (m : Machine) (c : Change) (x : Nibble) :
    (m.change c).pointAtGlyph x = (m.pointAtGlyph x).change c := by
  have hdialect : (m.change c).dialect = m.dialect := rfl
  unfold pointAtGlyph
  rw [hdialect]
  split <;> rfl

/-- An operation does the same, whatever is done to the parts with which it has nothing to do. -/
theorem execute_change {o : Operation} (h : c.Spares o) :
    (m.change c).execute o = (m.execute o).map (·.change c) := by
  obtain ⟨screen, delay, key, last, random⟩ := c
  cases o with
  | ret => exact m.ret_change _
  | call a => exact m.call_change _ a
  | draw x y height => exact draw_change h m x y height
  | skipIfByte x b => exact congrArg Attempt.done (m.skipIf_change _ _)
  | skipUnlessByte x b => exact congrArg Attempt.done (m.skipIf_change _ _)
  | skipIfEqual x y => exact congrArg Attempt.done (m.skipIf_change _ _)
  | skipUnlessEqual x y => exact congrArg Attempt.done (m.skipIf_change _ _)
  | glyph x => exact congrArg Attempt.done (m.pointAtGlyph_change _ x)
  | skipIfKey x =>
    obtain rfl : key = id := h
    exact congrArg Attempt.done (m.skipIf_change _ _)
  | skipUnlessKey x =>
    obtain rfl : key = id := h
    exact congrArg Attempt.done (m.skipIf_change _ _)
  | clear =>
    obtain rfl : screen = id := h
    rfl
  | readDelay x =>
    obtain rfl : delay = id := h
    rfl
  | setDelay x =>
    obtain rfl : delay = id := h
    rfl
  | random x mask =>
    obtain rfl : random = id := h
    rfl
  | _ => rfl

/-- A tick goes the same way, whatever is done to parts with which it has nothing to do. -/
theorem tick_change (hlast : c.last = id) (hwaiting : m.isAwaitingKey = true → c.key = id)
    (hspares : ∀ i, m.dispatched = some i → c.Spares i.operation) :
    (m.change c).tick = { m.tick with machine := m.tick.machine.change c } := by
  have hmode' : (m.change c).mode = m.mode := rfl
  have hfetch' : (m.change c).fetch = m.fetch := rfl
  cases hmode : m.mode with
  | awaitingKey x =>
    have hwaits : m.isAwaitingKey = true := by
      unfold isAwaitingKey
      rw [hmode]
    have hkey : (m.change c).key = m.key := congrFun (hwaiting hwaits) m.key
    unfold tick
    rw [hmode', hmode]
    dsimp only
    unfold acceptKey
    rw [hkey]
    split <;> rfl
  | running =>
    cases hfetch : m.fetch with
    | error f =>
      unfold tick runNext
      rw [hmode', hmode, hfetch', hfetch]
    | ok i =>
      have hpass : (m.change c).pass i = (m.pass i).change c := by
        simp only [pass, change, hlast, id_eq]
      have hexecute := execute_change (m := m.pass i)
        (hspares i (dispatched_eq_some_iff.2 ⟨hmode, hfetch⟩))
      unfold tick runNext
      rw [hmode', hmode, hfetch', hfetch]
      dsimp only
      rw [hpass, hexecute]
      rfl

end Machine

end Chip8
