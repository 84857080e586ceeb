import Chip8.Proofs.Machine.History

namespace Chip8

/-- The machine `m`, but for the parts that an operation works on, which are those of `r`. -/
def Operation.graft (m r : Machine) : Operation → Machine
  | .clear => { m with screen := r.screen }
  | .ret | .call _ => { m with pc := r.pc, stack := r.stack }
  | .jump _ | .jumpOffset _ | .skipIfByte .. | .skipUnlessByte .. | .skipIfEqual ..
  | .skipUnlessEqual .. | .skipIfKey _ | .skipUnlessKey _ => { m with pc := r.pc }
  | .setByte .. | .addByte .. | .arithmetic .. | .shiftRight _ | .shiftLeft _ | .readDelay _
  | .load _ => { m with registers := r.registers }
  | .random .. => { m with registers := r.registers, random := r.random }
  | .draw .. => { m with screen := r.screen, registers := r.registers }
  | .setIndex _ | .addIndex _ | .glyph _ => { m with index := r.index }
  | .awaitKey _ => { m with mode := r.mode }
  | .setDelay _ => { m with delay := r.delay }
  | .decimal _ | .store _ => { m with ram := r.ram }
  | .setSound _ | .unsupported _ => m

namespace Machine

theorem skipIf_eq (m : Machine) (condition : Bool) :
    m.skipIf condition = { m with pc := (m.skipIf condition).pc } := by
  cases condition <;> rfl

theorem pointAtGlyph_eq (m : Machine) (x : Nibble) :
    m.pointAtGlyph x = { m with index := (m.pointAtGlyph x).index } := by
  unfold pointAtGlyph
  split <;> rfl

theorem ret_eq (m : Machine) :
    m.ret.reached = { m with pc := m.ret.reached.pc, stack := m.ret.reached.stack } := by
  unfold ret
  cases m.stack.pop <;> rfl

theorem call_eq (m : Machine) (a : Address) :
    (m.call a).reached =
      { m with pc := (m.call a).reached.pc, stack := (m.call a).reached.stack } := by
  unfold call
  cases m.stack.push m.pc <;> rfl

theorem draw_eq (m : Machine) (x y height : Nibble) :
    (m.draw x y height).reached =
      { m with
        screen := (m.draw x y height).reached.screen
        registers := (m.draw x y height).reached.registers } := by
  unfold draw
  cases m.ram.readBlock m.index.toNat height.val <;> rfl

/-- An operation leaves all parts alone that it does not work on, whether it goes through or
not. -/
theorem reached_execute (m : Machine) (o : Operation) :
    (m.execute o).reached = o.graft m (m.execute o).reached := by
  cases o with
  | ret => exact m.ret_eq
  | call a => exact m.call_eq a
  | skipIfByte x b => exact m.skipIf_eq _
  | skipUnlessByte x b => exact m.skipIf_eq _
  | skipIfEqual x y => exact m.skipIf_eq _
  | skipUnlessEqual x y => exact m.skipIf_eq _
  | skipIfKey x => exact m.skipIf_eq _
  | skipUnlessKey x => exact m.skipIf_eq _
  | draw x y height => exact m.draw_eq x y height
  | glyph x => exact m.pointAtGlyph_eq x
  | _ => rfl

theorem key_execute (m : Machine) (o : Operation) : (m.execute o).reached.key = m.key := by
  rw [reached_execute]
  cases o <;> rfl

theorem dialect_execute (m : Machine) (o : Operation) :
    (m.execute o).reached.dialect = m.dialect := by
  rw [reached_execute]
  cases o <;> rfl

theorem dialect_respond (m : Machine) (e : Event) : (m.respond e).machine.dialect = m.dialect := by
  cases e with
  | tick =>
    have htick := m.tickRule
    unfold respond
    generalize m.tick = t at htick ⊢
    cases htick with
    | run i hmode hfetch => exact dialect_execute ..
    | _ => rfl
  | timer => rfl
  | key k => rfl

end Machine

end Chip8
