import Chip8.Proofs.Machine.Failure
import Chip8.Proofs.Machine.History

namespace Chip8

namespace Machine

/-- A machine that has run out of the memory, and meets the fault `f` at every tick. -/
def Lost (m : Machine) (f : Fault) : Prop := m.mode = .running ∧ m.fetch = .error f

theorem Lost.tick {m : Machine} {f : Fault} (h : m.Lost f) : m.tick = ⟨.error f, m, []⟩ := by
  unfold Machine.tick runNext
  rw [h.1, h.2]

/-- Nothing that is done to a lost machine brings it back. -/
theorem Lost.respond {m : Machine} {f : Fault} (h : m.Lost f) (e : Event) :
    (m.respond e).machine.Lost f := by
  cases e with
  | tick =>
    rw [Machine.respond, h.tick]
    exact h
  | timer => exact h
  | key k => exact h

/-- A machine about to store its first four registers across the end of the memory. -/
def storingPastEnd : Machine where
  ram := Ram.fresh.overlay 0x200 [0xF3, 0x55]
  registers := ⟨#v[11, 12, 13, 14, 0, 0, 0, 0, 0, 0, 0, 0, 0, 0, 0, 0]⟩
  index := 0xFFE
  stack := .empty
  screen := .blank
  pc := 0x200
  delay := 0
  mode := .running
  key := 0
  last := none
  dialect := .compliant
  random := .cycling #[]

end Machine

end Chip8
