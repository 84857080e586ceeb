import Chip8.Proofs.Machine.Dispatch

namespace Chip8

/-- What whoever drives a machine can do to it. -/
inductive Event
  | tick
  | timer
  | key (k : UInt8)
deriving DecidableEq

/-- How a machine takes an event. Only a tick has a result. -/
structure Response where
  result : Option (Except Fault Signal)
  machine : Machine
  log : List Record

namespace Machine

def respond (m : Machine) : Event → Response
  | .tick => ⟨some m.tick.result, m.tick.machine, m.tick.log⟩
  | .timer => ⟨none, m.timerTick, []⟩
  | .key k => ⟨none, m.setKey k, []⟩

/-- The machine after a run of events. -/
def after (m : Machine) : List Event → Machine
  | [] => m
  | e :: es => (m.respond e).machine.after es

/-- The responses to a run of events, in order. -/
def history (m : Machine) : List Event → List Response
  | [] => []
  | e :: es => m.respond e :: (m.respond e).machine.history es

/-- The machines that the ticks of a run find, in order. -/
def atTicks (m : Machine) : List Event → List Machine
  | [] => []
  | .tick :: es => m :: m.tick.machine.atTicks es
  | .timer :: es => m.timerTick.atTicks es
  | .key k :: es => (m.setKey k).atTicks es

/-- The instruction that a tick takes up and carries out. -/
def completed (m : Machine) : Option Instruction :=
  match m.tick.result with
  | .ok .executed => m.dispatched
  | _ => none

/-- The instructions that a run carries out, in order. -/
def completions (m : Machine) (es : List Event) : List Instruction :=
  (m.atTicks es).filterMap completed

/-- The instruction that an event makes the machine carry out. -/
def completion (m : Machine) : Event → Option Instruction
  | .tick => m.completed
  | _ => none

theorem completed_eq_some_iff {m : Machine} {i : Instruction} :
    m.completed = some i ↔
      m.mode = .running ∧ m.fetch = .ok i ∧ m.obstacle i.operation = none := by
  have htick := m.tickRule
  unfold completed
  generalize m.tick = t at htick ⊢
  cases htick with
  | wait x hmode hkey => simp [hmode]
  | accept x hmode hkey => simp [hmode]
  | lost f hmode hfetch => simp [hfetch]
  | run j hmode hfetch =>
    cases hobstacle : m.obstacle j.operation with
    | none =>
      change m.dispatched = some i ↔ _
      rw [dispatched_eq_some_iff]
      constructor
      · rintro ⟨-, hi⟩
        rw [hfetch] at hi
        cases hi
        exact ⟨hmode, hfetch, hobstacle⟩
      · rintro ⟨-, hi, -⟩
        exact ⟨hmode, hi⟩
    | some f =>
      constructor
      · intro h
        cases h
      · rintro ⟨-, hi, hnone⟩
        rw [hfetch] at hi
        cases hi
        rw [hobstacle] at hnone
        cases hnone

theorem completions_cons (m : Machine) (e : Event) (es : List Event) :
    m.completions (e :: es) = (m.completion e).toList ++ (m.respond e).machine.completions es := by
  cases e with
  | tick =>
    change (m :: m.tick.machine.atTicks es).filterMap completed = _
    rw [List.filterMap_cons]
    change _ = m.completed.toList ++ _
    cases m.completed <;> rfl
  | timer => rfl
  | key k => rfl

@[simp] theorem after_nil (m : Machine) : m.after [] = m := rfl

@[simp] theorem after_cons (m : Machine) (e : Event) (es : List Event) :
    m.after (e :: es) = (m.respond e).machine.after es := rfl

theorem after_append (m : Machine) (es fs : List Event) :
    m.after (es ++ fs) = (m.after es).after fs := by
  induction es generalizing m with
  | nil => rfl
  | cons e es ih => exact ih _

/-- What holds of a machine and is kept by every event holds after every run. -/
theorem after_induction {P : Machine → Prop} (m : Machine) (h : P m)
    (hstep : ∀ s e, P s → P (s.respond e).machine) (es : List Event) : P (m.after es) := by
  induction es generalizing m with
  | nil => exact h
  | cons e es ih => exact ih _ (hstep m e h)

end Machine

end Chip8
