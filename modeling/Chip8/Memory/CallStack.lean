import Chip8.Fault

namespace Chip8

/-- The return addresses of the calls that are under way, the latest first. -/
structure CallStack where
  returns : List UInt16
  length_le : returns.length ≤ stackDepth
deriving DecidableEq

namespace CallStack

/-- No call is under way. -/
def empty : CallStack := ⟨[], by decide⟩

/-- How many calls are under way. -/
def depth (s : CallStack) : Nat := s.returns.length

/-- Puts a return address on top, if there is room. -/
def push (s : CallStack) (a : UInt16) : Except Fault CallStack :=
  if h : s.depth < stackDepth then .ok ⟨a :: s.returns, h⟩ else .error .stackOverflow

/-- Takes the top return address away, if there is one. -/
def pop : CallStack → Except Fault (UInt16 × CallStack)
  | ⟨[], _⟩ => .error .stackUnderflow
  | ⟨a :: rest, h⟩ => .ok (a, ⟨rest, Nat.le_of_succ_le h⟩)

@[ext] theorem ext {s t : CallStack} (h : s.returns = t.returns) : s = t := by
  cases s
  cases t
  simp_all

theorem pop_push {s t : CallStack} {a : UInt16} (h : s.push a = .ok t) : t.pop = .ok (a, s) := by
  unfold push at h
  split at h
  · cases h
    rfl
  · cases h

theorem pop_eq_ok_iff {s t : CallStack} {a : UInt16} :
    s.pop = .ok (a, t) ↔ s.returns = a :: t.returns := by
  obtain ⟨returns, hlength⟩ := s
  cases returns with
  | nil => simp [pop]
  | cons b rest => simp [pop, CallStack.ext_iff]

theorem pop_eq_error_iff {s : CallStack} {f : Fault} :
    s.pop = .error f ↔ s.depth = 0 ∧ f = .stackUnderflow := by
  obtain ⟨returns, hlength⟩ := s
  cases returns with
  | nil => simp [pop, depth, eq_comm]
  | cons b rest => simp [pop, depth]

theorem push_eq_ok_iff {s t : CallStack} {a : UInt16} :
    s.push a = .ok t ↔ t.returns = a :: s.returns := by
  unfold push
  split
  · simp [CallStack.ext_iff, eq_comm]
  · rename_i hfull
    constructor
    · intro h
      cases h
    · intro h
      have hle := t.length_le
      rw [h] at hle
      exact absurd hle hfull

theorem push_eq_error_iff {s : CallStack} {a : UInt16} {f : Fault} :
    s.push a = .error f ↔ s.depth = stackDepth ∧ f = .stackOverflow := by
  have hle : s.depth ≤ stackDepth := s.length_le
  unfold push
  split
  · rename_i hroom
    simp [Nat.ne_of_lt hroom]
  · rename_i hfull
    have hdepth : s.depth = stackDepth := by omega
    simp [hdepth, eq_comm]

end CallStack

end Chip8
