import Chip8.Proofs.Machine.Drawing
import Chip8.Proofs.Machine.ProgramCounter
import Mathlib.Algebra.BigOperators.Group.Finset.Basic
import Mathlib.Algebra.BigOperators.Ring.Finset

namespace Chip8

namespace Machine

/-- Executes words one after the other, as long as they go through. -/
def executeAll (m : Machine) : List Instruction → Attempt Machine
  | [] => .done m
  | i :: is =>
    let t := m.execute i.operation
    match t.fault with
    | none => t.reached.executeAll is
    | some f => .stopped t.reached f

theorem executeAll_cons {m m' : Machine} {i : Instruction}
    (h : m.execute i.operation = .done m') (is : List Instruction) :
    m.executeAll (i :: is) = m'.executeAll is := by
  rw [executeAll, h]
  rfl

theorem executeAll_append {m m' : Machine} {is : List Instruction}
    (h : m.executeAll is = .done m') (js : List Instruction) :
    m.executeAll (is ++ js) = m'.executeAll js := by
  induction is generalizing m with
  | nil =>
    cases h
    rfl
  | cons i is ih =>
    rw [List.cons_append]
    cases hfault : (m.execute i.operation).fault with
    | none =>
      rw [executeAll, hfault] at h ⊢
      exact ih h
    | some f =>
      rw [executeAll, hfault] at h
      cases h

/-- Steps that each keep what they need, and turn over the pixels that they cover, together turn
over each pixel as many times as there are steps that cover it. -/
theorem executeAll_flatMap {σ : Type} {words : σ → List Instruction}
    {covers : σ → Nat → Nat → Bool} {Keeps : Machine → Prop}
    (hstep : ∀ s m, Keeps m → ∃ m', m.executeAll (words s) = .done m' ∧ Keeps m' ∧
      ∀ x < 64, ∀ y < 32, m'.screen.pixel x y = (m.screen.pixel x y ^^ covers s x y))
    (steps : List σ) {m : Machine} (hm : Keeps m) :
    ∃ m', m.executeAll (steps.flatMap words) = .done m' ∧ Keeps m' ∧
      ∀ x < 64, ∀ y < 32, m'.screen.pixel x y =
        (m.screen.pixel x y ^^ decide (steps.countP (fun s => covers s x y) % 2 = 1)) := by
  induction steps generalizing m with
  | nil => exact ⟨m, rfl, hm, fun x _ y _ => by simp⟩
  | cons s steps ih =>
    obtain ⟨m', hfirst, hm', hpixel⟩ := hstep s m hm
    obtain ⟨m'', hrest, hm'', hpixels⟩ := ih hm'
    refine ⟨m'', (executeAll_append hfirst _).trans hrest, hm'', fun x hx y hy => ?_⟩
    rw [hpixels x hx y hy, hpixel x hx y hy, Bool.xor_assoc, List.countP_cons]
    generalize (steps.countP fun s => covers s x y) = count
    congr 1
    cases covers s x y with
    | false => simp
    | true =>
      rcases Nat.mod_two_eq_zero_or_one count with hcount | hcount <;>
        simp [hcount, Nat.add_mod]

end Machine

/-- Two words that point the index at a sprite within the memory and draw it, with its origin in
other registers than the flag. -/
structure DrawStep where
  pointing : Instruction
  drawing : Instruction
  points : pointing.selector = 0xA
  draws : drawing.selector = 0xD
  x_ne_flag : drawing.x ≠ Registers.flag
  y_ne_flag : drawing.y ≠ Registers.flag
  within : ∀ r < drawing.n.val, pointing.address.val + r < memorySize
deriving DecidableEq

namespace DrawStep

/-- The words of steps, in order. -/
def words (steps : List DrawStep) : List Instruction :=
  steps.flatMap fun s => [s.pointing, s.drawing]

/-- Whether a set bit of the sprite falls on a pixel, around both edges, by the registers and the
memory of `m`. -/
def Covers (s : DrawStep) (m : Machine) (x y : Nat) : Prop :=
  ∃ r < s.drawing.n.val, ∃ b < 8,
    (m.ram.byte (s.pointing.address.val + r)).toNat.testBit (7 - b) = true ∧
      ((m.register s.drawing.x).toNat + b) % 64 = x ∧
      ((m.register s.drawing.y).toNat + r) % 32 = y

instance (s : DrawStep) (m : Machine) (x y : Nat) : Decidable (s.Covers m x y) :=
  inferInstanceAs (Decidable (∃ r < _, ∃ b < 8, _))

variable {s : DrawStep} {m m' : Machine} {steps : List DrawStep}

/-- The machine that finds the index pointing at the sprite. -/
def pointed (s : DrawStep) (m : Machine) : Machine := { m with index := s.pointing.address.toWord }

theorem execute_pointing (s : DrawStep) (m : Machine) :
    m.execute s.pointing.operation = .done (s.pointed m) := by
  have hoperation : s.pointing.operation = .setIndex s.pointing.address :=
    Instruction.operation_eq_iff.2 ⟨s.points, rfl⟩
  rw [hoperation]
  rfl

end DrawStep

namespace Machine

open DrawStep

variable {m : Machine} {steps steps' : List DrawStep} {s : DrawStep}

/-- The machine after steps. -/
def drawn (m : Machine) (steps : List DrawStep) : Machine := (m.executeAll (words steps)).reached

end Machine

end Chip8
