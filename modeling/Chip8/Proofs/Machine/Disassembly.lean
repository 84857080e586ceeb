import Chip8.Proofs.Instruction.Assembly
import Chip8.Proofs.Machine.Boot
import Chip8.Proofs.Machine.Change

namespace Chip8

namespace Machine

variable {m : Machine} {i j : Instruction}

/-- Words with one text are carried out alike by every machine: nothing that the text leaves out
bears on what an instruction does, on whether it fails or on what it adds to the log. -/
theorem execution_told_by_mnemonic (h : i.mnemonic = j.mnemonic) (m : Machine) :
    m.execute i.operation = m.execute j.operation ∧
      i.operation.remarks = j.operation.remarks ∧
      (m.pass j).execute j.operation =
        ((m.pass i).execute i.operation).map fun s => { s with last := some j } := by
  have hoperation : i.operation = j.operation := Instruction.operation_eq_of_mnemonic h
  rw [hoperation]
  refine ⟨rfl, rfl, ?_⟩
  have hspares : Change.Spares { last := fun _ => some j } j.operation := by
    cases j.operation <;> simp [Change.Spares]
  exact execute_change (m := m.pass i) hspares

/-- Two shifts that name different second registers. -/
theorem execution_told_by_mnemonic_shift :
    (⟨0x8016⟩ : Instruction).mnemonic = Instruction.mnemonic ⟨0x80A6⟩ ∧
      ∀ m : Machine, m.execute (Instruction.operation ⟨0x8016⟩) =
        m.execute (Instruction.operation ⟨0x80A6⟩) := by
  have htext : (⟨0x8016⟩ : Instruction).mnemonic = Instruction.mnemonic ⟨0x80A6⟩ := by decide
  exact ⟨htext, fun m => (execution_told_by_mnemonic htext m).1⟩

/-- What a run adds to the log. -/
def logged (m : Machine) (es : List Event) : List Record := (m.history es).flatMap Response.log

/-- The record of the instruction that the next tick takes up. -/
def trace (m : Machine) : Option Record := m.dispatched.map (.fetched m.pc)

namespace Remarked

variable {t : Tick} {rest : List Record}

end Remarked

end Machine

end Chip8
