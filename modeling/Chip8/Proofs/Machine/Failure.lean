import Chip8.Proofs.Machine.Dispatch

namespace Chip8

/-- How many bytes from the index on a word reads or writes, by its nibbles. -/
def Instruction.span (d : Dialect) (i : Instruction) : Nat :=
  if i.selector = 0xD then i.n.val
  else if i.selector = 0xF ∧ i.immediate = 0x33 then if d.stacksDigits then 1 else 3
  else if i.selector = 0xF ∧ (i.immediate = 0x55 ∨ i.immediate = 0x65) then
    if d.transfersExclusive then i.x.val else i.x.val + 1
  else 0

theorem Instruction.span_operation (d : Dialect) (i : Instruction) :
    i.operation.span d = i.span d := by
  have h := i.encodes_operation
  cases ho : i.operation with
  | unsupported j =>
    rw [ho] at h
    obtain ⟨-, ⟨hs, -⟩ | ⟨hs, -⟩ | ⟨hs, -⟩ | ⟨hs, hn⟩⟩ := h
    · simp [Operation.span, span, hs]
    · simp [Operation.span, span, hs]
    · simp [Operation.span, span, hs]
    · simp only [List.mem_cons, List.not_mem_nil, or_false, not_or] at hn
      simp [Operation.span, span, hs, hn]
  | _ =>
    rw [ho] at h
    simp_all [Operation.Encodes, Operation.span, span, Dialect.transferCount]

namespace Machine

theorem obstacle_eq_some_iff {m : Machine} {o : Operation} {f : Fault} :
    m.obstacle o = some f ↔
      o = .ret ∧ m.stack.depth = 0 ∧ f = .stackUnderflow ∨
        (∃ a, o = .call a) ∧ m.stack.depth = stackDepth ∧ f = .stackOverflow ∨
        overrun m.index.toNat (o.span m.dialect) = some f := by
  cases o with
  | ret => simp [obstacle, Operation.span, eq_comm]
  | call a => simp [obstacle, Operation.span, eq_comm]
  | _ => simp [obstacle]

@[simp] theorem outcome_eq_error_iff {o : Option Fault} {f : Fault} :
    outcome o = .error f ↔ o = some f := by
  cases o <;> simp [outcome]

theorem obstacle_next_eq_some_iff {m : Machine} {f : Fault} :
    m.obstacle m.next.operation = some f ↔
      m.next.selector = 0x0 ∧ m.next.n = 0xE ∧ m.stack.depth = 0 ∧ f = .stackUnderflow ∨
        m.next.selector = 0x2 ∧ m.stack.depth = 16 ∧ f = .stackOverflow ∨
        0 < m.next.span m.dialect ∧ 0x1000 < m.index.toNat + m.next.span m.dialect ∧
          f = .outOfBounds (max m.index.toNat 0x1000) := by
  have hret : m.next.operation = .ret ↔ m.next.selector = 0x0 ∧ m.next.n = 0xE :=
    Instruction.operation_eq_iff
  have hcall : (∃ a, m.next.operation = .call a) ↔ m.next.selector = 0x2 := by
    simp [Instruction.operation_eq_iff, Operation.Encodes]
  rw [obstacle_eq_some_iff, hret, hcall, overrun_eq_some_iff, Instruction.span_operation, and_assoc]
  rfl

/-- A tick fails exactly if the machine runs and one of four things stands in its way: the word at
the program counter is not inside the memory; it is a return and no call is under way; it is a call
and the call stack is full; it works on a window of the memory that is not empty and reaches past
the end. Nothing else makes a tick fail. -/
theorem result_tick_eq_error_iff (m : Machine) (f : Fault) :
    m.tick.result = .error f ↔
      m.mode = .running ∧
        (0xFFF ≤ m.pc.toNat ∧ f = .outOfBounds (max m.pc.toNat 0x1000) ∨
          m.pc.toNat < 0xFFF ∧
            (m.next.selector = 0x0 ∧ m.next.n = 0xE ∧ m.stack.depth = 0 ∧ f = .stackUnderflow ∨
              m.next.selector = 0x2 ∧ m.stack.depth = 16 ∧ f = .stackOverflow ∨
              0 < m.next.span m.dialect ∧ 0x1000 < m.index.toNat + m.next.span m.dialect ∧
                f = .outOfBounds (max m.index.toNat 0x1000))) := by
  rw [← obstacle_next_eq_some_iff]
  have htick := m.tickRule
  generalize m.tick = t at htick ⊢
  cases htick with
  | wait x hmode hkey => simp [hmode]
  | accept x hmode hkey => simp [hmode]
  | lost g hmode hfetch =>
    obtain ⟨hpc, rfl⟩ := fetch_eq_error_iff.1 hfetch
    simp [hmode, hpc, Nat.not_lt.2 hpc, eq_comm]
  | run i hmode hfetch =>
    obtain ⟨hpc, rfl⟩ := fetch_eq_ok_iff.1 hfetch
    simp [hmode, hpc, Nat.not_le.2 hpc]

end Machine

end Chip8
