import Chip8.Machine.Execute
import Chip8.Proofs.Memory.Window

namespace Chip8

/-- How many registers a block transfer up to `x` moves. -/
def Dialect.transferCount (d : Dialect) (x : Nibble) : Nat :=
  if d.transfersExclusive then x.val else x.val + 1

theorem Dialect.transferCount_le (d : Dialect) (x : Nibble) : d.transferCount x ≤ 16 := by
  unfold transferCount
  split <;> omega

/-- How many bytes from the index on an operation reads or writes. -/
def Operation.span (d : Dialect) : Operation → Nat
  | draw _ _ height => height.val
  | decimal _ => if d.stacksDigits then 1 else 3
  | store x => d.transferCount x
  | load x => d.transferCount x
  | _ => 0

namespace Machine

/-- The fault that keeps a machine from carrying out an operation. -/
def obstacle (m : Machine) : Operation → Option Fault
  | .ret => if m.stack.depth = 0 then some .stackUnderflow else none
  | .call _ => if m.stack.depth = stackDepth then some .stackOverflow else none
  | o => overrun m.index.toNat (o.span m.dialect)

/-- The bytes that the digits of a register leave in the memory. -/
def digitBytes (m : Machine) (x : Nibble) : List UInt8 :=
  if m.dialect.stacksDigits then [m.register x % 10] else decimalDigits (m.register x)

/-- The bytes that a block transfer up to `x` sends to the memory. -/
def registerBytes (m : Machine) (x : Nibble) : List UInt8 :=
  m.registers.toList.take (m.dialect.transferCount x)

theorem length_registerBytes (m : Machine) (x : Nibble) :
    (m.registerBytes x).length = m.dialect.transferCount x := by
  have hle := m.dialect.transferCount_le x
  simp [registerBytes, Registers.toList, hle]

theorem byte_overlay_digitBytes_inside {m : Machine} {x : Nibble} {j : Nat} {d : UInt8}
    (hd : ¬ m.dialect.stacksDigits = true) (hdigit : (decimalDigits (m.register x))[j]? = some d)
    (h : m.index.toNat + j < 0x1000) :
    (m.ram.overlay m.index.toNat (m.digitBytes x)).byte (m.index.toNat + j) = d := by
  obtain ⟨hj, rfl⟩ := List.getElem?_eq_some_iff.1 hdigit
  rw [digitBytes, if_neg hd, Ram.byte_overlay_inside hj h]

theorem byte_overlay_digitBytes_outside {m : Machine} {x : Nibble} {a : Nat}
    (hd : ¬ m.dialect.stacksDigits = true) (h : ∀ j < 3, a ≠ m.index.toNat + j) :
    (m.ram.overlay m.index.toNat (m.digitBytes x)).byte a = m.ram.byte a := by
  rw [digitBytes, if_neg hd]
  have hlength : (decimalDigits (m.register x)).length = 3 := rfl
  exact Ram.byte_overlay_outside (by rwa [hlength]) m.ram

theorem byte_overlay_registerBytes_inside {m : Machine} {x j : Nibble}
    (hj : j.val < m.dialect.transferCount x) (h : m.index.toNat + j.val < 0x1000) :
    (m.ram.overlay m.index.toNat (m.registerBytes x)).byte (m.index.toNat + j.val) =
      m.register j := by
  rw [Ram.byte_overlay_inside (by rwa [length_registerBytes]) h]
  simp [registerBytes, Registers.toList, register, Registers.get_eq]

theorem byte_overlay_registerBytes_outside {m : Machine} {x : Nibble} {a : Nat}
    (h : ∀ j : Nibble, j.val < m.dialect.transferCount x → a ≠ m.index.toNat + j.val) :
    (m.ram.overlay m.index.toNat (m.registerBytes x)).byte a = m.ram.byte a := by
  apply Ram.byte_overlay_outside
  intro j hj
  rw [length_registerBytes] at hj
  have hnibble : j < 16 := Nat.lt_of_lt_of_le hj (m.dialect.transferCount_le x)
  exact h ⟨j, hnibble⟩ hj

/-- What an operation that meets an obstacle has done by then: a transfer has come as far as the
memory reaches, any other operation has done nothing. -/
def cutShort (m : Machine) : Operation → Machine
  | .decimal x => { m with ram := m.ram.overlay m.index.toNat (m.digitBytes x) }
  | .store x => { m with ram := m.ram.overlay m.index.toNat (m.registerBytes x) }
  | .load x =>
    { m with
      registers := m.registers.fill m.ram m.index.toNat (m.dialect.transferCount x) }
  | _ => m

theorem storeRegisters_eq (m : Machine) (x : Nibble) :
    m.storeRegisters x =
      ⟨{ m with ram := m.ram.overlay m.index.toNat (m.registerBytes x) },
        overrun m.index.toNat (m.dialect.transferCount x)⟩ := by
  have hcells := m.registers.cells_take m.index.toNat (m.dialect.transferCount x)
  have hwrite := m.ram.writeEach_eq m.index.toNat (m.registerBytes x)
  rw [length_registerBytes, registerBytes, ← hcells] at hwrite
  exact congrArg (Attempt.map fun ram => { m with ram }) hwrite

theorem loadRegisters_eq (m : Machine) (x : Nibble) :
    m.loadRegisters x =
      ⟨{ m with registers := m.registers.fill m.ram m.index.toNat (m.dialect.transferCount x) },
        overrun m.index.toNat (m.dialect.transferCount x)⟩ := by
  have hload := m.registers.loadEach_eq m.ram m.index.toNat (m.dialect.transferCount_le x)
  exact congrArg (Attempt.map fun registers => { m with registers }) hload

theorem storeDigits_eq (m : Machine) (x : Nibble) :
    m.storeDigits x =
      ⟨{ m with ram := m.ram.overlay m.index.toNat (m.digitBytes x) },
        overrun m.index.toNat ((Operation.decimal x).span m.dialect)⟩ := by
  unfold digitBytes Operation.span
  by_cases hd : m.dialect.stacksDigits
  · have hwrite := m.ram.writeEach_same m.index.toNat (m.register x / 100)
      (m.register x / 10 % 10) (m.register x % 10)
    simp only [storeDigits, hd, if_true]
    exact congrArg (Attempt.map fun ram => { m with ram }) hwrite
  · have hwrite := m.ram.writeEach_eq m.index.toNat (decimalDigits (m.register x))
    simp only [storeDigits, hd]
    exact congrArg (Attempt.map fun ram => { m with ram }) hwrite

theorem fault_ret (m : Machine) : m.ret.fault = m.obstacle .ret := by
  unfold ret obstacle
  cases hpop : m.stack.pop with
  | error f =>
    obtain ⟨hdepth, rfl⟩ := CallStack.pop_eq_error_iff.1 hpop
    rw [if_pos hdepth]
    rfl
  | ok top =>
    have hdepth : m.stack.depth ≠ 0 := by
      intro h
      rw [CallStack.pop_eq_error_iff.2 ⟨h, rfl⟩] at hpop
      cases hpop
    rw [if_neg hdepth]
    rfl

theorem fault_call (m : Machine) (a : Address) : (m.call a).fault = m.obstacle (.call a) := by
  unfold call obstacle
  cases hpush : m.stack.push m.pc with
  | error f =>
    obtain ⟨hdepth, rfl⟩ := CallStack.push_eq_error_iff.1 hpush
    rw [if_pos hdepth]
    rfl
  | ok stack =>
    have hdepth : m.stack.depth ≠ stackDepth := by
      intro h
      rw [CallStack.push_eq_error_iff.2 ⟨h, rfl⟩] at hpush
      cases hpush
    rw [if_neg hdepth]
    rfl

theorem fault_draw (m : Machine) (x y height : Nibble) :
    (m.draw x y height).fault = m.obstacle (.draw x y height) := by
  change _ = overrun m.index.toNat height.val
  unfold draw
  rw [Ram.readBlock_eq]
  cases overrun m.index.toNat height.val <;> rfl

/-- An operation meets exactly its obstacle. -/
theorem fault_execute (m : Machine) (o : Operation) : (m.execute o).fault = m.obstacle o := by
  cases o with
  | ret => exact m.fault_ret
  | call a => exact m.fault_call a
  | draw x y height => exact m.fault_draw x y height
  | decimal x => rw [execute, storeDigits_eq]; rfl
  | store x => rw [execute, storeRegisters_eq]; rfl
  | load x => rw [execute, loadRegisters_eq]; rfl
  | _ => simp [execute, obstacle, Operation.span, Attempt.done]

/-- An operation that is all or nothing leaves the machine as it was when it fails. -/
theorem reached_ofExcept {α : Type} {before : α} {e : Except Fault α}
    (h : (Attempt.ofExcept before e).fault ≠ none) :
    (Attempt.ofExcept before e).reached = before := by
  cases e with
  | error f => rfl
  | ok after => exact absurd rfl h

theorem reached_execute_of_obstacle {m : Machine} {o : Operation} (h : m.obstacle o ≠ none) :
    (m.execute o).reached = m.cutShort o := by
  have hfault := h
  rw [← fault_execute] at hfault
  cases o with
  | ret => exact reached_ofExcept hfault
  | call a => exact reached_ofExcept hfault
  | draw x y height => exact reached_ofExcept hfault
  | decimal x => rw [execute, storeDigits_eq]; rfl
  | store x => rw [execute, storeRegisters_eq]; rfl
  | load x => rw [execute, loadRegisters_eq]; rfl
  | _ => simp [obstacle, Operation.span] at h

end Machine

end Chip8
