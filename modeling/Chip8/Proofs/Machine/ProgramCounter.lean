import Chip8.Proofs.Machine.Subroutine

namespace Chip8

theorem Address.toNat_toWord (a : Address) : a.toWord.toNat = a.val := by
  have hlt : a.val < 65536 := Nat.lt_trans a.isLt (by decide)
  exact UInt16.toNat_ofNat_of_lt' hlt

namespace Machine

/-- Whether an operation makes the machine pass over the next instruction. -/
def skips (m : Machine) : Operation → Bool
  | .skipIfByte x b => m.register x == b
  | .skipUnlessByte x b => m.register x != b
  | .skipIfEqual x y => m.register x == m.register y
  | .skipUnlessEqual x y => m.register x != m.register y
  | .skipIfKey x => m.register x == m.key
  | .skipUnlessKey x => m.register x != m.key
  | _ => false

/-- Where a machine goes on after the operation at its program counter, if addresses had no
bound. -/
def destination (m : Machine) : Operation → Nat
  | .jump a => a.val
  | .jumpOffset a => a.val + (m.register 0).toNat
  | .call a => if m.stack.depth < stackDepth then a.val else m.pc.toNat + 2
  | .ret => m.stack.returns.head?.elim (m.pc.toNat + 2) UInt16.toNat
  | o => m.pc.toNat + if m.skips o then 4 else 2

theorem pc_ret (m : Machine) : m.ret.reached.pc = m.stack.returns.head?.getD m.pc := by
  unfold ret
  cases hpop : m.stack.pop with
  | error f =>
    have hdepth := (CallStack.pop_eq_error_iff.1 hpop).1
    have hempty : m.stack.returns = [] := List.length_eq_zero_iff.1 hdepth
    rw [hempty]
    rfl
  | ok top =>
    rw [CallStack.pop_eq_ok_iff.1 hpop]
    rfl

theorem pc_call (m : Machine) (a : Address) :
    (m.call a).reached.pc = if m.stack.depth < stackDepth then a.toWord else m.pc := by
  unfold call CallStack.push
  split <;> rfl

theorem toNat_pc_skipIf {m : Machine} (h : m.pc.toNat + 2 < 65536) (condition : Bool) :
    (m.skipIf condition).pc.toNat = m.pc.toNat + if condition then 2 else 0 := by
  cases condition with
  | false => rfl
  | true =>
    have hsum : (m.pc + 2).toNat = (m.pc.toNat + 2) % 65536 := UInt16.toNat_add ..
    exact hsum.trans (Nat.mod_eq_of_lt h)

theorem toNat_pc_jumpOffset (m : Machine) (a : Address) :
    (a.toWord + (m.register 0).toUInt16).toNat = a.val + (m.register 0).toNat := by
  have hbase := a.isLt
  have hoffset := (m.register 0).toNat_lt
  rw [UInt16.toNat_add, Address.toNat_toWord, UInt8.toNat_toUInt16, Nat.mod_eq_of_lt (by omega)]

/-- The program counter takes no notice of its width. -/
theorem toNat_pc_execute {m : Machine} {i : Instruction} (h : m.fetch = .ok i) (o : Operation) :
    ((m.pass i).execute o).reached.pc.toNat = m.destination o := by
  have hpass := pass_pc_toNat h
  have hinside := (fetch_eq_ok_iff.1 h).1
  have hskip (condition : Bool) :
      ((m.pass i).skipIf condition).pc.toNat = m.pc.toNat + if condition then 4 else 2 := by
    rw [toNat_pc_skipIf (by omega), hpass]
    cases condition <;> rfl
  cases o with
  | jump a => exact a.toNat_toWord
  | jumpOffset a => exact m.toNat_pc_jumpOffset a
  | call a =>
    change ((m.pass i).call a).reached.pc.toNat = if m.stack.depth < stackDepth then _ else _
    rw [pc_call, ← hpass, ← a.toNat_toWord]
    exact apply_ite UInt16.toNat ..
  | ret =>
    change (m.pass i).ret.reached.pc.toNat = m.stack.returns.head?.elim _ _
    rw [pc_ret, ← hpass]
    change (m.stack.returns.head?.getD _).toNat = _
    cases m.stack.returns <;> rfl
  | skipIfByte x b => exact hskip _
  | skipUnlessByte x b => exact hskip _
  | skipIfEqual x y => exact hskip _
  | skipUnlessEqual x y => exact hskip _
  | skipIfKey x => exact hskip _
  | skipUnlessKey x => exact hskip _
  | _ =>
    rw [reached_execute]
    exact hpass

/-- The program counter is no further than the longest jump, and every call comes back behind an
instruction in the memory. -/
structure InRange (m : Machine) : Prop where
  pc_le : m.pc.toNat ≤ 0x10FE
  returns : ∀ a ∈ m.stack.returns, 2 ≤ a.toNat ∧ a.toNat ≤ 0x1000

theorem inRange_boot {program : Array UInt8} {d : Dialect} {source : ByteSource} {m : Machine}
    (h : boot program d source = .ok m) : m.InRange where
  pc_le := by
    rw [pc_boot h]
    decide
  returns a ha := by
    rw [stack_boot h] at ha
    cases ha

theorem InRange.destination_le {m : Machine} {i : Instruction} (hm : m.InRange)
    (h : m.fetch = .ok i) (o : Operation) : m.destination o ≤ 0x10FE := by
  have hinside := (fetch_eq_ok_iff.1 h).1
  have hstep (condition : Bool) : m.pc.toNat + (if condition then 4 else 2) ≤ 0x10FE := by
    split <;> omega
  cases o with
  | jump a =>
    have htarget := a.isLt
    have heq : m.destination (.jump a) = a.val := rfl
    omega
  | jumpOffset a =>
    have hbase := a.isLt
    have hoffset := (m.register 0).toNat_lt
    have heq : m.destination (.jumpOffset a) = a.val + (m.register 0).toNat := rfl
    omega
  | call a =>
    have htarget := a.isLt
    have heq : m.destination (.call a) =
        if m.stack.depth < stackDepth then a.val else m.pc.toNat + 2 := rfl
    rw [heq]
    split <;> omega
  | ret =>
    have hreturns := hm.returns
    unfold destination
    cases hlist : m.stack.returns with
    | nil => exact hstep false
    | cons a rest =>
      have htop := (hreturns a (hlist ▸ List.mem_cons_self)).2
      exact Nat.le_trans htop (by decide)
  | _ => exact hstep _

theorem InRange.returns_respond {m : Machine} (hm : m.InRange) (e : Event) :
    ∀ a ∈ (m.respond e).machine.stack.returns, 2 ≤ a.toNat ∧ a.toNat ≤ 0x1000 := by
  cases m.stackRule e with
  | call i hi hcall hreturns =>
    rw [hreturns]
    intro a ha
    obtain rfl | ha := List.mem_cons.1 ha
    · cases e with
      | tick =>
        obtain ⟨-, hfetch, -⟩ := completed_eq_some_iff.1 hi
        have hpass : (m.pc + 2).toNat = m.pc.toNat + 2 := pass_pc_toNat hfetch
        have hinside := (fetch_eq_ok_iff.1 hfetch).1
        omega
      | timer => cases hi
      | key k => cases hi
    · exact hm.returns a ha
  | ret i hi hreturn hreturns =>
    intro a ha
    refine hm.returns a ?_
    rw [hreturns]
    exact List.mem_cons_of_mem _ ha
  | keep hi hstack =>
    rw [hstack]
    exact hm.returns

theorem InRange.pc_tick_le {m : Machine} (hm : m.InRange) : m.tick.machine.pc.toNat ≤ 0x10FE := by
  have htick := m.tickRule
  generalize m.tick = t at htick ⊢
  cases htick with
  | run i hmode hfetch =>
    rw [toNat_pc_execute hfetch]
    exact hm.destination_le hfetch _
  | _ => exact hm.pc_le

theorem InRange.respond {m : Machine} (hm : m.InRange) (e : Event) :
    (m.respond e).machine.InRange where
  pc_le := by
    cases e with
    | tick => exact hm.pc_tick_le
    | timer => exact hm.pc_le
    | key k => exact hm.pc_le
  returns := hm.returns_respond e

/-- In every machine that a run reaches the program counter and the return addresses are in range.
So the program counter goes where it would go if it had no width: past the instruction that has been
fetched, over the one behind it, or to the target of a jump; and the log names the address from
which an instruction was fetched. -/
theorem program_counter_in_range {program : Array UInt8} {d : Dialect} {source : ByteSource}
    {m : Machine} (h : boot program d source = .ok m) (es : List Event) :
    (m.after es).pc.toNat ≤ 0x10FE ∧ (m.after es).stack.depth ≤ 16 ∧
      (∀ a ∈ (m.after es).stack.returns, 2 ≤ a.toNat ∧ a.toNat ≤ 0x1000) ∧
      ∀ i, (m.after es).dispatched = some i →
        ((m.after es).pass i).pc.toNat = (m.after es).pc.toNat + 2 ∧
        (m.after es).tick.machine.pc.toNat = (m.after es).destination i.operation ∧
        ∃ a, (m.after es).tick.log = .fetched a i :: i.operation.remarks ∧
          a = ((m.after es).pass i).pc - 2 ∧ a.toNat + 2 = ((m.after es).pass i).pc.toNat ∧
          i = .ofBytes ((m.after es).ram.byte a.toNat) ((m.after es).ram.byte (a.toNat + 1)) := by
  have hkept (s : Machine) (e : Event) (hs : s.InRange) : (s.respond e).machine.InRange :=
    hs.respond e
  have hafter := m.after_induction (inRange_boot h) hkept es
  refine ⟨hafter.pc_le, (m.after es).stack.length_le, hafter.returns, fun i hi => ?_⟩
  obtain ⟨hmode, hfetch⟩ := dispatched_eq_some_iff.1 hi
  have hpass := pass_pc_toNat hfetch
  have htick := tick_of_fetch hmode hfetch
  have hback : ((m.after es).pass i).pc - 2 = (m.after es).pc := UInt16.add_sub_cancel ..
  refine ⟨hpass, ?_, (m.after es).pc, ?_, hback.symm, hpass.symm, (fetch_eq_ok_iff.1 hfetch).2⟩
  · rw [htick]
    exact toNat_pc_execute hfetch _
  · rw [htick]

/-- A program that makes the longest jump there is. -/
theorem program_counter_in_range_farthest :
    ∃ m, boot #[0x60, 0xFF, 0xBF, 0xFF] .compliant (.cycling #[]) = .ok m ∧
      (m.after [.tick]).dispatched = some ⟨0xBFFF⟩ ∧
      (m.after [.tick, .tick]).pc.toNat = 0x10FE := by
  have hboot : ∃ m, boot #[0x60, 0xFF, 0xBF, 0xFF] .compliant (.cycling #[]) = .ok m :=
    exists_boot (by decide) _ _
  obtain ⟨m, hm⟩ := hboot
  have htick : m.tick.machine =
      { m with pc := 0x202, last := some ⟨0x60FF⟩, registers := m.registers.set 0 0xFF } := by
    rw [tick_of_fetch (mode_boot hm) (fetch_boot hm (by decide))]
    obtain ⟨ram, -, rfl⟩ := boot_eq_ok hm
    rfl
  have hfetch : m.tick.machine.fetch = .ok ⟨0xBFFF⟩ :=
    fetch_of_ram_eq hm (k := 2) (by rw [htick]) (by decide) (by rw [htick]; rfl)
  have hdispatched : m.tick.machine.dispatched = some ⟨0xBFFF⟩ := by
    have hmode := mode_boot hm
    refine dispatched_eq_some_iff.2 ⟨?_, hfetch⟩
    rw [htick]
    exact hmode
  obtain ⟨-, -, -, hrun⟩ := program_counter_in_range hm [.tick]
  refine ⟨m, hm, hdispatched, (hrun _ hdispatched).2.1.trans ?_⟩
  have hregister : m.tick.machine.register 0 = 0xFF := by
    rw [htick]
    exact Registers.get_set_self ..
  change 0xFFF + (m.tick.machine.register 0).toNat = 0x10FE
  rw [hregister]
  rfl

end Machine

end Chip8
