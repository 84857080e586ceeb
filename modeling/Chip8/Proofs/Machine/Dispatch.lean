import Chip8.Machine.Tick
import Chip8.Proofs.Instruction.Encoding
import Chip8.Proofs.Machine.Obstacle

namespace Chip8

namespace Machine

/-- The instruction whose two bytes stand at the program counter. -/
def next (m : Machine) : Instruction :=
  .ofBytes (m.ram.byte m.pc.toNat) (m.ram.byte (m.pc.toNat + 1))

theorem fetch_of_lt {m : Machine} (h : m.pc.toNat < 0xFFF) : m.fetch = .ok m.next := by
  have hhigh : m.pc.toNat < memorySize := by simp only [memorySize]; omega
  have hlow : m.pc.toNat + 1 < memorySize := by simp only [memorySize]; omega
  unfold fetch
  rw [Ram.read_eq_ok _ hhigh, Ram.read_eq_ok _ hlow]
  rfl

theorem fetch_of_le {m : Machine} (h : 0xFFF ≤ m.pc.toNat) :
    m.fetch = .error (.outOfBounds (max m.pc.toNat 0x1000)) := by
  unfold fetch
  by_cases hlast : m.pc.toNat = 0xFFF
  · rw [hlast, Ram.read_eq_ok _ (by decide), Ram.read_of_le _ (by decide)]
    rfl
  · have hpast : 0x1000 ≤ m.pc.toNat := by omega
    rw [Ram.read_of_le _ hpast, Nat.max_eq_left hpast]

theorem fetch_eq_ok_iff {m : Machine} {i : Instruction} :
    m.fetch = .ok i ↔ m.pc.toNat < 0xFFF ∧ i = m.next := by
  by_cases h : m.pc.toNat < 0xFFF
  · simp [fetch_of_lt h, h, eq_comm]
  · simp [fetch_of_le (Nat.not_lt.1 h), h]

theorem fetch_eq_error_iff {m : Machine} {f : Fault} :
    m.fetch = .error f ↔ 0xFFF ≤ m.pc.toNat ∧ f = .outOfBounds (max m.pc.toNat 0x1000) := by
  by_cases h : m.pc.toNat < 0xFFF
  · simp [fetch_of_lt h, Nat.not_le.2 h]
  · have hle : 0xFFF ≤ m.pc.toNat := Nat.not_lt.1 h
    simp [fetch_of_le hle, hle, eq_comm]

theorem pass_pc_toNat {m : Machine} {i : Instruction} (h : m.fetch = .ok i) :
    (m.pass i).pc.toNat = m.pc.toNat + 2 := by
  have hpc := (fetch_eq_ok_iff.1 h).1
  have hsum : (m.pc + 2).toNat = (m.pc.toNat + 2) % 65536 := UInt16.toNat_add ..
  change (m.pc + 2).toNat = _
  rw [hsum, Nat.mod_eq_of_lt (by omega)]

/-- The instruction that a tick takes up. There is none if the machine waits for a key, or if its
program counter has left the memory. -/
def dispatched (m : Machine) : Option Instruction :=
  match m.mode with
  | .running => m.fetch.toOption
  | .awaitingKey _ => none

theorem dispatched_eq_some_iff {m : Machine} {i : Instruction} :
    m.dispatched = some i ↔ m.mode = .running ∧ m.fetch = .ok i := by
  unfold dispatched
  cases m.mode with
  | running => cases m.fetch <;> simp [Except.toOption]
  | awaitingKey x => simp

/-- Whether the next tick takes up a word with the given property. -/
def TakesUp (m : Machine) (P : Instruction → Prop) : Prop := ∃ i, m.dispatched = some i ∧ P i

/-- The outcome of a tick that has met an obstacle, or none. -/
def outcome : Option Fault → Except Fault Signal
  | none => .ok .executed
  | some f => .error f

theorem tick_of_fetch {m : Machine} {i : Instruction} (hmode : m.mode = .running)
    (hfetch : m.fetch = .ok i) :
    m.tick =
      { result := outcome (m.obstacle i.operation)
        machine := ((m.pass i).execute i.operation).reached
        log := .fetched m.pc i :: i.operation.remarks } := by
  have hobstacle : (m.pass i).obstacle i.operation = m.obstacle i.operation := rfl
  unfold tick runNext
  rw [hmode, hfetch]
  dsimp only
  rw [fault_execute, hobstacle]
  cases m.obstacle i.operation <;> rfl

/-- The four ways of a tick: it waits, it takes a key, it finds no instruction, or it takes one
up. -/
inductive TickRule (m : Machine) : Tick → Prop
  | wait (x : Nibble) : m.mode = .awaitingKey x → m.key = 0 → TickRule m ⟨.ok .awaitingKey, m, []⟩
  | accept (x : Nibble) : m.mode = .awaitingKey x → m.key ≠ 0 →
    TickRule m
      ⟨.ok .keyAccepted, { m.setRegister x m.key with mode := .running }, [.keyStored m.key x]⟩
  | lost (f : Fault) : m.mode = .running → m.fetch = .error f → TickRule m ⟨.error f, m, []⟩
  | run (i : Instruction) : m.mode = .running → m.fetch = .ok i →
    TickRule m
      { result := outcome (m.obstacle i.operation)
        machine := ((m.pass i).execute i.operation).reached
        log := .fetched m.pc i :: i.operation.remarks }

theorem tickRule (m : Machine) : m.TickRule m.tick := by
  cases hmode : m.mode with
  | awaitingKey x =>
    have htick : m.tick = m.acceptKey x := by
      unfold tick
      rw [hmode]
    rw [htick, acceptKey]
    split
    · rename_i hkey
      exact .wait x hmode hkey
    · rename_i hkey
      exact .accept x hmode hkey
  | running =>
    cases hfetch : m.fetch with
    | error f =>
      have htick : m.tick = ⟨.error f, m, []⟩ := by
        unfold tick runNext
        rw [hmode, hfetch]
      rw [htick]
      exact .lost f hmode hfetch
    | ok i =>
      rw [tick_of_fetch hmode hfetch]
      exact .run i hmode hfetch

end Machine

end Chip8
