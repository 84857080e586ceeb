import Chip8.Proofs.Machine.Dispatch

namespace Chip8

namespace Machine

variable {program : Array UInt8} {d : Dialect} {source : ByteSource} {m : Machine}

/-- A machine that has just been started. -/
theorem boot_eq_ok (h : boot program d source = .ok m) :
    ∃ ram, Ram.fresh.load program = .ok ram ∧
      m = { ram, registers := .zero, index := 0, stack := .empty, screen := .blank,
            pc := UInt16.ofNat programStart, delay := 0, mode := .running, key := 0, last := none,
            dialect := d, random := source } := by
  unfold boot Memory.load at h
  cases hload : Memory.fresh.ram.load program with
  | error f =>
    rw [hload] at h
    cases h
  | ok ram =>
    rw [hload] at h
    cases h
    exact ⟨ram, hload, rfl⟩

theorem mode_boot (h : boot program d source = .ok m) : m.mode = .running := by
  obtain ⟨ram, -, rfl⟩ := boot_eq_ok h
  rfl

theorem stack_boot (h : boot program d source = .ok m) : m.stack = .empty := by
  obtain ⟨ram, -, rfl⟩ := boot_eq_ok h
  rfl

theorem pc_boot (h : boot program d source = .ok m) : m.pc = 0x200 := by
  obtain ⟨ram, -, rfl⟩ := boot_eq_ok h
  rfl

theorem load_boot (h : boot program d source = .ok m) : Ram.fresh.load program = .ok m.ram := by
  obtain ⟨ram, hload, rfl⟩ := boot_eq_ok h
  exact hload

theorem exists_boot (h : program.size ≤ programCapacity) (d : Dialect) (source : ByteSource) :
    ∃ m, boot program d source = .ok m := by
  obtain ⟨ram, hload⟩ := Ram.load_eq_ok h Ram.fresh
  have hfresh : Memory.fresh.ram.load program = .ok ram := hload
  unfold boot Memory.load
  rw [hfresh]
  exact ⟨_, rfl⟩

/-- A word of the program is fetched as it was loaded, as long as nothing has been written. -/
theorem fetch_of_load (hload : Ram.fresh.load program = .ok m.ram) {k : Nat}
    (hk : k + 2 ≤ program.size) (hpc : m.pc.toNat = programStart + k) :
    m.fetch = .ok (.ofBytes (program.getD k 0) (program.getD (k + 1) 0)) := by
  have hsize := Ram.size_le_of_load hload
  simp only [programCapacity, memorySize] at hsize
  simp only [programStart] at hpc hsize
  have hbyte (j : Nat) (hj : j < program.size) :
      m.ram.byte (0x200 + j) = program.getD j 0 := by
    rw [Ram.byte_load hload, if_pos]
    · simp only [programStart, Nat.add_sub_cancel_left]
    · simp only [programStart]
      omega
  have hhigh := hbyte k (by omega)
  have hlow := hbyte (k + 1) (by omega)
  rw [fetch_of_lt (by omega), next, hpc, hhigh, Nat.add_assoc, hlow]

theorem fetch_of_ram_eq {s : Machine} (hm : boot program d source = .ok m) (hram : s.ram = m.ram)
    {k : Nat} (hk : k + 2 ≤ program.size) (hpc : s.pc.toNat = programStart + k) :
    s.fetch = .ok (.ofBytes (program.getD k 0) (program.getD (k + 1) 0)) := by
  refine fetch_of_load ?_ hk hpc
  rw [hram]
  exact load_boot hm

/-- A machine starts with the first word of its program. -/
theorem fetch_boot (hm : boot program d source = .ok m) (h : 2 ≤ program.size) :
    m.fetch = .ok (.ofBytes (program.getD 0 0) (program.getD 1 0)) :=
  fetch_of_load (load_boot hm) h (by rw [pc_boot hm]; rfl)

end Machine

end Chip8
