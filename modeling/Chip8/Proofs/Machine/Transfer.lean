import Chip8.Proofs.Instruction.Encoding
import Chip8.Proofs.Machine.Interruption

namespace Chip8

namespace Machine

variable {m : Machine} {i : Instruction}

/-- A store whose window lies within the memory lays the first registers over it. -/
theorem execute_of_store (hselector : i.selector = 0xF) (himmediate : i.immediate = 0x55)
    (hfits : m.index.toNat + m.dialect.transferCount i.x ≤ memorySize) :
    m.execute i.operation =
      .done { m with ram := m.ram.overlay m.index.toNat (m.registerBytes i.x) } := by
  have hoperation : i.operation = .store i.x :=
    Instruction.operation_eq_iff.2 ⟨hselector, himmediate, rfl⟩
  rw [hoperation, execute, storeRegisters_eq, overrun_of_le hfits]
  rfl

/-- A load whose window lies within the memory fills the first registers from it. -/
theorem execute_of_load (hselector : i.selector = 0xF) (himmediate : i.immediate = 0x65)
    (hfits : m.index.toNat + m.dialect.transferCount i.x ≤ memorySize) :
    m.execute i.operation =
      .done { m with
        registers := m.registers.fill m.ram m.index.toNat (m.dialect.transferCount i.x) } := by
  have hoperation : i.operation = .load i.x :=
    Instruction.operation_eq_iff.2 ⟨hselector, himmediate, rfl⟩
  rw [hoperation, execute, loadRegisters_eq, overrun_of_le hfits]
  rfl

/-- A store of registers that already hold the bytes of its window changes nothing. -/
theorem execute_of_store_held (hselector : i.selector = 0xF) (himmediate : i.immediate = 0x55)
    (hfits : m.index.toNat + m.dialect.transferCount i.x ≤ memorySize)
    (hheld : ∀ j : Nibble, j.val < m.dialect.transferCount i.x →
      m.register j = m.ram.byte (m.index.toNat + j.val)) :
    m.execute i.operation = .done m := by
  have hram : m.ram.overlay m.index.toNat (m.registerBytes i.x) = m.ram := by
    refine Ram.ext_byte fun a ha => ?_
    by_cases hwindow :
        ∃ j : Nibble, j.val < m.dialect.transferCount i.x ∧ a = m.index.toNat + j.val
    · obtain ⟨j, hj, rfl⟩ := hwindow
      rw [byte_overlay_registerBytes_inside hj ha, hheld j hj]
    · exact byte_overlay_registerBytes_outside fun j hj haddress => hwindow ⟨j, hj, haddress⟩
  rw [execute_of_store hselector himmediate hfits, hram]

/-- Block transfers between the registers and the memory undo each other. A store copies the first
registers to the memory and changes nothing else; from then on, as long as the index and the stored
bytes are what they were, a load of as many registers brings back their values, whatever has become
of the registers, and changes nothing else. A load followed at once by a store leaves the memory as
it was. -/
theorem transfers_undo_each_other {m : Machine} {i k : Instruction}
    (hstore : i.selector = 0xF ∧ i.immediate = 0x55) (hload : k.selector = 0xF ∧ k.immediate = 0x65)
    (hx : k.x = i.x) (hfits : m.index.toNat + m.dialect.transferCount i.x ≤ memorySize) :
    (∃ ram,
      m.execute i.operation = .done { m with ram } ∧
      (∀ j : Nibble, j.val < m.dialect.transferCount i.x →
        ram.byte (m.index.toNat + j.val) = m.register j) ∧
      (∀ a, (∀ j : Nibble, j.val < m.dialect.transferCount i.x → a ≠ m.index.toNat + j.val) →
        ram.byte a = m.ram.byte a) ∧
      ∀ m' : Machine, m'.dialect.transfersExclusive = m.dialect.transfersExclusive →
        m'.index = m.index →
        (∀ j : Nibble, j.val < m.dialect.transferCount i.x →
          m'.ram.byte (m.index.toNat + j.val) = ram.byte (m.index.toNat + j.val)) →
        ∃ registers,
          m'.execute k.operation = .done { m' with registers } ∧
          ∀ j : Nibble, registers.get j =
            if j.val < m.dialect.transferCount i.x then m.register j else m'.register j) ∧
    ∃ registers,
      m.execute k.operation = .done { m with registers } ∧
      Machine.execute { m with registers } i.operation = .done { m with registers } := by
  refine ⟨⟨_, execute_of_store hstore.1 hstore.2 hfits, ?_, ?_, ?_⟩, ?_⟩
  · intro j hj
    exact byte_overlay_registerBytes_inside hj (by simp only [memorySize] at hfits; omega)
  · exact fun a => byte_overlay_registerBytes_outside
  · intro m' hdialect hindex hbytes
    have hcount : m'.dialect.transferCount k.x = m.dialect.transferCount i.x := by
      rw [Dialect.transferCount, Dialect.transferCount, hdialect, hx]
    have hfits' : m'.index.toNat + m'.dialect.transferCount k.x ≤ memorySize := by
      rwa [hcount, hindex]
    refine ⟨_, execute_of_load hload.1 hload.2 hfits', fun j => ?_⟩
    rw [Registers.get_fill_of_le hfits', hcount, hindex]
    split
    · rename_i hj
      rw [hbytes j hj]
      exact byte_overlay_registerBytes_inside hj (by simp only [memorySize] at hfits; omega)
    · rfl
  · have hfits' : m.index.toNat + m.dialect.transferCount k.x ≤ memorySize := by rwa [hx]
    refine ⟨_, execute_of_load hload.1 hload.2 hfits', ?_⟩
    refine execute_of_store_held hstore.1 hstore.2 hfits fun j hj => ?_
    rw [hx]
    exact (Registers.get_fill_of_le hfits ..).trans (if_pos hj)

/-- The four bytes at the end of the memory, and a machine that finds its registers cleared. -/
theorem transfers_undo_each_other_at_end :
    ∃ ram,
      Machine.execute { storingPastEnd with index := 0xFFC } (⟨0xF355⟩ : Instruction).operation =
        .done { storingPastEnd with index := 0xFFC, ram } ∧
      ram.byte 0xFFF = 14 ∧ ram.byte 0xFFB = storingPastEnd.ram.byte 0xFFB ∧
      ∃ registers,
        Machine.execute { storingPastEnd with index := 0xFFC, ram, registers := .zero }
            (⟨0xF365⟩ : Instruction).operation =
          .done { storingPastEnd with index := 0xFFC, ram, registers } ∧
        registers.get 0 = 11 ∧ registers.get 3 = 14 ∧ registers.get 4 = 0 := by
  obtain ⟨⟨ram, hstored, hinside, houtside, hback⟩, -⟩ :=
    transfers_undo_each_other (m := { storingPastEnd with index := 0xFFC }) (i := ⟨0xF355⟩)
      (k := ⟨0xF365⟩) (by decide) (by decide) (by decide) (by decide)
  obtain ⟨registers, hloaded, hregisters⟩ :=
    hback { storingPastEnd with index := 0xFFC, ram, registers := .zero } rfl rfl fun _ _ => rfl
  refine ⟨ram, hstored, hinside 3 (by decide), houtside 0xFFB (by decide), registers, hloaded, ?_⟩
  exact ⟨hregisters 0, hregisters 3, hregisters 4⟩

end Machine

end Chip8
