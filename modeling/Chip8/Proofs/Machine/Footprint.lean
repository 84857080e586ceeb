import Chip8.Proofs.Machine.Boot
import Chip8.Proofs.Machine.Effect
import Chip8.Proofs.Machine.Failure

namespace Chip8

namespace Ram

/-- Bytes laid over the memory change it only where they come to stand. -/
theorem bounds_of_byte_overlay_ne {r : Ram} {a c : Nat} {bs : List UInt8}
    (h : (r.overlay a bs).byte c ≠ r.byte c) : a ≤ c ∧ c < a + bs.length := by
  refine Decidable.byContradiction fun hwindow => h (byte_overlay_outside (fun j hj => ?_) r)
  omega

end Ram

namespace Registers

theorem get_set_ne {v : Registers} {x r : Nibble} {b : UInt8} (h : (v.set x b).get r ≠ v.get r) :
    r = x := by
  rw [get_set] at h
  split at h
  · rename_i hx
    exact hx.symm
  · exact absurd rfl h

theorem get_putFlagged_ne {v : Registers} {again : Bool} {x y r : Nibble} {f : UInt8}
    {result : UInt8 → UInt8 → UInt8} (h : (v.putFlagged again x y f result).get r ≠ v.get r) :
    r = x ∨ r = flag := by
  rw [putFlagged, get_set] at h
  split at h
  · rename_i hx
    exact .inl hx.symm
  · exact .inr (get_set_ne h)

theorem get_arithmetic_ne {v : Registers} {d : Dialect} {f : Arithmetic} {x y r : Nibble}
    (h : (v.arithmetic d f x y).get r ≠ v.get r) :
    r = x ∨ r = flag ∧ (f = .add ∨ f = .subtract ∨ f = .subtractFrom) := by
  cases f with
  | add => exact (get_putFlagged_ne h).imp_right fun hr => ⟨hr, .inl rfl⟩
  | subtract => exact (get_putFlagged_ne h).imp_right fun hr => ⟨hr, .inr (.inl rfl)⟩
  | subtractFrom => exact (get_putFlagged_ne h).imp_right fun hr => ⟨hr, .inr (.inr rfl)⟩
  | _ => exact .inl (get_set_ne h)

end Registers

/-- The registers that a word may change, by its nibbles. -/
def Instruction.Alters (d : Dialect) (i : Instruction) (r : Nibble) : Prop :=
  r = i.x ∧
      (i.selector = 0x6 ∨ i.selector = 0x7 ∨ i.selector = 0x8 ∨ i.selector = 0xC ∨
        i.selector = 0xF ∧ i.immediate = 0x07) ∨
    i.selector = 0xF ∧ i.immediate = 0x65 ∧ r.val < d.transferCount i.x ∨
    r = 0xF ∧
      (i.selector = 0x8 ∧ (i.n = 0x4 ∨ i.n = 0x5 ∨ i.n = 0x6 ∨ i.n = 0x7 ∨ i.n = 0xE) ∨
        i.selector = 0xD)

namespace Machine

variable {m : Machine} {i : Instruction} {o : Operation}

theorem screen_execute_ne (hi : o.Encodes i) (h : (m.execute o).reached.screen ≠ m.screen) :
    i.selector = 0x0 ∧ i.n = 0x0 ∨ i.selector = 0xD := by
  rw [reached_execute] at h
  cases o with
  | clear => exact .inl hi
  | draw x y height => exact .inr hi.1
  | _ => exact absurd rfl h

theorem stack_execute_ne (hi : o.Encodes i) (h : (m.execute o).reached.stack ≠ m.stack) :
    i.selector = 0x0 ∧ i.n = 0xE ∨ i.selector = 0x2 := by
  rw [reached_execute] at h
  cases o with
  | ret => exact .inl hi
  | call a => exact .inr hi.1
  | _ => exact absurd rfl h

theorem index_execute_ne (hi : o.Encodes i) (h : (m.execute o).reached.index ≠ m.index) :
    i.selector = 0xA ∨ i.selector = 0xF ∧ (i.immediate = 0x1E ∨ i.immediate = 0x29) := by
  rw [reached_execute] at h
  cases o with
  | setIndex a => exact .inl hi.1
  | addIndex x => exact .inr ⟨hi.1, .inl hi.2.1⟩
  | glyph x => exact .inr ⟨hi.1, .inr hi.2.1⟩
  | _ => exact absurd rfl h

theorem delay_execute_ne (hi : o.Encodes i) (h : (m.execute o).reached.delay ≠ m.delay) :
    i.selector = 0xF ∧ i.immediate = 0x15 := by
  rw [reached_execute] at h
  cases o with
  | setDelay x => exact ⟨hi.1, hi.2.1⟩
  | _ => exact absurd rfl h

theorem mode_execute_ne (hi : o.Encodes i) (h : (m.execute o).reached.mode ≠ m.mode) :
    i.selector = 0xF ∧ i.immediate = 0x0A := by
  rw [reached_execute] at h
  cases o with
  | awaitKey x => exact ⟨hi.1, hi.2.1⟩
  | _ => exact absurd rfl h

theorem random_execute_ne (hi : o.Encodes i) (h : (m.execute o).reached.random ≠ m.random) :
    i.selector = 0xC := by
  rw [reached_execute] at h
  cases o with
  | random x mask => exact hi.1
  | _ => exact absurd rfl h

theorem length_digitBytes (m : Machine) (x : Nibble) :
    (m.digitBytes x).length = if m.dialect.stacksDigits then 1 else 3 := by
  unfold digitBytes
  split <;> rfl

theorem byte_execute_ne {a : Nat} (hi : o.Encodes i)
    (h : (m.execute o).reached.ram.byte a ≠ m.ram.byte a) :
    i.selector = 0xF ∧ m.index.toNat ≤ a ∧ a < m.index.toNat + i.span m.dialect ∧
      (i.immediate = 0x33 ∧ a < m.index.toNat + 3 ∨
        i.immediate = 0x55 ∧ a < m.index.toNat + 16) := by
  have hspan : o.span m.dialect = i.span m.dialect := by
    rw [← Instruction.operation_eq_iff.2 hi, Instruction.span_operation]
  rw [← hspan]
  cases o with
  | decimal x =>
    rw [execute, storeDigits_eq] at h
    obtain ⟨hlow, hhigh⟩ := Ram.bounds_of_byte_overlay_ne h
    have hlength := m.length_digitBytes x
    have hle : (m.digitBytes x).length ≤ 3 := by
      rw [hlength]
      split <;> omega
    have hnear : a < m.index.toNat + 3 := by omega
    rw [hlength] at hhigh
    exact ⟨hi.1, hlow, hhigh, .inl ⟨hi.2.1, hnear⟩⟩
  | store x =>
    rw [execute, storeRegisters_eq] at h
    obtain ⟨hlow, hhigh⟩ := Ram.bounds_of_byte_overlay_ne h
    have hle := m.dialect.transferCount_le x
    rw [length_registerBytes] at hhigh
    exact ⟨hi.1, hlow, hhigh, .inr ⟨hi.2.1, by omega⟩⟩
  | _ =>
    rw [reached_execute] at h
    exact absurd rfl h

theorem register_draw_ne {x y height r : Nibble}
    (h : (m.draw x y height).reached.register r ≠ m.register r) : r = Registers.flag := by
  unfold draw at h
  cases hblock : m.ram.readBlock m.index.toNat height.val with
  | error f =>
    rw [hblock] at h
    exact absurd rfl h
  | ok rows =>
    rw [hblock] at h
    exact Registers.get_set_ne h

theorem register_load_ne {x r : Nibble}
    (h : (m.loadRegisters x).reached.register r ≠ m.register r) :
    r.val < m.dialect.transferCount x := by
  rw [loadRegisters_eq] at h
  refine Decidable.byContradiction fun hle => h ?_
  rw [register, Registers.get_fill, if_neg fun hin => hle hin.1]
  rfl

theorem register_execute_ne {r : Nibble} (hi : o.Encodes i)
    (h : (m.execute o).reached.register r ≠ m.register r) : i.Alters m.dialect r := by
  cases o with
  | setByte x b => exact .inl ⟨(Registers.get_set_ne h).trans hi.2.1, .inl hi.1⟩
  | addByte x b => exact .inl ⟨(Registers.get_set_ne h).trans hi.2.1, .inr (.inl hi.1)⟩
  | random x mask =>
    exact .inl ⟨(Registers.get_set_ne h).trans hi.2.1, .inr (.inr (.inr (.inl hi.1)))⟩
  | readDelay x =>
    exact .inl ⟨(Registers.get_set_ne h).trans hi.2.2, .inr (.inr (.inr (.inr ⟨hi.1, hi.2.1⟩)))⟩
  | arithmetic f x y =>
    obtain ⟨hs, hn, hx, -⟩ := hi
    obtain hr | ⟨hr, hf⟩ := Registers.get_arithmetic_ne h
    · exact .inl ⟨hr.trans hx, .inr (.inr (.inl hs))⟩
    · refine .inr (.inr ⟨hr, .inl ⟨hs, ?_⟩⟩)
      obtain rfl | rfl | rfl := hf
      · exact .inl hn
      · exact .inr (.inl hn)
      · exact .inr (.inr (.inr (.inl hn)))
  | shiftRight x =>
    obtain ⟨hs, hn, hx⟩ := hi
    obtain hr | hr := Registers.get_putFlagged_ne h
    · exact .inl ⟨hr.trans hx, .inr (.inr (.inl hs))⟩
    · exact .inr (.inr ⟨hr, .inl ⟨hs, .inr (.inr (.inl hn))⟩⟩)
  | shiftLeft x =>
    obtain ⟨hs, hn, hx⟩ := hi
    obtain hr | hr := Registers.get_putFlagged_ne h
    · exact .inl ⟨hr.trans hx, .inr (.inr (.inl hs))⟩
    · exact .inr (.inr ⟨hr, .inl ⟨hs, .inr (.inr (.inr (.inr hn)))⟩⟩)
  | draw x y height => exact .inr (.inr ⟨register_draw_ne h, .inr hi.1⟩)
  | load x =>
    obtain ⟨hs, hb, hx⟩ := hi
    have hr := register_load_ne h
    rw [hx] at hr
    exact .inr (.inl ⟨hs, hb, hr⟩)
  | _ =>
    rw [reached_execute] at h
    exact absurd rfl h

/-- What a tick has changed it has changed by the instruction that it took up, or by taking a
key. -/
theorem changed_by_tick {α : Type} (part : Machine → α) (hpass : ∀ i, part (m.pass i) = part m)
    (h : part m.tick.machine ≠ part m) :
    (∃ i, m.dispatched = some i ∧
      part ((m.pass i).execute i.operation).reached ≠ part (m.pass i)) ∨
    ∃ x, m.mode = .awaitingKey x ∧ m.tick.result = .ok .keyAccepted ∧
      part { m.setRegister x m.key with mode := .running } ≠ part m := by
  have htick := m.tickRule
  generalize m.tick = t at h htick ⊢
  cases htick with
  | wait x hmode hkey => exact absurd rfl h
  | lost f hmode hfetch => exact absurd rfl h
  | accept x hmode hkey => exact .inr ⟨x, hmode, rfl, h⟩
  | run i hmode hfetch =>
    refine .inl ⟨i, dispatched_eq_some_iff.2 ⟨hmode, hfetch⟩, ?_⟩
    rwa [hpass]

/-- The same for a part of the machine that has nothing to do with keys. -/
theorem takesUp_of_changed {α : Type} (part : Machine → α) {P : Instruction → Prop}
    (hpass : ∀ i, part (m.pass i) = part m)
    (haccept : ∀ x, part { m.setRegister x m.key with mode := .running } = part m)
    (hexecute : ∀ i, i.operation.Encodes i →
      part ((m.pass i).execute i.operation).reached ≠ part (m.pass i) → P i)
    (h : part m.tick.machine ≠ part m) : m.TakesUp P := by
  obtain ⟨i, hi, hchanged⟩ | ⟨x, -, -, hchanged⟩ := changed_by_tick part hpass h
  · exact ⟨i, hi, hexecute i i.encodes_operation hchanged⟩
  · exact absurd (haccept x) hchanged

/-- Whether the next tick takes up a word that stores digits or registers at an address, among
others. -/
def StoresAt (m : Machine) (a : Nat) : Prop :=
  m.TakesUp fun i =>
    i.selector = 0xF ∧ m.index.toNat ≤ a ∧ a < m.index.toNat + i.span m.dialect ∧
      (i.immediate = 0x33 ∧ a < m.index.toNat + 3 ∨ i.immediate = 0x55 ∧ a < m.index.toNat + 16)

/-- What may be different after a tick. -/
structure Footprint (m : Machine) (t : Tick) : Prop where
  ram : ∀ a, t.machine.ram.byte a ≠ m.ram.byte a → a < 0x1000 ∧ m.StoresAt a
  screen : t.machine.screen ≠ m.screen →
    m.TakesUp fun i => i.selector = 0x0 ∧ i.n = 0x0 ∨ i.selector = 0xD
  stack : t.machine.stack ≠ m.stack →
    m.TakesUp fun i => i.selector = 0x0 ∧ i.n = 0xE ∨ i.selector = 0x2
  index : t.machine.index ≠ m.index →
    m.TakesUp fun i =>
      i.selector = 0xA ∨ i.selector = 0xF ∧ (i.immediate = 0x1E ∨ i.immediate = 0x29)
  delay : t.machine.delay ≠ m.delay → m.TakesUp fun i => i.selector = 0xF ∧ i.immediate = 0x15
  mode : t.machine.mode ≠ m.mode →
    t.result = .ok .keyAccepted ∨ m.TakesUp fun i => i.selector = 0xF ∧ i.immediate = 0x0A
  random : t.machine.random ≠ m.random → m.TakesUp fun i => i.selector = 0xC
  registers : ∀ r, t.machine.register r ≠ m.register r →
    t.result = .ok .keyAccepted ∧ m.mode = .awaitingKey r ∨ m.TakesUp fun i => i.Alters m.dialect r
  key : t.machine.key = m.key
  dialect : t.machine.dialect = m.dialect

theorem key_tick (m : Machine) : m.tick.machine.key = m.key := by
  refine Decidable.byContradiction fun h => ?_
  obtain ⟨i, -, hchanged⟩ | ⟨x, -, -, hchanged⟩ := changed_by_tick key (fun _ => rfl) h
  · exact hchanged (key_execute _ _)
  · exact hchanged rfl

theorem footprint_tick (m : Machine) : m.Footprint m.tick where
  ram a h := by
    have hin : a < 0x1000 := by
      refine Decidable.byContradiction fun hpast => h ?_
      have hle : memorySize ≤ a := Nat.not_lt.1 hpast
      rw [Ram.byte_of_le hle, Ram.byte_of_le hle]
    refine ⟨hin, takesUp_of_changed (fun s => s.ram.byte a) (fun _ => rfl) (fun _ => rfl) ?_ h⟩
    exact fun i => byte_execute_ne (m := m.pass i)
  screen := takesUp_of_changed (fun s => s.screen) (fun _ => rfl) (fun _ => rfl)
    fun _ => screen_execute_ne
  stack := takesUp_of_changed (fun s => s.stack) (fun _ => rfl) (fun _ => rfl)
    fun _ => stack_execute_ne
  index := takesUp_of_changed (fun s => s.index) (fun _ => rfl) (fun _ => rfl)
    fun _ => index_execute_ne
  delay := takesUp_of_changed (fun s => s.delay) (fun _ => rfl) (fun _ => rfl)
    fun _ => delay_execute_ne
  random := takesUp_of_changed (fun s => s.random) (fun _ => rfl) (fun _ => rfl)
    fun _ => random_execute_ne
  mode h := by
    obtain ⟨i, hi, hchanged⟩ | ⟨x, -, haccepted, -⟩ := changed_by_tick mode (fun _ => rfl) h
    · exact .inr ⟨i, hi, mode_execute_ne i.encodes_operation hchanged⟩
    · exact .inl haccepted
  registers r h := by
    obtain ⟨i, hi, hchanged⟩ | ⟨x, hmode, haccepted, hchanged⟩ :=
      changed_by_tick (fun s => s.register r) (fun _ => rfl) h
    · exact .inr ⟨i, hi, register_execute_ne (m := m.pass i) i.encodes_operation hchanged⟩
    · obtain rfl : r = x := Registers.get_set_ne hchanged
      exact .inl ⟨haccepted, hmode⟩
  key := m.key_tick
  dialect := m.dialect_respond .tick

theorem byte_tick {a : Nat} (h : ¬ m.StoresAt a) :
    m.tick.machine.ram.byte a = m.ram.byte a :=
  Decidable.byContradiction fun hchanged => h (m.footprint_tick.ram a hchanged).2

/-- A byte stays as long as no tick stores anything at its address. -/
theorem byte_after {m : Machine} {es : List Event} {a : Nat}
    (h : ∀ s ∈ m.atTicks es, ¬ s.StoresAt a) : (m.after es).ram.byte a = m.ram.byte a := by
  induction es generalizing m with
  | nil => rfl
  | cons e es ih =>
    cases e with
    | tick =>
      have hfirst : ¬ m.StoresAt a := h m List.mem_cons_self
      have hrest : ∀ s ∈ m.tick.machine.atTicks es, ¬ s.StoresAt a :=
        fun s hs => h s (List.mem_cons_of_mem m hs)
      exact (ih hrest).trans (byte_tick hfirst)
    | timer => exact ih (m := m.timerTick) h
    | key k => exact ih (m := m.setKey k) h

/-- A tick changes only what the word that it takes up names, whether it succeeds or fails, and a
key it takes goes to the register that waits for it. So a byte of the memory is what it was when
the machine was started, a byte of the program, a byte of the font or zero, until digits or
registers are first stored at its address. -/
theorem ticks_stay_in_footprint :
    (∀ m : Machine, m.Footprint m.tick) ∧
      ∀ program d source m, boot program d source = .ok m →
        ∀ es a, (∀ s ∈ m.atTicks es, ¬ s.StoresAt a) →
          (m.after es).ram.byte a =
            if 0x200 ≤ a ∧ a < 0x200 + program.size then program.getD (a - 0x200) 0
            else font[a]?.getD 0 := by
  refine ⟨footprint_tick, fun program d source m hboot es a hstores => ?_⟩
  rw [byte_after hstores, Ram.byte_load (load_boot hboot), Ram.byte_fresh]
  rfl

/-- A program that stores two registers over the first two bytes of the font. -/
theorem ticks_stay_in_footprint_storing :
    ∃ m, boot #[0xF1, 0x55] .compliant (.cycling #[]) = .ok m ∧ m.StoresAt 0 ∧ ¬ m.StoresAt 2 ∧
      (m.after [.tick]).ram.byte 2 = 0x90 := by
  have hboot : ∃ m, boot #[0xF1, 0x55] .compliant (.cycling #[]) = .ok m :=
    exists_boot (by decide) _ _
  obtain ⟨m, hm⟩ := hboot
  have hdispatched : m.dispatched = some ⟨0xF155⟩ :=
    dispatched_eq_some_iff.2 ⟨mode_boot hm, fetch_boot hm (by decide)⟩
  have hwindow : m.index.toNat + Instruction.span m.dialect ⟨0xF155⟩ = 2 := by
    obtain ⟨ram, -, rfl⟩ := boot_eq_ok hm
    rfl
  have hstores : ¬ m.StoresAt 2 := by
    rintro ⟨i, hi, -, -, hend, -⟩
    rw [hdispatched] at hi
    cases hi
    omega
  refine ⟨m, hm, ⟨_, hdispatched, by decide, ?_, by omega, .inr ⟨by decide, by omega⟩⟩, hstores, ?_⟩
  · obtain ⟨ram, -, rfl⟩ := boot_eq_ok hm
    exact Nat.zero_le 0
  · refine ticks_stay_in_footprint.2 _ _ _ m hm [.tick] 2 fun s hs => ?_
    obtain rfl : s = m := List.mem_singleton.1 hs
    exact hstores

end Machine

end Chip8
