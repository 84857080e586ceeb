import Chip8.Proofs.Dialect.Sensitivity
import Chip8.Proofs.Machine.Boot
import Chip8.Proofs.Machine.Effect

namespace Chip8

namespace Registers

/-- Whether operands are taken before or after the flag is written makes no difference to operands
other than the flag register. -/
theorem putFlagged_eq (v : Registers) (again again' : Bool) {x y : Nibble} (f : UInt8)
    (result : UInt8 → UInt8 → UInt8)
    (h : x = flag ∨ y = flag → again = again') :
    v.putFlagged again x y f result = v.putFlagged again' x y f result := by
  by_cases hflag : x = flag ∨ y = flag
  · rw [h hflag]
  · have hx : flag ≠ x := fun hx => hflag (.inl hx.symm)
    have hy : flag ≠ y := fun hy => hflag (.inr hy.symm)
    cases again <;> cases again' <;> simp [putFlagged, get_set, hx, hy]

theorem arithmetic_eq (v : Registers) {d d' : Dialect} {f : Arithmetic} {x y : Nibble}
    (h : ∀ w, (Operation.arithmetic f x y).Sensitive w → d.setting w = d'.setting w) :
    v.arithmetic d f x y = v.arithmetic d' f x y := by
  cases f with
  | subtract =>
    have hborrow : d.flagsBorrow = d'.flagsBorrow := h .flagsBorrow (.inl rfl)
    simp only [arithmetic, Dialect.borrowFlag, hborrow]
    exact putFlagged_eq _ _ _ _ _ fun hxy => h .flagBeforeOperands (.inr ⟨rfl, hxy⟩)
  | subtractFrom =>
    have hborrow : d.flagsBorrow = d'.flagsBorrow := h .flagsBorrow (.inl rfl)
    simp only [arithmetic, Dialect.borrowFlag, hborrow]
    exact putFlagged_eq _ _ _ _ _ fun hxy => h .flagBeforeOperands (.inr ⟨rfl, hxy⟩)
  | _ => rfl

theorem shiftRight_eq (v : Registers) {d d' : Dialect} {x : Nibble}
    (h : ∀ w, (Operation.shiftRight x).Sensitive w → d.setting w = d'.setting w) :
    v.shiftRight d x = v.shiftRight d' x := by
  unfold shiftRight
  exact putFlagged_eq _ _ _ _ _ fun hx => h .flagBeforeOperands ⟨rfl, hx.elim id id⟩

theorem shiftLeft_eq (v : Registers) {d d' : Dialect} {x : Nibble}
    (h : ∀ w, (Operation.shiftLeft x).Sensitive w → d.setting w = d'.setting w) :
    v.shiftLeft d x = v.shiftLeft d' x := by
  have hupper : d.flagsUpperBits = d'.flagsUpperBits := h .flagsUpperBits (.inl rfl)
  simp only [shiftLeft, Dialect.leftShiftFlag, hupper]
  exact putFlagged_eq _ _ _ _ _ fun hx => h .flagBeforeOperands (.inr ⟨rfl, hx.elim id id⟩)

end Registers

namespace Machine

/-- The same machine under another dialect. -/
def withDialect (m : Machine) (dialect : Dialect) : Machine := { m with dialect }

theorem spriteOrigin_withDialect {m : Machine} {d : Dialect} {x y height : Nibble}
    (h : ∀ w, (Operation.draw x y height).Sensitive w → m.dialect.setting w = d.setting w) :
    (m.withDialect d).spriteOrigin x y = m.spriteOrigin x y := by
  funext hit
  by_cases hflag : x = Registers.flag ∨ y = Registers.flag
  · have hsame : (m.withDialect d).dialect.flagBeforeOperands = m.dialect.flagBeforeOperands :=
      (h .flagBeforeOperands ⟨rfl, hflag⟩).symm
    unfold spriteOrigin
    rw [hsame]
    rfl
  · have hother : x ≠ Registers.flag ∧ y ≠ Registers.flag := not_or.1 hflag
    rw [spriteOrigin_of_fixed (.inr hother), spriteOrigin_of_fixed (.inr hother)]
    rfl

theorem map_ofExcept {α β : Type} (g : α → β) (before : α) (e : Except Fault α) :
    (Attempt.ofExcept before e).map g = .ofExcept (g before) (e.map g) := by
  cases e <;> rfl

theorem ret_withDialect (m : Machine) (d : Dialect) :
    (m.withDialect d).ret = m.ret.map (·.withDialect d) := by
  unfold ret
  rw [map_ofExcept]
  have hstack : (m.withDialect d).stack = m.stack := rfl
  rw [hstack]
  cases m.stack.pop <;> rfl

theorem call_withDialect (m : Machine) (d : Dialect) (a : Address) :
    (m.withDialect d).call a = (m.call a).map (·.withDialect d) := by
  unfold call
  rw [map_ofExcept]
  have hstack : (m.withDialect d).stack.push (m.withDialect d).pc = m.stack.push m.pc := rfl
  rw [hstack]
  cases m.stack.push m.pc <;> rfl

theorem draw_withDialect {m : Machine} {d : Dialect} {x y height : Nibble}
    (h : ∀ w, (Operation.draw x y height).Sensitive w → m.dialect.setting w = d.setting w) :
    (m.withDialect d).draw x y height = (m.draw x y height).map (·.withDialect d) := by
  have horigin := spriteOrigin_withDialect h
  have hrows : (m.withDialect d).drawRows x y =
      fun rows => (m.drawRows x y rows).withDialect d := by
    funext rows
    unfold drawRows
    rw [horigin]
    rfl
  have hblock : (m.withDialect d).ram.readBlock (m.withDialect d).index.toNat height.val =
      m.ram.readBlock m.index.toNat height.val := rfl
  unfold draw
  rw [map_ofExcept, hblock, hrows]
  cases m.ram.readBlock m.index.toNat height.val <;> rfl

theorem skipIf_withDialect (m : Machine) (d : Dialect) (condition : Bool) :
    (m.withDialect d).skipIf condition = (m.skipIf condition).withDialect d := by
  cases condition <;> rfl

theorem pointAtGlyph_withDialect {m : Machine} {d : Dialect}
    (h : m.dialect.glyphThroughMemory = d.glyphThroughMemory) (x : Nibble) :
    (m.withDialect d).pointAtGlyph x = (m.pointAtGlyph x).withDialect d := by
  have hsame : (m.withDialect d).dialect.glyphThroughMemory = m.dialect.glyphThroughMemory := h.symm
  unfold pointAtGlyph
  rw [hsame]
  split <;> rfl

theorem storeDigits_withDialect {m : Machine} {d : Dialect}
    (h : m.dialect.stacksDigits = d.stacksDigits) (x : Nibble) :
    (m.withDialect d).storeDigits x = (m.storeDigits x).map (·.withDialect d) := by
  have hsame : (m.withDialect d).dialect.stacksDigits = m.dialect.stacksDigits := h.symm
  unfold storeDigits
  rw [hsame]
  rfl

theorem transferred_withDialect {m : Machine} {d : Dialect}
    (h : m.dialect.transfersExclusive = d.transfersExclusive) (x : Nibble) :
    (m.withDialect d).transferred x = m.transferred x := by
  have hsame : (m.withDialect d).dialect.transfersExclusive = m.dialect.transfersExclusive := h.symm
  unfold transferred
  rw [hsame]

/-- An operation does the same under two dialects that agree on all switches that may bear on
it. -/
theorem execute_withDialect {m : Machine} {d : Dialect} {o : Operation}
    (h : ∀ w, o.Sensitive w → m.dialect.setting w = d.setting w) :
    (m.withDialect d).execute o = (m.execute o).map (·.withDialect d) := by
  cases o with
  | ret => exact m.ret_withDialect d
  | call a => exact m.call_withDialect d a
  | skipIfByte x b => exact congrArg Attempt.done (m.skipIf_withDialect d _)
  | skipUnlessByte x b => exact congrArg Attempt.done (m.skipIf_withDialect d _)
  | skipIfEqual x y => exact congrArg Attempt.done (m.skipIf_withDialect d _)
  | skipUnlessEqual x y => exact congrArg Attempt.done (m.skipIf_withDialect d _)
  | skipIfKey x => exact congrArg Attempt.done (m.skipIf_withDialect d _)
  | skipUnlessKey x => exact congrArg Attempt.done (m.skipIf_withDialect d _)
  | arithmetic f x y =>
    have hsame : (m.withDialect d).registers.arithmetic (m.withDialect d).dialect f x y =
        m.registers.arithmetic m.dialect f x y := (m.registers.arithmetic_eq h).symm
    rw [execute, hsame]
    rfl
  | shiftRight x =>
    have hsame : (m.withDialect d).registers.shiftRight (m.withDialect d).dialect x =
        m.registers.shiftRight m.dialect x := (m.registers.shiftRight_eq h).symm
    rw [execute, hsame]
    rfl
  | shiftLeft x =>
    have hsame : (m.withDialect d).registers.shiftLeft (m.withDialect d).dialect x =
        m.registers.shiftLeft m.dialect x := (m.registers.shiftLeft_eq h).symm
    rw [execute, hsame]
    rfl
  | draw x y height => exact draw_withDialect h
  | glyph x =>
    have hglyph : m.dialect.glyphThroughMemory = d.glyphThroughMemory := h .glyphThroughMemory rfl
    exact congrArg Attempt.done (pointAtGlyph_withDialect hglyph x)
  | decimal x =>
    have hdigits : m.dialect.stacksDigits = d.stacksDigits := h .stacksDigits rfl
    exact storeDigits_withDialect hdigits x
  | store x =>
    have hsame := transferred_withDialect (h .transfersExclusive rfl) x
    rw [execute, storeRegisters, hsame]
    rfl
  | load x =>
    have hsame := transferred_withDialect (h .transfersExclusive rfl) x
    rw [execute, loadRegisters, hsame]
    rfl
  | _ => rfl

theorem acceptKey_withDialect (m : Machine) (d : Dialect) (x : Nibble) :
    (m.withDialect d).acceptKey x =
      { m.acceptKey x with machine := (m.acceptKey x).machine.withDialect d } := by
  have hkey : (m.withDialect d).key = m.key := rfl
  unfold acceptKey
  rw [hkey]
  split <;> rfl

/-- A tick goes the same way under two dialects that agree on all switches that may bear on the
instruction that it takes up. -/
theorem tick_withDialect {m : Machine} {d : Dialect}
    (h : ∀ i, m.dispatched = some i → ∀ w, i.Sensitive w → m.dialect.setting w = d.setting w) :
    (m.withDialect d).tick = { m.tick with machine := m.tick.machine.withDialect d } := by
  have hmode' : (m.withDialect d).mode = m.mode := rfl
  cases hmode : m.mode with
  | awaitingKey x =>
    unfold tick
    rw [hmode', hmode]
    exact m.acceptKey_withDialect d x
  | running =>
    have hfetch' : (m.withDialect d).fetch = m.fetch := rfl
    cases hfetch : m.fetch with
    | error f =>
      unfold tick runNext
      rw [hmode', hmode, hfetch', hfetch]
    | ok i =>
      have hdispatched := h i (dispatched_eq_some_iff.2 ⟨hmode, hfetch⟩)
      have hoperation : ∀ w, i.operation.Sensitive w → m.dialect.setting w = d.setting w :=
        fun w hw => hdispatched w (i.encodes_operation.sensitive hw)
      have hexecute : ((m.withDialect d).pass i).execute i.operation =
          ((m.pass i).execute i.operation).map (·.withDialect d) :=
        execute_withDialect (m := m.pass i) hoperation
      unfold tick runNext
      rw [hmode', hmode, hfetch', hfetch]
      dsimp only
      rw [hexecute]
      rfl

end Machine

/-- The same response of a machine under another dialect. -/
def Response.withDialect (r : Response) (d : Dialect) : Response :=
  { r with machine := r.machine.withDialect d }

namespace Machine

theorem history_withDialect {m : Machine} {d : Dialect} {es : List Event}
    (h : ∀ s ∈ m.atTicks es, ∀ i, s.dispatched = some i →
      ∀ w, i.Sensitive w → m.dialect.setting w = d.setting w) :
    (m.withDialect d).history es = (m.history es).map (·.withDialect d) := by
  induction es generalizing m with
  | nil => rfl
  | cons e es ih =>
    have hkept := m.dialect_respond e
    cases e with
    | tick =>
      have htick : (m.withDialect d).tick =
          { m.tick with machine := m.tick.machine.withDialect d } :=
        tick_withDialect (h m List.mem_cons_self)
      have hrest := ih (m := m.tick.machine) fun s hs i hi w hw =>
        (congrArg (·.setting w) hkept).trans (h s (List.mem_cons_of_mem m hs) i hi w hw)
      simp only [history, respond, htick, hrest, List.map_cons, Response.withDialect]
    | timer =>
      have hrest := ih (m := m.timerTick) h
      exact congrArg (List.cons _) hrest
    | key k =>
      have hrest := ih (m := m.setKey k) h
      exact congrArg (List.cons _) hrest

theorem boot_withDialect (program : Array UInt8) (d d' : Dialect) (source : ByteSource) :
    boot program d' source = (boot program d source).map (·.withDialect d') := by
  unfold boot
  cases Memory.fresh.load program <;> rfl

/-- Switches bear on the instructions that they name and on no others. If two machines start with
one program and one source of random bytes, under dialects that differ only in switches to which no
instruction is sensitive that is taken up in a run, then the same run gives the same results, the
same log and the same machines, but for their dialects. -/
theorem history_boot_eq_of_insensitive {program : Array UInt8} {d : Dialect} {source : ByteSource}
    {m : Machine} (hm : boot program d source = .ok m) (d' : Dialect) (es : List Event)
    (h : ∀ s ∈ m.atTicks es, ∀ i, s.dispatched = some i →
      ∀ w, d.setting w ≠ d'.setting w → ¬ i.Sensitive w) :
    boot program d' source = .ok (m.withDialect d') ∧
      (m.withDialect d').history es = (m.history es).map (·.withDialect d') := by
  have hdialect : m.dialect = d := by
    obtain ⟨ram, -, rfl⟩ := boot_eq_ok hm
    rfl
  constructor
  · rw [boot_withDialect program d d', hm]
    rfl
  · apply history_withDialect
    intro s hs i hi w hw
    rw [hdialect]
    exact Decidable.byContradiction fun hne => h s hs i hi w hne hw

/-- A subtraction is not sensitive to where decimal digits go. -/
theorem history_boot_subtraction :
    ∃ m, boot #[0x80, 0x15] .legacy (.cycling #[]) = .ok m ∧
      m.dispatched = some ⟨0x8015⟩ ∧
      (m.withDialect { Dialect.legacy with stacksDigits := false }).history
          [.tick, .key 7, .timer] =
        (m.history [.tick, .key 7, .timer]).map
          (·.withDialect { Dialect.legacy with stacksDigits := false }) := by
  have hboot : ∃ m, boot #[0x80, 0x15] .legacy (.cycling #[]) = .ok m := exists_boot (by decide) _ _
  obtain ⟨m, hm⟩ := hboot
  have hdispatched : m.dispatched = some ⟨0x8015⟩ :=
    dispatched_eq_some_iff.2 ⟨mode_boot hm, fetch_boot hm (by decide)⟩
  refine ⟨m, hm, hdispatched, (history_boot_eq_of_insensitive hm _ _ ?_).2⟩
  intro s hs i hi w hw
  obtain rfl : s = m := List.mem_singleton.1 hs
  rw [hdispatched] at hi
  cases hi
  cases w with
  | stacksDigits =>
    rintro ⟨hselector, -⟩
    exact absurd hselector (by decide)
  | _ => exact absurd rfl hw

end Machine

end Chip8
