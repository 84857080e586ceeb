import Chip8.Proofs.Machine.Boot
import Chip8.Proofs.Machine.Change
import Chip8.Proofs.Machine.Drawing
import Chip8.Proofs.Machine.Interruption

namespace Chip8

/-- Whether two machines are alike but for the pictures on their screens and for the instructions
that they fetched last. -/
def Machine.AlikeBehindScreen (m m' : Machine) : Prop :=
  ∃ screen last, m' = { m with screen, last }

/-- Whether two machines answer alike, and are alike afterwards, behind their screens. -/
structure Response.AlikeBehindScreen (r r' : Response) : Prop where
  result_eq : r'.result = r.result
  log_eq : r'.log = r.log
  machine : r.machine.AlikeBehindScreen r'.machine

namespace Machine

/-- Whether two machines have the same flag after a tick, if it makes the first one draw. -/
def FlagsAgree (m m' : Machine) : Prop :=
  ∀ i, m.completed = some i → i.selector = 0xD →
    m'.tick.machine.register Registers.flag = m.tick.machine.register Registers.flag

variable {m m' : Machine} {i : Instruction} {o : Operation} {es : List Event}

/-- A draw that meets no obstacle writes the screen and the flag. -/
theorem draw_of_obstacle {x y height : Nibble} (h : m.obstacle (.draw x y height) = none) :
    ∃ screen hit, m.draw x y height =
      .done { m with screen, registers := m.registers.set Registers.flag (flagOf hit) } := by
  have hfits : overrun m.index.toNat height.val = none := h
  unfold draw
  rw [Ram.readBlock_eq, hfits]
  exact ⟨_, _, rfl⟩

namespace AlikeBehindScreen

theorem draw {x y height : Nibble} (h : m.AlikeBehindScreen m')
    (hflag : m.obstacle (.draw x y height) = none →
      (m'.draw x y height).reached.register Registers.flag =
        (m.draw x y height).reached.register Registers.flag) :
    (m.draw x y height).reached.AlikeBehindScreen (m'.draw x y height).reached := by
  have hobstacle : m'.obstacle (.draw x y height) = m.obstacle (.draw x y height) := by
    obtain ⟨screen, last, rfl⟩ := h
    rfl
  by_cases hfree : m.obstacle (.draw x y height) = none
  · obtain ⟨screen, hit, hdrawn⟩ := draw_of_obstacle hfree
    obtain ⟨screen', hit', hdrawn'⟩ := draw_of_obstacle (hobstacle.trans hfree)
    have hsame : flagOf hit' = flagOf hit := by
      simpa [hdrawn, hdrawn', Attempt.done, register] using hflag hfree
    obtain ⟨_, last, rfl⟩ := h
    rw [hdrawn, hdrawn', hsame]
    exact ⟨screen', last, rfl⟩
  · have hstays : (m.draw x y height).reached = m := reached_execute_of_obstacle hfree
    rw [← hobstacle] at hfree
    have hstays' : (m'.draw x y height).reached = m' := reached_execute_of_obstacle hfree
    rwa [hstays, hstays']

/-- The other operations have nothing to do with the screen. -/
theorem execute_of_ne (h : m.AlikeBehindScreen m') (hclear : o ≠ .clear)
    (hdraw : ∀ x y height, o ≠ .draw x y height) :
    (m.execute o).reached.AlikeBehindScreen (m'.execute o).reached := by
  obtain ⟨screen, last, rfl⟩ := h
  have hspares : Change.Spares { screen := fun _ => screen, last := fun _ => last } o := by
    cases o with
    | clear => exact absurd rfl hclear
    | draw x y height => exact absurd rfl (hdraw x y height)
    | _ => simp [Change.Spares]
  exact ⟨screen, last, congrArg Attempt.reached (execute_change hspares)⟩

/-- Operations lead machines that are alike to machines that are, but for a draw that meets a lit
pixel on one screen only. -/
theorem execute (h : m.AlikeBehindScreen m')
    (hflag : ∀ x y height, o = .draw x y height → m.obstacle o = none →
      (m'.execute o).reached.register Registers.flag =
        (m.execute o).reached.register Registers.flag) :
    (m.execute o).reached.AlikeBehindScreen (m'.execute o).reached := by
  cases o with
  | draw x y height => exact h.draw (hflag x y height rfl)
  | clear =>
    obtain ⟨_, last, rfl⟩ := h
    exact ⟨.blank, last, rfl⟩
  | _ => exact h.execute_of_ne (by simp) (by simp)

/-- Machines that are alike go the same way at a tick, as long as it leaves them the same flag. -/
theorem respond_tick (h : m.AlikeBehindScreen m') (hflags : m.FlagsAgree m') :
    (m.respond .tick).AlikeBehindScreen (m'.respond .tick) := by
  obtain ⟨screen, last, hm'⟩ := h
  have hmode' : m'.mode = m.mode := by rw [hm']
  have hfetch' : m'.fetch = m.fetch := by rw [hm']; rfl
  cases hmode : m.mode with
  | awaitingKey x =>
    have hkey' : m'.key = m.key := by rw [hm']
    unfold respond Machine.tick
    rw [hmode', hmode]
    dsimp only
    unfold acceptKey
    rw [hkey']
    split
    · exact ⟨rfl, rfl, screen, last, hm'⟩
    · exact ⟨rfl, rfl, screen, last, by rw [hm']; rfl⟩
  | running =>
    rw [hmode] at hmode'
    cases hfetch : m.fetch with
    | error f =>
      rw [hfetch] at hfetch'
      have hlost : m.Lost f := ⟨hmode, hfetch⟩
      have hlost' : m'.Lost f := ⟨hmode', hfetch'⟩
      rw [respond, respond, hlost.tick, hlost'.tick]
      exact ⟨rfl, rfl, screen, last, hm'⟩
    | ok i =>
      rw [hfetch] at hfetch'
      have htick := tick_of_fetch hmode hfetch
      have htick' := tick_of_fetch hmode' hfetch'
      have hobstacle' : m'.obstacle i.operation = m.obstacle i.operation := by rw [hm']; rfl
      have hpc' : m'.pc = m.pc := by rw [hm']
      have hpass : (m.pass i).AlikeBehindScreen (m'.pass i) := ⟨screen, some i, by rw [hm']; rfl⟩
      rw [hobstacle', hpc'] at htick'
      rw [respond, respond, htick, htick']
      refine ⟨rfl, rfl, hpass.execute fun x y height ho hfree => ?_⟩
      have hcompleted : m.completed = some i := completed_eq_some_iff.2 ⟨hmode, hfetch, hfree⟩
      have hflag := hflags i hcompleted (Instruction.operation_eq_iff.1 ho).1
      rwa [htick, htick'] at hflag

/-- Machines that are alike stay so over a run, as long as every draw leaves them the same flag. -/
theorem history (h : m.AlikeBehindScreen m')
    (hflags : List.Forall₂ FlagsAgree (m.atTicks es) (m'.atTicks es)) :
    List.Forall₂ Response.AlikeBehindScreen (m.history es) (m'.history es) ∧
      (m.after es).AlikeBehindScreen (m'.after es) := by
  induction es generalizing m m' with
  | nil => exact ⟨.nil, h⟩
  | cons e es ih =>
    cases e with
    | tick =>
      obtain ⟨hfirst, hrest⟩ := List.forall₂_cons.1 hflags
      have hresponse := h.respond_tick hfirst
      obtain ⟨hhistory, hafter⟩ := ih hresponse.machine hrest
      exact ⟨.cons hresponse hhistory, hafter⟩
    | timer =>
      have hstep : m.timerTick.AlikeBehindScreen m'.timerTick := by
        obtain ⟨screen, last, rfl⟩ := h
        exact ⟨screen, last, rfl⟩
      obtain ⟨hhistory, hafter⟩ := ih hstep hflags
      exact ⟨.cons ⟨rfl, rfl, hstep⟩ hhistory, hafter⟩
    | key k =>
      have hstep : (m.setKey k).AlikeBehindScreen (m'.setKey k) := by
        obtain ⟨screen, last, rfl⟩ := h
        exact ⟨screen, last, rfl⟩
      obtain ⟨hhistory, hafter⟩ := ih hstep hflags
      exact ⟨.cons ⟨rfl, rfl, hstep⟩ hhistory, hafter⟩

/-- Once both screens have been cleared nothing is left in which the machines differ. -/
theorem tick_eq_of_clear (h : m.AlikeBehindScreen m') (hcompleted : m.completed = some i)
    (hclear : i.operation = .clear) : m'.tick = m.tick := by
  obtain ⟨hmode, hfetch, -⟩ := completed_eq_some_iff.1 hcompleted
  obtain ⟨screen, last, hm'⟩ := h
  have hmode' : m'.mode = .running := by rw [hm']; exact hmode
  have hfetch' : m'.fetch = .ok i := by rw [hm']; exact hfetch
  rw [tick_of_fetch hmode hfetch, tick_of_fetch hmode' hfetch', hclear, hm']
  rfl

end AlikeBehindScreen

/-- The screen bears on the rest of the machine through the flag of a draw alone. Two machines that
differ in their screens and in the instructions that they fetched last, and get the same events,
answer alike and stay alike as long as every draw leaves the same flag in both. A tick that clears
the screen does away with the difference, and they are one from then on. -/
theorem screen_feeds_back_by_flag {m m' : Machine} {es : List Event}
    (h : m.AlikeBehindScreen m')
    (hflags : List.Forall₂ FlagsAgree (m.atTicks es) (m'.atTicks es)) :
    List.Forall₂ Response.AlikeBehindScreen (m.history es) (m'.history es) ∧
      ∀ i, (m.after es).completed = some i → i.selector = 0x0 → i.n = 0x0 →
        ∀ fs, (m'.after es).history (.tick :: fs) = (m.after es).history (.tick :: fs) := by
  obtain ⟨hhistory, hafter⟩ := h.history hflags
  refine ⟨hhistory, fun i hcompleted hselector hn fs => ?_⟩
  have hclear : i.operation = .clear := Instruction.operation_eq_iff.2 ⟨hselector, hn⟩
  rw [Machine.history, Machine.history, respond, respond,
    hafter.tick_eq_of_clear hcompleted hclear]

/-- A draw whose set bits all fall on unlit pixels leaves a flag of zero. -/
theorem tick_of_not_met (hmode : m.mode = .running) (hfetch : m.fetch = .ok i)
    (hdraw : i.selector = 0xD) (hwindow : ∀ r < i.n.val, m.index.toNat + r < memorySize)
    (hmet : ¬ m.screen.Met m.spriteBit (m.spriteOrigin i.x i.y false) (8 * i.n.val)) :
    ∃ screen, m.tick.machine =
      { m.pass i with screen, registers := m.registers.set Registers.flag 0 } := by
  obtain ⟨screen, hdone, -⟩ := execute_draw (m := m.pass i) hdraw hwindow
  have hflag : flagOf (decide (m.screen.Met m.spriteBit (m.spriteOrigin i.x i.y false)
      (8 * i.n.val))) = 0 := by
    rw [decide_eq_false hmet]
    rfl
  refine ⟨screen, ?_⟩
  rw [tick_of_fetch hmode hfetch, hdone, ← hflag]
  rfl

/-- A program that draws a glyph in the first corner and then clears the screen, with a pixel lit
far from the glyph on one of two screens. -/
theorem screen_feeds_back_by_flag_until_cleared :
    ∃ m m', boot #[0xD0, 0x15, 0x00, 0xE0] .compliant (.cycling #[]) = .ok m ∧
      m' = { m with screen := Screen.blank.flip 40 20 } ∧
      ∀ fs, (m'.after [.tick]).history (.tick :: fs) = (m.after [.tick]).history (.tick :: fs) := by
  have hboot : ∃ m, boot #[0xD0, 0x15, 0x00, 0xE0] .compliant (.cycling #[]) = .ok m :=
    exists_boot (by decide) _ _
  obtain ⟨m, hm⟩ := hboot
  obtain ⟨m', hm'⟩ : ∃ m' : Machine, m' = { m with screen := Screen.blank.flip 40 20 } := ⟨_, rfl⟩
  have hfetch : m.fetch = .ok ⟨0xD015⟩ := fetch_boot hm (by decide)
  have hmode : m.mode = .running := mode_boot hm
  have hfetch' : m'.fetch = .ok ⟨0xD015⟩ := by rw [hm']; exact hfetch
  have hmode' : m'.mode = .running := by rw [hm']; exact hmode
  obtain ⟨hindex, hscreen, hindex', horigin'⟩ : m.index = 0 ∧ m.screen = .blank ∧
      m'.index = 0 ∧ m'.spriteOrigin 0 1 false = (0, 0) := by
    obtain ⟨ram, -, rfl⟩ := boot_eq_ok hm
    rw [hm']
    exact ⟨rfl, rfl, rfl, rfl⟩
  have hwindow : ∀ r < (⟨0xD015⟩ : Instruction).n.val, (0 : UInt16).toNat + r < memorySize := by
    decide
  obtain ⟨screen, hdrawn⟩ := by
    refine tick_of_not_met hmode hfetch (by decide) (by rwa [hindex]) ?_
    rintro ⟨p, -, -, hlit⟩
    rw [hscreen, Screen.pixel_blank] at hlit
    cases hlit
  obtain ⟨screen', hdrawn'⟩ := by
    refine tick_of_not_met hmode' hfetch' (by decide) (by rwa [hindex']) ?_
    have hx : (⟨0xD015⟩ : Instruction).x = 0 := by decide
    have hy : (⟨0xD015⟩ : Instruction).y = 1 := by decide
    rw [hx, hy, horigin', hm']
    rintro ⟨p, -, -, hlit⟩
    dsimp only at hlit
    rw [Screen.pixel_flip_blank, decide_eq_true_iff] at hlit
    simp only [Screen.spot, Screen.width] at hlit
    omega
  have hflags : m.FlagsAgree m' := fun i _ _ => by
    rw [hdrawn, hdrawn']
    exact (Registers.get_set_self ..).trans (Registers.get_set_self ..).symm
  have hcompleted : (m.after [.tick]).completed = some ⟨0x00E0⟩ := by
    have hafter : m.after [.tick] = m.tick.machine := rfl
    have hpc : (m.pass ⟨0xD015⟩).pc.toNat = programStart + 2 := by
      rw [pass_pc_toNat hfetch, pc_boot hm]
      rfl
    have hoperation : (⟨0x00E0⟩ : Instruction).operation = .clear := by decide
    rw [hafter, hdrawn]
    refine completed_eq_some_iff.2 ⟨hmode, ?_, ?_⟩
    · refine fetch_of_ram_eq (k := 2) hm ?_ (by decide) hpc
      rfl
    · rw [hoperation]
      exact overrun_zero _
  have hall : List.Forall₂ FlagsAgree (m.atTicks [.tick]) (m'.atTicks [.tick]) :=
    .cons hflags .nil
  obtain ⟨-, hcleared⟩ :=
    screen_feeds_back_by_flag ⟨Screen.blank.flip 40 20, m.last, hm'⟩ hall
  exact ⟨m, m', hm, hm', hcleared _ hcompleted (by decide) (by decide)⟩

end Machine

end Chip8
