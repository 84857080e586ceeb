import Chip8.Proofs.Machine.Boot
import Chip8.Proofs.Machine.Effect

namespace Chip8

namespace Instruction

/-- Whether a word starts a subroutine. -/
def isCall (i : Instruction) : Bool := i.selector == 0x2

/-- Whether a word ends one. -/
def isReturn (i : Instruction) : Bool := i.selector == 0x0 && i.n == 0xE

theorem isCall_iff {i : Instruction} : i.isCall = true ↔ ∃ a, i.operation = .call a := by
  simp [isCall, operation_eq_iff, Operation.Encodes]

theorem isReturn_iff {i : Instruction} : i.isReturn = true ↔ i.operation = .ret := by
  simp [isReturn, operation_eq_iff, Operation.Encodes]

theorem isReturn_of_isCall {i : Instruction} (h : i.isCall = true) : i.isReturn = false := by
  have hs : i.selector = 0x2 := by simpa [isCall] using h
  simp [isReturn, hs]

theorem isCall_of_isReturn {i : Instruction} (h : i.isReturn = true) : i.isCall = false := by
  cases hcall : i.isCall with
  | false => rfl
  | true =>
    rw [isReturn_of_isCall hcall] at h
    cases h

end Instruction

namespace CallStack

/-- The return address of a call, counted from the first one under way. -/
def entry (s : CallStack) (k : Nat) : Option UInt16 := s.returns.reverse[k]?

theorem entry_of_suffix {s : CallStack} {t : List UInt16} (h : t <:+ s.returns) {k : Nat}
    (hk : k < t.length) : s.entry k = t.reverse[k]? := by
  obtain ⟨r, hr⟩ := h
  have hlength : k < t.reverse.length := by simpa using hk
  rw [entry, ← hr, List.reverse_append, List.getElem?_append_left hlength]

end CallStack

namespace Machine

/-- Only calls and returns touch the calls under way. -/
theorem stack_execute {m : Machine} {o : Operation} (hcall : ∀ a, o ≠ .call a) (hret : o ≠ .ret) :
    (m.execute o).reached.stack = m.stack := by
  rw [reached_execute]
  cases o with
  | ret => exact absurd rfl hret
  | call a => exact absurd rfl (hcall a)
  | _ => rfl

theorem stack_cutShort (m : Machine) (o : Operation) : (m.cutShort o).stack = m.stack := by
  cases o <;> rfl

theorem returns_call {m : Machine} {a : Address} (h : m.obstacle (.call a) = none) :
    (m.call a).reached.stack.returns = m.pc :: m.stack.returns := by
  rw [← fault_call] at h
  unfold call at h ⊢
  cases hpush : m.stack.push m.pc with
  | error f =>
    rw [hpush] at h
    cases h
  | ok stack => exact CallStack.push_eq_ok_iff.1 hpush

theorem returns_ret {m : Machine} (h : m.obstacle .ret = none) :
    m.stack.returns = m.ret.reached.pc :: m.ret.reached.stack.returns := by
  rw [← fault_ret] at h
  unfold ret at h ⊢
  cases hpop : m.stack.pop with
  | error f =>
    rw [hpop] at h
    cases h
  | ok top => exact CallStack.pop_eq_ok_iff.1 hpop

/-- The three ways of an event with the calls under way: it starts one, it ends the latest, or it
leaves them alone. -/
inductive StackRule (m : Machine) (e : Event) : Prop
  | call (i : Instruction) : m.completion e = some i → i.isCall = true →
    (m.respond e).machine.stack.returns = (m.pc + 2) :: m.stack.returns → StackRule m e
  | ret (i : Instruction) : m.completion e = some i → i.isReturn = true →
    m.stack.returns = (m.respond e).machine.pc :: (m.respond e).machine.stack.returns →
    StackRule m e
  | keep : (∀ i, m.completion e = some i → i.isCall = false ∧ i.isReturn = false) →
    (m.respond e).machine.stack = m.stack → StackRule m e

theorem stackRule_of_completed {m : Machine} {i : Instruction} (h : m.completed = some i) :
    m.StackRule .tick := by
  obtain ⟨hmode, hfetch, hobstacle⟩ := completed_eq_some_iff.1 h
  have hmachine : (m.respond .tick).machine = ((m.pass i).execute i.operation).reached :=
    congrArg Tick.machine (tick_of_fetch hmode hfetch)
  cases hcall : i.isCall with
  | true =>
    obtain ⟨a, ha⟩ := Instruction.isCall_iff.1 hcall
    refine .call i h hcall ?_
    rw [hmachine, ha]
    rw [ha] at hobstacle
    exact returns_call (m := m.pass i) hobstacle
  | false =>
    cases hreturn : i.isReturn with
    | true =>
      have ho := Instruction.isReturn_iff.1 hreturn
      refine .ret i h hreturn ?_
      rw [hmachine, ho]
      rw [ho] at hobstacle
      exact returns_ret (m := m.pass i) hobstacle
    | false =>
      refine .keep ?_ ?_
      · intro j hj
        obtain rfl : i = j := Option.some.inj (h.symm.trans hj)
        exact ⟨hcall, hreturn⟩
      · rw [hmachine]
        refine stack_execute (m := m.pass i) (fun a ha => ?_) (fun ho => ?_)
        · rw [Instruction.isCall_iff.2 ⟨a, ha⟩] at hcall
          cases hcall
        · rw [Instruction.isReturn_iff.2 ho] at hreturn
          cases hreturn

/-- A tick that carries out no instruction leaves the calls alone, failing ticks included. -/
theorem stack_tick_of_not_completed {m : Machine} (h : m.completed = none) :
    m.tick.machine.stack = m.stack := by
  have htick := m.tickRule
  have hnone (i : Instruction) (hmode : m.mode = .running) (hfetch : m.fetch = .ok i) :
      m.obstacle i.operation ≠ none := by
    intro hobstacle
    rw [completed_eq_some_iff.2 ⟨hmode, hfetch, hobstacle⟩] at h
    cases h
  generalize m.tick = t at htick ⊢
  cases htick with
  | wait x hmode hkey => rfl
  | accept x hmode hkey => rfl
  | lost f hmode hfetch => rfl
  | run i hmode hfetch =>
    have hobstacle : (m.pass i).obstacle i.operation ≠ none := hnone i hmode hfetch
    dsimp only
    rw [reached_execute_of_obstacle hobstacle, stack_cutShort]
    rfl

theorem stackRule (m : Machine) (e : Event) : m.StackRule e := by
  cases e with
  | timer => exact .keep (fun i hi => by cases hi) rfl
  | key k => exact .keep (fun i hi => by cases hi) rfl
  | tick =>
    cases hcompleted : m.completed with
    | some i => exact stackRule_of_completed hcompleted
    | none =>
      refine .keep (fun i hi => ?_) (stack_tick_of_not_completed hcompleted)
      have hnone : m.completion .tick = none := hcompleted
      rw [hnone] at hi
      cases hi

/-- Calls that were under way stay under way as long as there are at least as many. -/
theorem suffix_respond {m : Machine} {e : Event} {t : List UInt16} (h : t <:+ m.stack.returns)
    (hdepth : t.length ≤ (m.respond e).machine.stack.depth) :
    t <:+ (m.respond e).machine.stack.returns := by
  cases m.stackRule e with
  | call i hi hcall hreturns =>
    rw [hreturns]
    exact h.trans (List.suffix_cons _ _)
  | ret i hi hret hreturns =>
    rw [hreturns, List.suffix_cons_iff] at h
    rcases h with heq | hsuffix
    · have hlength := congrArg List.length heq
      rw [List.length_cons] at hlength
      exact absurd hdepth (by simp only [CallStack.depth]; omega)
    · exact hsuffix
  | keep hi hstack =>
    rw [hstack]
    exact h

/-- Whether more than `d` calls are under way all along a run. -/
def StaysAbove (m : Machine) (d : Nat) (es : List Event) : Prop :=
  ∀ p, p <+: es → d < (m.after p).stack.depth

theorem staysAbove_nil {m : Machine} {d : Nat} : m.StaysAbove d [] ↔ d < m.stack.depth := by
  simp [StaysAbove]

theorem staysAbove_cons {m : Machine} {d : Nat} {e : Event} {es : List Event} :
    m.StaysAbove d (e :: es) ↔
      d < m.stack.depth ∧ (m.respond e).machine.StaysAbove d es := by
  constructor
  · intro h
    refine ⟨h [] List.nil_prefix, fun p hp => ?_⟩
    exact h (e :: p) (List.cons_prefix_cons.2 ⟨rfl, hp⟩)
  · rintro ⟨hfirst, hrest⟩ p hp
    rcases List.prefix_cons_iff.1 hp with rfl | ⟨q, rfl, hq⟩
    · exact hfirst
    · exact hrest q hq

theorem StaysAbove.of_prefix {m : Machine} {d : Nat} {p es : List Event} (h : m.StaysAbove d es)
    (hp : p <+: es) : m.StaysAbove d p := by
  intro q hq
  exact h q (hq.trans hp)

/-- The calls up to one that was under way stay so as long as the run is deeper than those before
it. -/
theorem suffix_after {m : Machine} {a : UInt16} {t : List UInt16} {es : List Event}
    (h : a :: t <:+ m.stack.returns) (habove : m.StaysAbove t.length es) :
    a :: t <:+ (m.after es).stack.returns := by
  induction es generalizing m with
  | nil => exact h
  | cons e es ih =>
    have hrest := (staysAbove_cons.1 habove).2
    have hdepth := hrest [] List.nil_prefix
    exact ih (suffix_respond h hdepth) hrest

/-- What ends the call made with the calls `t` under way is a return to its address. -/
theorem return_of_depth_le {m : Machine} {e : Event} {a : UInt16} {t : CallStack}
    (h : a :: t.returns <:+ m.stack.returns)
    (hdepth : (m.respond e).machine.stack.depth ≤ t.depth) :
    ∃ i, m.completion e = some i ∧ i.isReturn = true ∧ (m.respond e).machine.pc = a ∧
      (m.respond e).machine.stack = t := by
  have hle := h.length_le
  simp only [CallStack.depth, List.length_cons] at hle hdepth
  cases m.stackRule e with
  | call i hi hcall hreturns =>
    rw [hreturns, List.length_cons] at hdepth
    omega
  | ret i hi hret hreturns =>
    rw [hreturns, List.suffix_cons_iff] at h
    rcases h with heq | hsuffix
    · injection heq with hpc hrest
      exact ⟨i, hi, hret, hpc.symm, CallStack.ext hrest.symm⟩
    · have hlength := hsuffix.length_le
      rw [List.length_cons] at hlength
      omega
  | keep hi hstack =>
    rw [hstack] at hdepth
    omega

theorem depth_respond (m : Machine) (e : Event) :
    (m.respond e).machine.stack.depth + (m.completion e).toList.countP Instruction.isReturn =
      m.stack.depth + (m.completion e).toList.countP Instruction.isCall := by
  unfold CallStack.depth
  cases m.stackRule e with
  | call i hi hcall hreturns =>
    have hreturn := Instruction.isReturn_of_isCall hcall
    rw [hi, hreturns]
    simp [hcall, hreturn]
  | ret i hi hreturn hreturns =>
    have hcall := Instruction.isCall_of_isReturn hreturn
    rw [hi, hreturns]
    simp [hcall, hreturn]
  | keep hi hstack =>
    rw [hstack]
    cases hcompletion : m.completion e with
    | none => rfl
    | some i =>
      obtain ⟨hcall, hreturn⟩ := hi i hcompletion
      simp [hcall, hreturn]

theorem depth_after (m : Machine) (es : List Event) :
    (m.after es).stack.depth + (m.completions es).countP Instruction.isReturn =
      m.stack.depth + (m.completions es).countP Instruction.isCall := by
  induction es generalizing m with
  | nil => rfl
  | cons e es ih =>
    have hstep := m.depth_respond e
    have hrest := ih (m.respond e).machine
    rw [after_cons, completions_cons, List.countP_append, List.countP_append]
    omega

theorem returns_tick_of_isCall {m : Machine} (hmode : m.mode = .running)
    (hdepth : m.stack.depth < 16) (hpc : m.pc.toNat ≤ 0xFFE) (hcall : m.next.isCall = true) :
    m.completed = some m.next ∧ m.tick.machine.stack.returns = (m.pc + 2) :: m.stack.returns := by
  obtain ⟨a, ha⟩ := Instruction.isCall_iff.1 hcall
  have hfetch : m.fetch = .ok m.next := fetch_of_lt (Nat.lt_succ_of_le hpc)
  have hobstacle : m.obstacle m.next.operation = none := by
    rw [ha]
    exact if_neg (Nat.ne_of_lt hdepth)
  have hcompleted := completed_eq_some_iff.2 ⟨hmode, hfetch, hobstacle⟩
  refine ⟨hcompleted, ?_⟩
  cases m.stackRule .tick with
  | call i hi hcall hreturns => exact hreturns
  | ret i hi hreturn hreturns =>
    obtain rfl : m.next = i := Option.some.inj (hcompleted.symm.trans hi)
    rw [Instruction.isReturn_of_isCall hcall] at hreturn
    cases hreturn
  | keep hi hstack =>
    rw [(hi m.next hcompleted).1] at hcall
    cases hcall

/-- Subroutines nest. A call that finds room is carried out, and for as long as the run stays deeper
than the calls under way before it, these and its own return address stay where they are. What
first ends it is a return, which goes on behind the call with the calls from before. Over a whole
run the calls under way are those made less those ended, and never more than sixteen. -/
theorem subroutines_nest :
    (∀ m : Machine, m.mode = .running → m.stack.depth < 16 → m.pc.toNat ≤ 0xFFE →
      m.next.isCall = true →
      m.completed = some m.next ∧ m.tick.machine.stack.depth = m.stack.depth + 1 ∧
      ∀ es, m.tick.machine.StaysAbove m.stack.depth es →
        (∀ p, p <+: es →
          (m.tick.machine.after p).stack.entry m.stack.depth = some (m.pc + 2) ∧
          ∀ k < m.stack.depth, (m.tick.machine.after p).stack.entry k = m.stack.entry k) ∧
        ∀ e, (m.tick.machine.after (es ++ [e])).stack.depth ≤ m.stack.depth →
          e = .tick ∧
          (∃ i, (m.tick.machine.after es).completed = some i ∧ i.isReturn = true) ∧
          (m.tick.machine.after (es ++ [e])).pc.toNat = m.pc.toNat + 2 ∧
          (m.tick.machine.after (es ++ [e])).stack = m.stack) ∧
    ∀ program d source m, boot program d source = .ok m → ∀ es,
      (m.after es).stack.depth + (m.completions es).countP Instruction.isReturn =
        (m.completions es).countP Instruction.isCall ∧
      (m.after es).stack.depth ≤ 16 := by
  constructor
  · intro m hmode hdepth hpc hcall
    obtain ⟨hcompleted, hreturns⟩ := returns_tick_of_isCall hmode hdepth hpc hcall
    -- The calls from before and the new one stay the end of the list, the latest being first.
    have hsuffix : (m.pc + 2) :: m.stack.returns <:+ m.tick.machine.stack.returns :=
      ⟨[], hreturns.symm⟩
    refine ⟨hcompleted, congrArg List.length hreturns, fun es habove => ⟨fun p hp => ?_, ?_⟩⟩
    · have hframe := suffix_after hsuffix (habove.of_prefix hp)
      constructor
      · have htop : m.stack.depth < ((m.pc + 2) :: m.stack.returns).length :=
          Nat.lt_succ_self m.stack.returns.length
        have hlast : m.stack.depth = m.stack.returns.reverse.length := List.length_reverse.symm
        rw [CallStack.entry_of_suffix hframe htop, List.reverse_cons, hlast,
          List.getElem?_concat_length]
      · intro k hk
        have hlength : k < ((m.pc + 2) :: m.stack.returns).length := Nat.lt_succ_of_lt hk
        have hbelow : k < m.stack.returns.reverse.length := by rwa [List.length_reverse]
        rw [CallStack.entry_of_suffix hframe hlength, List.reverse_cons,
          List.getElem?_append_left hbelow, CallStack.entry]
    · intro e hback
      rw [after_append] at hback ⊢
      have hframe := suffix_after hsuffix habove
      obtain ⟨i, hi, hreturn, hpc', hstack⟩ := return_of_depth_le hframe hback
      cases e with
      | timer => cases hi
      | key k => cases hi
      | tick =>
        refine ⟨rfl, ⟨i, hi, hreturn⟩, ?_, hstack⟩
        have hfetch : m.fetch = .ok m.next := fetch_of_lt (Nat.lt_succ_of_le hpc)
        exact (congrArg UInt16.toNat hpc').trans (pass_pc_toNat hfetch)
  · intro program d source m hboot es
    have hafter := m.depth_after es
    have hempty : m.stack.depth = 0 := congrArg CallStack.depth (stack_boot hboot)
    rw [hempty, Nat.zero_add] at hafter
    exact ⟨hafter, (m.after es).stack.length_le⟩

/-- A call of a subroutine that returns at once, while the timer counts down. -/
theorem subroutines_nest_calling :
    ∃ m, boot #[0x22, 0x04, 0x00, 0x00, 0x00, 0xEE] .compliant (.cycling #[]) = .ok m ∧
      m.tick.machine.stack.depth = 1 ∧
      (m.tick.machine.after [.timer]).stack.entry 0 = some 0x202 ∧
      (m.tick.machine.after [.timer, .tick]).pc.toNat = 0x202 ∧
      (m.tick.machine.after [.timer, .tick]).stack = .empty := by
  have hboot : ∃ m, boot #[0x22, 0x04, 0x00, 0x00, 0x00, 0xEE] .compliant (.cycling #[]) = .ok m :=
    exists_boot (by decide) _ _
  obtain ⟨m, hm⟩ := hboot
  have hfetch := fetch_boot hm (by decide)
  have hnext := (fetch_eq_ok_iff.1 hfetch).2
  have hmode := mode_boot hm
  have hpc := pc_boot hm
  have hstack := stack_boot hm
  obtain ⟨-, hdepth, hrun⟩ := subroutines_nest.1 m hmode (by rw [hstack]; decide)
    (by rw [hpc]; decide) (by rw [← hnext]; decide)
  have htick : m.tick.machine =
      { m with pc := 0x204, last := some ⟨0x2204⟩, stack := ⟨[0x202], by decide⟩ } := by
    obtain ⟨ram, -, rfl⟩ := boot_eq_ok hm
    rw [tick_of_fetch hmode hfetch]
    rfl
  have hreturn : m.tick.machine.timerTick.fetch = .ok ⟨0x00EE⟩ := by
    have hkept : Ram.fresh.load #[0x22, 0x04, 0x00, 0x00, 0x00, 0xEE] =
        .ok m.tick.machine.timerTick.ram := by
      have hload := load_boot hm
      rw [htick]
      exact hload
    have hinside : m.tick.machine.timerTick.pc.toNat = programStart + 4 := by
      rw [htick]
      rfl
    exact fetch_of_load hkept (by decide) hinside
  have hdeeper : m.stack.depth < m.tick.machine.stack.depth := by
    rw [hdepth]
    exact Nat.lt_succ_self _
  have habove : m.tick.machine.StaysAbove m.stack.depth [.timer] :=
    staysAbove_cons.2 ⟨hdeeper, staysAbove_nil.2 hdeeper⟩
  obtain ⟨hframe, hback⟩ := hrun [.timer] habove
  obtain ⟨-, -, hpc', hstack'⟩ := hback .tick (by
    change m.tick.machine.timerTick.tick.machine.stack.depth ≤ _
    rw [tick_of_fetch (by rw [htick]; exact hmode) hreturn, htick]
    exact Nat.zero_le _)
  have hentry := (hframe [.timer] List.prefix_rfl).1
  rw [hstack, hpc] at hentry
  rw [hstack] at hdepth
  rw [hpc] at hpc'
  exact ⟨m, hm, hdepth, hentry, hpc', hstack'.trans hstack⟩

end Machine

end Chip8
