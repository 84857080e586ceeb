import Chip8.Proofs.Machine.Boot
import Chip8.Proofs.Machine.Footprint
import Chip8.Proofs.Machine.Meantime

namespace Chip8

/-- Whether a word makes the machine wait for a key. -/
def Instruction.isKeyWait (i : Instruction) : Bool := i.selector == 0xF && i.immediate == 0x0A

theorem Instruction.isKeyWait_iff {i : Instruction} :
    i.isKeyWait = true ↔ i.operation = .awaitKey i.x := by
  simp [isKeyWait, operation_eq_iff, Operation.Encodes]

namespace Machine

/-- Whether the next tick takes a key. -/
def acceptsKey (m : Machine) : Bool :=
  match m.tick.result with
  | .ok .keyAccepted => true
  | _ => false

/-- The instructions of a run that wait for a key, in order. -/
def keyWaits (m : Machine) (es : List Event) : List Instruction :=
  (m.completions es).filter Instruction.isKeyWait

/-- How many keys a run takes. -/
def keysAccepted (m : Machine) (es : List Event) : Nat := (m.atTicks es).countP acceptsKey

theorem keyWaits_cons (m : Machine) (e : Event) (es : List Event) :
    m.keyWaits (e :: es) =
      (m.completion e).toList.filter Instruction.isKeyWait ++
        (m.respond e).machine.keyWaits es := by
  rw [keyWaits, completions_cons, List.filter_append]
  rfl

theorem keysAccepted_tick (m : Machine) (es : List Event) :
    m.keysAccepted (.tick :: es) =
      m.tick.machine.keysAccepted es + if m.acceptsKey then 1 else 0 :=
  List.countP_cons

theorem keysAccepted_cons (m : Machine) (e : Event) (es : List Event) :
    m.keysAccepted (e :: es) = m.keysAccepted [e] + (m.respond e).machine.keysAccepted es := by
  cases e with
  | tick =>
    rw [keysAccepted_tick, keysAccepted_tick, Nat.add_comm]
    exact congrArg (· + _) (Nat.zero_add _).symm
  | timer => exact (Nat.zero_add _).symm
  | key k => exact (Nat.zero_add _).symm

/-- What the waits and the keys accepted so far have to do with the mode of a machine. -/
def Balanced (waits : List Instruction) (accepted : Nat) : Mode → Prop
  | .running => waits.length = accepted
  | .awaitingKey x => waits.length = accepted + 1 ∧ waits.getLast?.map Instruction.x = some x

theorem keyWaits_tick (m : Machine) :
    m.keyWaits [.tick] = m.completed.toList.filter Instruction.isKeyWait := by
  rw [keyWaits_cons]
  exact List.append_nil _

/-- The three ways of a tick with the key wait: it begins one, it ends one, or it lets things
stand. -/
inductive KeyRule (m : Machine) (e : Event) : Prop
  | ask (i : Instruction) : m.mode = .running → m.keyWaits [e] = [i] → m.keysAccepted [e] = 0 →
    (m.respond e).machine.mode = .awaitingKey i.x → KeyRule m e
  | take (x : Nibble) : m.mode = .awaitingKey x → m.keyWaits [e] = [] → m.keysAccepted [e] = 1 →
    (m.respond e).machine.mode = .running → KeyRule m e
  | keep : m.keyWaits [e] = [] → m.keysAccepted [e] = 0 →
    (m.respond e).machine.mode = m.mode → KeyRule m e

theorem keyRule_of_completed {m : Machine} {i : Instruction} (h : m.completed = some i) :
    m.KeyRule .tick := by
  obtain ⟨hmode, hfetch, hobstacle⟩ := completed_eq_some_iff.1 h
  have htick := tick_of_fetch hmode hfetch
  have haccepted : m.keysAccepted [.tick] = 0 := by
    have hresult : m.tick.result = .ok .executed := by
      rw [htick, hobstacle]
      rfl
    rw [keysAccepted_tick, acceptsKey, hresult]
    rfl
  have hmachine : (m.respond .tick).machine = ((m.pass i).execute i.operation).reached :=
    congrArg Tick.machine htick
  cases hwait : i.isKeyWait with
  | true =>
    refine .ask i hmode ?_ haccepted ?_
    · rw [keyWaits_tick, h]
      simp [hwait]
    · rw [hmachine, Instruction.isKeyWait_iff.1 hwait]
      rfl
  | false =>
    refine .keep ?_ haccepted ?_
    · rw [keyWaits_tick, h]
      simp [hwait]
    · rw [hmachine]
      refine Decidable.byContradiction fun hchanged => ?_
      have hword := mode_execute_ne (m := m.pass i) i.encodes_operation hchanged
      simp [Instruction.isKeyWait, hword] at hwait

theorem mode_cutShort (m : Machine) (o : Operation) : (m.cutShort o).mode = m.mode := by
  cases o <;> rfl

theorem keyRule (m : Machine) (e : Event) : m.KeyRule e := by
  cases e with
  | timer => exact .keep rfl rfl rfl
  | key k => exact .keep rfl rfl rfl
  | tick =>
    cases hcompleted : m.completed with
    | some i => exact keyRule_of_completed hcompleted
    | none =>
      have hwaits : m.keyWaits [.tick] = [] := by
        rw [keyWaits_tick, hcompleted]
        rfl
      have haccepts := m.keysAccepted_tick []
      unfold acceptsKey at haccepts
      have htick := m.tickRule
      generalize hm : m.tick = t at haccepts htick
      have hmachine : (m.respond .tick).machine = t.machine := congrArg Tick.machine hm
      cases htick with
      | wait x hmode hkey => exact .keep hwaits haccepts (congrArg Machine.mode hmachine)
      | accept x hmode hkey => exact .take x hmode hwaits haccepts (congrArg Machine.mode hmachine)
      | lost f hmode hfetch => exact .keep hwaits haccepts (congrArg Machine.mode hmachine)
      | run i hmode hfetch =>
        cases hobstacle : m.obstacle i.operation with
        | none =>
          rw [completed_eq_some_iff.2 ⟨hmode, hfetch, hobstacle⟩] at hcompleted
          cases hcompleted
        | some f =>
          have hstopped : (m.pass i).obstacle i.operation ≠ none := by
            change m.obstacle i.operation ≠ none
            rw [hobstacle]
            exact Option.some_ne_none f
          rw [hobstacle] at haccepts
          refine .keep hwaits haccepts ((congrArg Machine.mode hmachine).trans ?_)
          dsimp only
          rw [reached_execute_of_obstacle hstopped, mode_cutShort]
          rfl

theorem Balanced.respond {m : Machine} {waits : List Instruction} {accepted : Nat}
    (h : Balanced waits accepted m.mode) (e : Event) :
    Balanced (waits ++ m.keyWaits [e]) (accepted + m.keysAccepted [e])
      (m.respond e).machine.mode := by
  cases m.keyRule e with
  | ask i hmode hwaits haccepted hmode' =>
    rw [hmode] at h
    rw [hwaits, haccepted, hmode']
    have hlength : waits.length = accepted := h
    refine ⟨?_, ?_⟩
    · rw [List.length_append, hlength]
      rfl
    · rw [List.getLast?_concat]
      rfl
  | take x hmode hwaits haccepted hmode' =>
    rw [hmode] at h
    rw [hwaits, haccepted, hmode', List.append_nil]
    exact h.1
  | keep hwaits haccepted hmode' =>
    rw [hwaits, haccepted, hmode', List.append_nil]
    exact h

theorem Balanced.after {m : Machine} {waits : List Instruction} {accepted : Nat}
    (h : Balanced waits accepted m.mode) (es : List Event) :
    Balanced (waits ++ m.keyWaits es) (accepted + m.keysAccepted es) (m.after es).mode := by
  induction es generalizing m waits accepted with
  | nil =>
    rw [show m.keyWaits [] = [] from rfl, List.append_nil]
    exact h
  | cons e es ih =>
    have hrest := ih (h.respond e)
    have hwaits : m.keyWaits (e :: es) = m.keyWaits [e] ++ (m.respond e).machine.keyWaits es := by
      rw [keyWaits_cons, keyWaits_cons]
      exact congrArg (· ++ _) (List.append_nil _).symm
    rw [hwaits, keysAccepted_cons, ← List.append_assoc, ← Nat.add_assoc]
    exact hrest

/-- The key set last in a run, or before it. -/
def latestKey (m : Machine) (es : List Event) : UInt8 := (keysSet es).getLastD m.key

theorem latestKey_cons (m : Machine) (e : Event) (es : List Event) :
    m.latestKey (e :: es) = (m.respond e).machine.latestKey es := by
  cases e with
  | tick =>
    have hkey : (m.respond .tick).machine.key = m.key := m.key_tick
    unfold latestKey
    rw [hkey]
    rfl
  | timer => rfl
  | key k => exact List.getLastD_cons

/-- A machine keeps the key set last. -/
theorem key_after (m : Machine) (es : List Event) : (m.after es).key = m.latestKey es := by
  induction es generalizing m with
  | nil => rfl
  | cons e es ih => rw [after_cons, ih, latestKey_cons]

/-- Whether all ticks of a run come while the key set last is zero. -/
def NoKeyAtTicks (m : Machine) (es : List Event) : Prop :=
  ∀ p q, es = p ++ .tick :: q → m.latestKey p = 0

theorem NoKeyAtTicks.respond {m : Machine} {e : Event} {es : List Event}
    (h : m.NoKeyAtTicks (e :: es)) : (m.respond e).machine.NoKeyAtTicks es := by
  intro p q hes
  rw [← latestKey_cons]
  exact h (e :: p) q (congrArg (e :: ·) hes)

theorem tick_of_key_eq_zero {m : Machine} {x : Nibble} (hmode : m.mode = .awaitingKey x)
    (hkey : m.key = 0) : m.tick = ⟨.ok .awaitingKey, m, []⟩ := by
  unfold tick
  rw [hmode]
  exact if_pos hkey

theorem tick_of_key_ne_zero {m : Machine} {x : Nibble} (hmode : m.mode = .awaitingKey x)
    (hkey : m.key ≠ 0) :
    m.tick = ⟨.ok .keyAccepted, { m.setRegister x m.key with mode := .running },
      [.keyStored m.key x]⟩ := by
  unfold tick
  rw [hmode]
  exact if_neg hkey

/-- A machine that waits for a key is touched by nothing but the timer and the keys that are
set. -/
theorem after_of_noKeyAtTicks {m : Machine} {x : Nibble} (hmode : m.mode = .awaitingKey x)
    {es : List Event} (h : m.NoKeyAtTicks es) :
    m.after es = m.elapse (es.count .timer) (keysSet es) := by
  induction es generalizing m with
  | nil => exact m.elapse_zero_nil.symm
  | cons e es ih =>
    have hrest := h.respond
    cases e with
    | tick =>
      have hkey : m.key = 0 := h [] es rfl
      have hwaits : (m.respond .tick).machine = m :=
        congrArg Tick.machine (tick_of_key_eq_zero hmode hkey)
      rw [hwaits] at hrest
      have hcount : (Event.tick :: es).count .timer = es.count .timer :=
        List.count_cons_of_ne (by decide)
      rw [after_cons, hwaits, ih hmode hrest, hcount]
      rfl
    | timer => exact (ih (m := m.timerTick) hmode hrest).trans (m.elapse_cons_timer es).symm
    | key k => exact (ih (m := m.setKey k) hmode hrest).trans (m.elapse_cons_key k es).symm

theorem latestKey_append (m : Machine) (es fs : List Event) :
    m.latestKey (es ++ fs) = (m.after es).latestKey fs := by
  rw [← key_after, ← key_after, after_append]

theorem NoKeyAtTicks.append {m : Machine} {es fs : List Event} (h : m.NoKeyAtTicks es)
    (hrest : (m.after es).NoKeyAtTicks fs) : m.NoKeyAtTicks (es ++ fs) := by
  intro p q hsplit
  obtain ⟨r, rfl, hfs⟩ | ⟨r, hes, htail⟩ := List.append_eq_append_iff.1 hsplit
  · rw [latestKey_append]
    exact hrest r q hfs
  · cases r with
    | nil =>
      rw [List.append_nil] at hes
      subst hes
      rw [← key_after]
      exact hrest [] q htail.symm
    | cons e r =>
      injection htail with he htail
      subst he
      exact h p r hes

theorem noKeyAtTicks_of_notMem {es : List Event} (h : .tick ∉ es) (m : Machine) :
    m.NoKeyAtTicks es := by
  rintro p q rfl
  exact absurd (List.mem_append_right p List.mem_cons_self) h

theorem keysSet_eq_nil {es : List Event} (h : ∀ k, .key k ∉ es) : keysSet es = [] := by
  refine List.filterMap_eq_nil_iff.2 fun e he => ?_
  cases e with
  | key k => exact absurd he (h k)
  | _ => rfl

theorem noKeyAtTicks_key_zero {es : List Event} (h : ∀ k, .key k ∉ es) (m : Machine) :
    m.NoKeyAtTicks (.key 0 :: es) := by
  intro p q hsplit
  cases p with
  | nil => cases hsplit
  | cons e p =>
    injection hsplit with he hes
    subst he hes
    have hp : ∀ k, .key k ∉ p := fun k hk => h k (List.mem_append_left _ hk)
    rw [latestKey_cons, latestKey, keysSet_eq_nil hp]
    rfl

/-- A key that is taken back before a tick comes is found by no tick. -/
theorem NoKeyAtTicks.released {m : Machine} {es fs gs : List Event} (h : m.NoKeyAtTicks es)
    (k : UInt8) (hfs : .tick ∉ fs) (hgs : ∀ k', .key k' ∉ gs) :
    m.NoKeyAtTicks (es ++ .key k :: fs ++ .key 0 :: gs) := by
  have hpressed : .tick ∉ .key k :: fs := by simp [hfs]
  exact (h.append (noKeyAtTicks_of_notMem hpressed _)).append (noKeyAtTicks_key_zero hgs _)

theorem latestKey_released {gs : List Event} (h : ∀ k, .key k ∉ gs) (m : Machine)
    (es : List Event) : m.latestKey (es ++ .key 0 :: gs) = 0 := by
  rw [latestKey_append, latestKey_cons, latestKey, keysSet_eq_nil h]
  rfl

theorem mode_after_of_noKeyAtTicks {m : Machine} {x : Nibble} (hmode : m.mode = .awaitingKey x)
    {es : List Event} (h : m.NoKeyAtTicks es) : (m.after es).mode = .awaitingKey x := by
  rw [after_of_noKeyAtTicks hmode h]
  exact hmode

theorem tick_after_of_latestKey_eq_zero {m : Machine} {x : Nibble}
    (hmode : m.mode = .awaitingKey x) {es : List Event} (h : m.NoKeyAtTicks es)
    (hkey : m.latestKey es = 0) : (m.after es).tick = ⟨.ok .awaitingKey, m.after es, []⟩ := by
  rw [← key_after] at hkey
  exact tick_of_key_eq_zero (mode_after_of_noKeyAtTicks hmode h) hkey

theorem balanced_boot {program : Array UInt8} {d : Dialect} {source : ByteSource} {m : Machine}
    (h : boot program d source = .ok m) (es : List Event) :
    Balanced (m.keyWaits es) (m.keysAccepted es) (m.after es).mode := by
  have hstart : Balanced [] 0 m.mode := by
    rw [mode_boot h]
    rfl
  have hafter := hstart.after es
  rwa [List.nil_append, Nat.zero_add] at hafter

/-- Waits for a key and keys taken take turns. In every run there have been as many waits as keys
while the machine runs, and one more while it waits, and then the key is for the register that the
last of them named. A waiting machine does nothing at its ticks as long as the key set last is zero,
and takes the first other key that it finds, having counted down the timer meanwhile and nothing
else. So a key that is taken back before a tick has found it is lost. -/
theorem key_waits_end_with_keys :
    (∀ program d source m, boot program d source = .ok m → ∀ es,
      (m.after es).mode = .running ∧ (m.keyWaits es).length = m.keysAccepted es ∨
        ∃ i, (m.after es).mode = .awaitingKey i.x ∧
          (m.keyWaits es).length = m.keysAccepted es + 1 ∧ (m.keyWaits es).getLast? = some i) ∧
    (∀ (m : Machine) x, m.mode = .awaitingKey x → ∀ es, m.NoKeyAtTicks es →
      (m.latestKey es = 0 → (m.after es).tick = ⟨.ok .awaitingKey, m.after es, []⟩) ∧
      ∀ k, m.latestKey es = k → k ≠ 0 →
        (m.after es).tick.result = .ok .keyAccepted ∧
        (m.after es).tick.machine =
          { m with
            registers := m.registers.set x k
            mode := .running
            key := k
            delay := UInt8.ofNat (m.delay.toNat - es.count .timer) }) ∧
    ∀ (m : Machine) x, m.mode = .awaitingKey x → ∀ es, m.NoKeyAtTicks es →
      ∀ k fs gs, .tick ∉ fs → (∀ k', .key k' ∉ gs) →
        (m.after (es ++ .key k :: fs ++ .key 0 :: gs)).tick.result = .ok .awaitingKey := by
  refine ⟨?_, ?_, ?_⟩
  · intro program d source m hboot es
    have hbalanced := balanced_boot hboot es
    cases hmode : (m.after es).mode with
    | running =>
      rw [hmode] at hbalanced
      exact .inl ⟨rfl, hbalanced⟩
    | awaitingKey x =>
      rw [hmode] at hbalanced
      obtain ⟨hlength, hlast⟩ := hbalanced
      obtain ⟨i, hi, rfl⟩ := Option.map_eq_some_iff.1 hlast
      exact .inr ⟨i, rfl, hlength, hi⟩
  · intro m x hmode es hes
    refine ⟨tick_after_of_latestKey_eq_zero hmode hes, ?_⟩
    rintro k rfl hk
    have hlatest := m.key_after es
    rw [← hlatest] at hk ⊢
    rw [tick_of_key_ne_zero (mode_after_of_noKeyAtTicks hmode hes) hk]
    refine ⟨rfl, ?_⟩
    dsimp only
    rw [hlatest, after_of_noKeyAtTicks hmode hes]
    rfl
  · intro m x hmode es hes k fs gs hfs hgs
    have hzero := latestKey_released hgs m (es ++ .key k :: fs)
    rw [tick_after_of_latestKey_eq_zero hmode (hes.released k hfs hgs) hzero]

/-- A program that waits for a key. The first key is taken back before the next tick. -/
theorem key_waits_end_with_keys_pressed :
    ∃ m, boot #[0xF3, 0x0A] .compliant (.cycling #[]) = .ok m ∧
      m.tick.machine.mode = .awaitingKey 3 ∧
      (m.keyWaits [.tick]).length = m.keysAccepted [.tick] + 1 ∧
      (m.tick.machine.after ([.key 5, .timer] ++ .key 0 :: [])).tick.result = .ok .awaitingKey ∧
      (m.tick.machine.after [.key 5, .timer, .key 0, .tick, .key 7]).tick.result =
        .ok .keyAccepted := by
  have hboot : ∃ m, boot #[0xF3, 0x0A] .compliant (.cycling #[]) = .ok m :=
    exists_boot (by decide) _ _
  obtain ⟨m, hm⟩ := hboot
  have hmode : m.tick.machine.mode = .awaitingKey 3 := by
    rw [tick_of_fetch (mode_boot hm) (fetch_boot hm (by decide))]
    rfl
  have hbalance := key_waits_end_with_keys.1 _ _ _ m hm [.tick]
  have hwait := key_waits_end_with_keys.2.1 m.tick.machine 3 hmode
  have hlost := key_waits_end_with_keys.2.2 m.tick.machine 3 hmode []
  have hidle : m.tick.machine.NoKeyAtTicks [.key 5, .timer, .key 0, .tick, .key 7] := by
    have hstart : m.tick.machine.NoKeyAtTicks [] := noKeyAtTicks_of_notMem (by decide) _
    have hheld : .tick ∉ [Event.timer] := by decide
    have hfree : ∀ k, .key k ∉ [Event.tick] := by simp
    exact (hstart.released 5 hheld hfree).append (noKeyAtTicks_of_notMem (by decide) _)
  refine ⟨m, hm, hmode, ?_, ?_, ((hwait _ hidle).2 7 rfl (by decide)).1⟩
  · obtain ⟨hrunning, -⟩ | ⟨i, -, hlength, -⟩ := hbalance
    · rw [after_cons] at hrunning
      exact absurd (hmode.symm.trans hrunning) (by simp)
    · exact hlength
  · exact hlost (noKeyAtTicks_of_notMem (by decide) _) 5 [.timer] [] (by decide) (by simp)

end Machine

end Chip8
