import Chip8.Proofs.Machine.Boot
import Chip8.Proofs.Machine.Meantime

namespace Chip8

namespace Machine

/-- What the ticks of a run give and add to the log, in order. -/
def reports (m : Machine) (es : List Event) : List (Except Fault Signal × List Record) :=
  (m.atTicks es).map fun s => (s.tick.result, s.tick.log)

/-- Whether two runs have the same ticks, the same timer ticks and the same keys, each in their
order, and put every timer tick on the same side of every tick that has to do with the timer, and
every key on the same side of every tick that looks at the key. In both runs `p` and `p'` come
before the same tick. -/
structure Reorders (m : Machine) (es fs : List Event) : Prop where
  ticks : es.count .tick = fs.count .tick
  timers : es.count .timer = fs.count .timer
  keys : keysSet es = keysSet fs
  timer_side : ∀ p q p' q', es = p ++ .tick :: q → fs = p' ++ .tick :: q' →
    p.count .tick = p'.count .tick → (m.after p).TouchesTimer → p.count .timer = p'.count .timer
  key_side : ∀ p q p' q', es = p ++ .tick :: q → fs = p' ++ .tick :: q' →
    p.count .tick = p'.count .tick → (m.after p).WatchesKey →
      (keysSet p).length = (keysSet p').length

theorem keysSet_append (es fs : List Event) : keysSet (es ++ fs) = keysSet es ++ keysSet fs :=
  List.filterMap_append

theorem atTicks_append (m : Machine) (es fs : List Event) :
    m.atTicks (es ++ fs) = m.atTicks es ++ (m.after es).atTicks fs := by
  induction es generalizing m with
  | nil => rfl
  | cons e es ih =>
    cases e with
    | tick => exact congrArg (m :: ·) (ih m.tick.machine)
    | timer => exact ih m.timerTick
    | key k => exact ih (m.setKey k)

theorem atTicks_of_notMem {es : List Event} (h : .tick ∉ es) (m : Machine) : m.atTicks es = [] := by
  induction es generalizing m with
  | nil => rfl
  | cons e es ih =>
    have hrest : .tick ∉ es := fun hes => h (List.mem_cons_of_mem e hes)
    cases e with
    | tick => exact absurd List.mem_cons_self h
    | timer => exact ih hrest m.timerTick
    | key k => exact ih hrest (m.setKey k)

/-- Without ticks a run only lets time pass and sets keys. -/
theorem after_of_notMem {es : List Event} (h : .tick ∉ es) (m : Machine) :
    m.after es = m.elapse (es.count .timer) (keysSet es) := by
  induction es generalizing m with
  | nil => exact m.elapse_zero_nil.symm
  | cons e es ih =>
    have hrest : .tick ∉ es := fun hes => h (List.mem_cons_of_mem e hes)
    cases e with
    | tick => exact absurd List.mem_cons_self h
    | timer => exact (ih hrest m.timerTick).trans (m.elapse_cons_timer es).symm
    | key k => exact (ih hrest (m.setKey k)).trans (m.elapse_cons_key k es).symm

/-- A run of timer ticks and keys. -/
def waiting (count : Nat) (keys : List UInt8) : List Event :=
  List.replicate count .timer ++ keys.map .key

theorem tick_notMem_waiting (count : Nat) (keys : List UInt8) : .tick ∉ waiting count keys := by
  simp [waiting]

theorem count_timer_waiting (count : Nat) (keys : List UInt8) :
    (waiting count keys).count .timer = count := by
  have hkeys : (keys.map Event.key).count .timer = 0 := List.count_eq_zero.2 (by simp)
  rw [waiting, List.count_append, List.count_replicate_self, hkeys, Nat.add_zero]

theorem keysSet_waiting (count : Nat) (keys : List UInt8) :
    keysSet (waiting count keys) = keys := by
  have htimers : keysSet (List.replicate count .timer) = [] := by
    simp [keysSet, Event.key?]
  have hkeys : keysSet (keys.map .key) = keys := by
    rw [keysSet, List.filterMap_map]
    exact List.filterMap_some
  rw [waiting, keysSet_append, htimers, hkeys, List.nil_append]

theorem after_waiting (m : Machine) (count : Nat) (keys : List UInt8) :
    m.after (waiting count keys) = m.elapse count keys := by
  rw [after_of_notMem (tick_notMem_waiting count keys), count_timer_waiting, keysSet_waiting]

variable {m b : Machine} {w q : List Event} {count : Nat} {keys : List UInt8}

theorem tick_elapse (htimer : m.TouchesTimer → count = 0) (hkey : m.WatchesKey → keys = []) :
    (m.elapse count keys).tick =
      { m.tick with machine := m.tick.machine.elapse count keys } := by
  refine tick_adjust (fun h => ?_) (fun h => ?_)
  · obtain rfl := htimer h
    exact funext fun d => UInt8.ofNat_toNat
  · obtain rfl := hkey h
    rfl

/-- The timer ticks and the keys before a tick that does not care for them may as well come after
it. -/
theorem run_of_tick (hw : .tick ∉ w) (hb : m.after w = b.elapse count keys)
    (htimer : b.TouchesTimer → count = 0) (hkey : b.WatchesKey → keys = []) (q : List Event) :
    m.after (w ++ .tick :: q) = b.tick.machine.after (waiting count keys ++ q) ∧
      m.reports (w ++ .tick :: q) =
        (b.tick.result, b.tick.log) :: b.tick.machine.reports (waiting count keys ++ q) := by
  have htick := tick_elapse htimer hkey
  have hmachine : (b.elapse count keys).tick.machine = b.tick.machine.elapse count keys :=
    congrArg Tick.machine htick
  constructor
  · rw [after_append, after_append, after_waiting, hb, after_cons, respond, hmachine]
  · have hnone := atTicks_of_notMem (tick_notMem_waiting count keys) b.tick.machine
    rw [reports, reports, atTicks_append, atTicks_append, atTicks_of_notMem hw, hnone,
      after_waiting, hb, List.nil_append, List.nil_append, atTicks, List.map_cons, hmachine, htick]

theorem not_watchesKey_of_dispatched {i : Instruction} (h : m.dispatched = some i)
    (hselector : i.selector ≠ 0xE) : ¬ m.WatchesKey := by
  rintro (hwaits | ⟨j, hj, hkeypad, -⟩)
  · unfold isAwaitingKey at hwaits
    rw [(dispatched_eq_some_iff.1 h).1] at hwaits
    cases hwaits
  · rw [h] at hj
    cases hj
    exact hselector hkeypad

theorem exists_of_append_eq {v q p r : List Event} (hv : .tick ∉ v)
    (h : v ++ q = p ++ .tick :: r) : ∃ s, p = v ++ s ∧ q = s ++ .tick :: r := by
  obtain ⟨s, hp, hq⟩ | ⟨s, hsplit, hr⟩ := List.append_eq_append_iff.1 h
  · exact ⟨s, hp, hq⟩
  · cases s with
    | nil =>
      rw [List.append_nil] at hsplit
      exact ⟨[], by rw [hsplit, List.append_nil], hr.symm⟩
    | cons e s =>
      injection hr with he hr
      rw [hsplit, ← he] at hv
      exact absurd (List.mem_append_right p List.mem_cons_self) hv

/-- What a run has up to a tick, but for the first `c` timer ticks and the keys `ks`, it still has
if the others come after its first tick. -/
theorem counts_of_tick {c u : Nat} {ks ls : List UInt8} (hw : .tick ∉ w)
    (hcount : w.count .timer = c + u) (hkeys : keysSet w = ks ++ ls) (s : List Event) :
    (w ++ .tick :: s).count .tick = (waiting u ls ++ s).count .tick + 1 ∧
      (w ++ .tick :: s).count .timer = c + (waiting u ls ++ s).count .timer ∧
      keysSet (w ++ .tick :: s) = ks ++ keysSet (waiting u ls ++ s) := by
  have hnone : w.count .tick = 0 := List.count_eq_zero.2 hw
  have hnone' : (waiting u ls).count .tick = 0 := List.count_eq_zero.2 (tick_notMem_waiting u ls)
  have htimer : (Event.tick :: s).count .timer = s.count .timer :=
    List.count_cons_of_ne (by decide)
  have hkey : keysSet (.tick :: s) = keysSet s := rfl
  refine ⟨?_, ?_, ?_⟩
  · rw [List.count_append, List.count_append, List.count_cons_self, hnone, hnone']
    omega
  · rw [List.count_append, List.count_append, htimer, hcount, count_timer_waiting, Nat.add_assoc]
  · rw [keysSet_append, keysSet_append, hkey, hkeys, keysSet_waiting, List.append_assoc]

/-- What is left of two runs once both have taken their first tick, and before it `c` timer ticks
and the keys `ks`. -/
theorem Reorders.next {w' q' : List Event} {c u u' : Nat} {ks ls ls' : List UInt8}
    (h : m.Reorders (w ++ .tick :: q) (w' ++ .tick :: q')) (hw : .tick ∉ w) (hw' : .tick ∉ w')
    (hcount : w.count .timer = c + u) (hcount' : w'.count .timer = c + u')
    (hkeys : keysSet w = ks ++ ls) (hkeys' : keysSet w' = ks ++ ls')
    (hafter : ∀ s, m.after (w ++ .tick :: s) = b.after (waiting u ls ++ s)) :
    b.Reorders (waiting u ls ++ q) (waiting u' ls' ++ q') := by
  have hleft := counts_of_tick hw hcount hkeys
  have hright := counts_of_tick hw' hcount' hkeys'
  refine ⟨?_, ?_, ?_, ?_, ?_⟩
  · have hticks := h.ticks
    rw [(hleft q).1, (hright q').1] at hticks
    omega
  · have htimers := h.timers
    rw [(hleft q).2.1, (hright q').2.1] at htimers
    omega
  · have hset := h.keys
    rw [(hleft q).2.2, (hright q').2.2] at hset
    exact List.append_cancel_left hset
  · intro p r p' r' hes hfs hticks htouches
    obtain ⟨s, rfl, rfl⟩ := exists_of_append_eq (tick_notMem_waiting u ls) hes
    obtain ⟨s', rfl, rfl⟩ := exists_of_append_eq (tick_notMem_waiting u' ls') hfs
    have hside := h.timer_side (w ++ .tick :: s) r (w' ++ .tick :: s') r' (by simp) (by simp)
    rw [hafter, (hleft s).1, (hright s').1, (hleft s).2.1, (hright s').2.1] at hside
    have heq := hside (by omega) htouches
    omega
  · intro p r p' r' hes hfs hticks hwatches
    obtain ⟨s, rfl, rfl⟩ := exists_of_append_eq (tick_notMem_waiting u ls) hes
    obtain ⟨s', rfl, rfl⟩ := exists_of_append_eq (tick_notMem_waiting u' ls') hfs
    have hside := h.key_side (w ++ .tick :: s) r (w' ++ .tick :: s') r' (by simp) (by simp)
    rw [hafter, (hleft s).1, (hright s').1, (hleft s).2.2, (hright s').2.2, List.length_append,
      List.length_append] at hside
    have heq := hside (by omega) hwatches
    omega

/-- Two numbers of timer ticks, or two lists of keys, have a common beginning, which is all of them
if they have to be equal. -/
theorem exists_common {α : Type} (op : α → α → α) (e : α) [Std.LawfulIdentity op e] {P : Prop}
    {a b : α} (h : P → a = b) :
    ∃ c u v, a = op c u ∧ b = op c v ∧ (P → u = e ∧ v = e) := by
  by_cases hP : P
  · have hall : a = op a e := (Std.LawfulRightIdentity.right_id a).symm
    exact ⟨a, e, e, hall, h hP ▸ hall, fun _ => ⟨rfl, rfl⟩⟩
  · have hleft (x : α) : x = op e x := (Std.LawfulLeftIdentity.left_id x).symm
    exact ⟨e, a, b, hleft a, hleft b, fun hp => absurd hp hP⟩

theorem Reorders.sides {w' q' : List Event}
    (h : m.Reorders (w ++ .tick :: q) (w' ++ .tick :: q')) (hw : .tick ∉ w) (hw' : .tick ∉ w') :
    (m.TouchesTimer → w.count .timer = w'.count .timer) ∧
      (m.WatchesKey → keysSet w = keysSet w') := by
  have hticks : w.count .tick = w'.count .tick := by
    rw [List.count_eq_zero.2 hw, List.count_eq_zero.2 hw']
  have hafter := after_of_notMem hw m
  constructor
  · intro htouches
    refine h.timer_side w q w' q' rfl rfl hticks ?_
    rw [hafter]
    exact htouches
  · intro hwatches
    have hlength := h.key_side w q w' q' rfl rfl hticks (by rw [hafter]; exact hwatches)
    have hkeys := h.keys
    rw [keysSet_append, keysSet_append] at hkeys
    exact (List.append_inj hkeys hlength).1

theorem Reorders.agree {es fs : List Event} (h : m.Reorders es fs) :
    m.after es = m.after fs ∧ m.reports es = m.reports fs := by
  -- By induction on the number of ticks, each taking along what the two runs have in common.
  induction hn : es.count .tick generalizing m es fs with
  | zero =>
    have hes : .tick ∉ es := List.count_eq_zero.1 hn
    have hfs : .tick ∉ fs := List.count_eq_zero.1 (h.ticks ▸ hn)
    constructor
    · rw [after_of_notMem hes, after_of_notMem hfs, h.timers, h.keys]
    · rw [reports, reports, atTicks_of_notMem hes, atTicks_of_notMem hfs]
  | succ n ih =>
    have hes : .tick ∈ es := List.count_pos_iff.1 (by omega)
    have hfs : .tick ∈ fs := List.count_pos_iff.1 (by rw [← h.ticks]; omega)
    obtain ⟨w, q, rfl, hw⟩ := List.eq_append_cons_of_mem hes
    obtain ⟨w', q', rfl, hw'⟩ := List.eq_append_cons_of_mem hfs
    obtain ⟨htimer, hkey⟩ := h.sides hw hw'
    obtain ⟨c, u, u', hu, hu', hheld⟩ := exists_common (fun a b : Nat => a + b) 0 htimer
    obtain ⟨ks, ls, ls', hls, hls', hkept⟩ := exists_common (fun a b : List UInt8 => a ++ b) [] hkey
    have hb : m.after w = (m.elapse c ks).elapse u ls := by
      rw [after_of_notMem hw, hu, hls, elapse_elapse]
    have hb' : m.after w' = (m.elapse c ks).elapse u' ls' := by
      rw [after_of_notMem hw', hu', hls', elapse_elapse]
    have hrun := run_of_tick hw hb (fun ht => (hheld ht).1) (fun hk => (hkept hk).1)
    have hrun' := run_of_tick hw' hb' (fun ht => (hheld ht).2) (fun hk => (hkept hk).2)
    have hnext := h.next hw hw' hu hu' hls hls' fun s => (hrun s).1
    have hcount := (counts_of_tick hw hu hls q).1
    obtain ⟨hafter, hreports⟩ := ih hnext (by omega)
    rw [(hrun q).1, (hrun q).2, (hrun' q').1, (hrun' q').2, hafter, hreports]
    exact ⟨rfl, rfl⟩

/-- Timer ticks and keys may be put before a tick or after it, unless the tick has to do with
them, and they may always change places with each other. So runs that differ only in how their
events are interleaved, apart from such ticks, end with the same machine, and their ticks give the
same results and the same log. -/
theorem inputs_commute_with_ticks :
    (∀ m : Machine, ¬ m.TouchesTimer →
      m.timerTick.tick = { m.tick with machine := m.tick.machine.timerTick }) ∧
    (∀ (m : Machine) k, ¬ m.WatchesKey →
      (m.setKey k).tick = { m.tick with machine := m.tick.machine.setKey k }) ∧
    (∀ (m : Machine) k, (m.setKey k).timerTick = m.timerTick.setKey k) ∧
    ∀ (m : Machine) es fs, m.Reorders es fs →
      m.after es = m.after fs ∧ m.reports es = m.reports fs := by
  refine ⟨fun m h => ?_, fun m k h => ?_, fun m k => rfl, fun m es fs h => h.agree⟩
  · rw [timerTick_eq_elapse, timerTick_eq_elapse]
    exact tick_elapse (fun htouches => absurd htouches h) fun _ => rfl
  · rw [setKey_eq_elapse, setKey_eq_elapse]
    exact tick_elapse (fun _ => rfl) fun hwatches => absurd hwatches h

/-- A program that reads the timer and then sets a register. Keys may come before both or after, and
the timer may count down before the second or after it. -/
theorem inputs_commute_with_ticks_reading_timer :
    ∃ m, boot #[0xF1, 0x07, 0x60, 0x05] .compliant (.cycling #[]) = .ok m ∧
      (m.setKey 7).tick = { m.tick with machine := m.tick.machine.setKey 7 } ∧
      m.tick.machine.timerTick.tick =
        { m.tick.machine.tick with machine := m.tick.machine.tick.machine.timerTick } ∧
      m.after [.key 7, .tick, .timer, .tick] = m.after [.tick, .tick, .key 7, .timer] := by
  have hboot : ∃ m, boot #[0xF1, 0x07, 0x60, 0x05] .compliant (.cycling #[]) = .ok m :=
    exists_boot (by decide) _ _
  obtain ⟨m, hm⟩ := hboot
  have hfirst : m.dispatched = some ⟨0xF107⟩ :=
    dispatched_eq_some_iff.2 ⟨mode_boot hm, fetch_boot hm (by decide)⟩
  have htick : m.tick.machine =
      { m with pc := 0x202, last := some ⟨0xF107⟩, registers := m.registers.set 1 0 } := by
    rw [tick_of_fetch (mode_boot hm) (fetch_boot hm (by decide))]
    obtain ⟨ram, -, rfl⟩ := boot_eq_ok hm
    rfl
  have hsecond : m.tick.machine.dispatched = some ⟨0x6005⟩ := by
    have hmode : m.tick.machine.mode = m.mode := by rw [htick]
    refine dispatched_eq_some_iff.2 ⟨hmode.trans (mode_boot hm), ?_⟩
    exact fetch_of_ram_eq hm (k := 2) (by rw [htick]) (by decide) (by rw [htick]; rfl)
  have hwatches : ¬ m.WatchesKey :=
    not_watchesKey_of_dispatched hfirst (by decide)
  have hwatches' : ¬ m.tick.machine.WatchesKey :=
    not_watchesKey_of_dispatched hsecond (by decide)
  have htouches : ¬ m.tick.machine.TouchesTimer := by
    rintro ⟨i, hi, hselector, -⟩
    rw [hsecond] at hi
    cases hi
    exact absurd hselector (by decide)
  have hkey := inputs_commute_with_ticks.2.1 m 7 hwatches
  have hafter : m.after [.key 7, .tick, .timer] = m.tick.machine.elapse 1 [7] := by
    have hmachine : (m.setKey 7).tick.machine = m.tick.machine.setKey 7 :=
      congrArg Tick.machine hkey
    change (m.setKey 7).tick.machine.timerTick = _
    rw [hmachine, timerTick_eq_elapse, setKey_eq_elapse, elapse_elapse]
    rfl
  refine ⟨m, hm, hkey, inputs_commute_with_ticks.1 m.tick.machine htouches, ?_⟩
  have hsplit (p q : List Event) (h : [.key 7, .tick, .timer, .tick] = p ++ .tick :: q) :
      p = [.key 7] ∨ p = [.key 7, .tick, .timer] := by
    rcases p with _ | ⟨a, _ | ⟨b, _ | ⟨c, _ | ⟨d, p⟩⟩⟩⟩ <;> simp_all
  have hsplit' (p q : List Event) (h : [.tick, .tick, .key 7, .timer] = p ++ .tick :: q) :
      p = [] ∨ p = [.tick] := by
    rcases p with _ | ⟨a, _ | ⟨b, _ | ⟨c, _ | ⟨d, p⟩⟩⟩⟩ <;> simp_all
  have hreorders :
      m.Reorders [.key 7, .tick, .timer, .tick] [.tick, .tick, .key 7, .timer] := by
    refine ⟨rfl, rfl, rfl, ?_, ?_⟩
    · intro p q p' q' hes hfs hticks h
      obtain rfl | rfl := hsplit p q hes
      · obtain rfl | rfl := hsplit' p' q' hfs
        · rfl
        · cases hticks
      · rw [hafter] at h
        exact absurd h htouches
    · intro p q p' q' hes hfs hticks h
      obtain rfl | rfl := hsplit p q hes
      · exact absurd h hwatches
      · rw [hafter] at h
        exact absurd h hwatches'
  exact (inputs_commute_with_ticks.2.2.2 m _ _ hreorders).1

end Machine

end Chip8
