import Chip8.Machine.Clocked
import Chip8.Proofs.Machine.Boot
import Chip8.Proofs.Machine.History

namespace Chip8

/-- At least `n` periods have passed. -/
def Due (period elapsed : Binary32) (n : Nat) : Prop :=
  ∀ j < n, period.le (Nat.repeat (· - period) j elapsed) = true

/-- Just `n` periods have passed, and `rest` is left of the time. -/
structure Strikes (period elapsed : Binary32) (n : Nat) (rest : Binary32) : Prop where
  due : Due period elapsed n
  rest_eq : rest = Nat.repeat (· - period) n elapsed
  short : period.le rest = false

variable {period elapsed rest : Binary32} {fuel count n : Nat}

instance : Decidable (Due period elapsed n) := inferInstanceAs (Decidable (∀ j < n, _))

theorem due_zero : Due period elapsed 0 := fun _ hj => absurd hj (Nat.not_lt_zero _)

theorem due_succ_iff :
    Due period elapsed (n + 1) ↔ period.le elapsed = true ∧ Due period (elapsed - period) n := by
  constructor
  · intro h
    refine ⟨h 0 (Nat.succ_pos n), fun j hj => ?_⟩
    rw [repeat_apply]
    exact h (j + 1) (Nat.succ_lt_succ hj)
  · rintro ⟨hfirst, hrest⟩ j hj
    cases j with
    | zero => exact hfirst
    | succ j =>
      have hlater := hrest j (Nat.lt_of_succ_lt_succ hj)
      rw [repeat_apply] at hlater
      exact hlater

theorem strikes_zero (h : period.le elapsed = false) : Strikes period elapsed 0 elapsed :=
  ⟨due_zero, rfl, h⟩

theorem strikes_succ_iff :
    Strikes period elapsed (n + 1) rest ↔
      period.le elapsed = true ∧ Strikes period (elapsed - period) n rest := by
  constructor
  · rintro ⟨hdue, hrest, hshort⟩
    obtain ⟨hfirst, hlater⟩ := due_succ_iff.1 hdue
    rw [← repeat_apply] at hrest
    exact ⟨hfirst, hlater, hrest, hshort⟩
  · rintro ⟨hfirst, hlater, hrest, hshort⟩
    rw [repeat_apply] at hrest
    exact ⟨due_succ_iff.2 ⟨hfirst, hlater⟩, hrest, hshort⟩

/-- A clock strikes in one way, whatever it drives. -/
theorem Strikes.unique {n' : Nat} {rest' : Binary32} (h : Strikes period elapsed n rest)
    (h' : Strikes period elapsed n' rest') : n = n' ∧ rest = rest' := by
  have hle {a b : Nat} {r s : Binary32} (ha : Strikes period elapsed a r)
      (hb : Strikes period elapsed b s) : b ≤ a := by
    -- the clock that strikes more often would find a whole period in what the other leaves
    refine Nat.le_of_not_lt fun hlt => ?_
    have hdue := hb.due a hlt
    rw [← ha.rest_eq, ha.short] at hdue
    cases hdue
  obtain rfl : n = n' := Nat.le_antisymm (hle h' h) (hle h h')
  exact ⟨rfl, h.rest_eq.trans h'.rest_eq.symm⟩

/-- A clock is counted out if the fuel lasts. -/
theorem takePeriods_eq_some_iff {r : Nat × Binary32} :
    takePeriods period fuel count elapsed = some r ↔
      ∃ n < fuel, r.1 = count + n ∧ Strikes period elapsed n r.2 := by
  constructor
  · intro h
    induction fuel generalizing count elapsed with
    | zero => cases h
    | succ fuel ih =>
      rw [takePeriods] at h
      split at h
      · rename_i hle
        obtain ⟨n, hn, hcount, hstrikes⟩ := ih h
        exact ⟨n + 1, Nat.succ_lt_succ hn, by omega, strikes_succ_iff.2 ⟨hle, hstrikes⟩⟩
      · rename_i hle
        cases h
        exact ⟨0, Nat.succ_pos fuel, rfl, strikes_zero (Bool.eq_false_iff.2 hle)⟩
  · rintro ⟨n, hn, hcount, hstrikes⟩
    obtain ⟨left, hleft⟩ := Nat.exists_eq_add_of_lt hn
    have hfuel : fuel - n = left + 1 := by omega
    have hshort : ¬ period.le (Nat.repeat (· - period) n elapsed) = true := by
      rw [← hstrikes.rest_eq, hstrikes.short]
      exact Bool.false_ne_true
    rw [takePeriods_repeat hstrikes.due, hfuel, takePeriods, if_neg hshort, ← hstrikes.rest_eq,
      ← hcount]

namespace Machine

variable {m : Machine}

/-- The machine after `n` ticks, whether or not they fail. -/
def ticks (m : Machine) (n : Nat) : Machine := m.after (List.replicate n .tick)

/-- The next `n` ticks go through. -/
def TicksOn (m : Machine) (n : Nat) : Prop := ∀ j < n, ∃ s, (m.ticks j).tick.result = .ok s

theorem repeat_timerTick (m : Machine) (k : Nat) :
    Nat.repeat timerTick k m = m.after (.replicate k .timer) := by
  induction k generalizing m with
  | zero => rfl
  | succ k ih =>
    rw [← repeat_apply, ih]
    rfl

theorem ticksOn_zero (m : Machine) : m.TicksOn 0 := fun _ hj => absurd hj (Nat.not_lt_zero _)

theorem ticksOn_succ_iff :
    m.TicksOn (n + 1) ↔ (∃ s, m.tick.result = .ok s) ∧ m.tick.machine.TicksOn n := by
  constructor
  · intro h
    exact ⟨h 0 (Nat.succ_pos n), fun j hj => h (j + 1) (Nat.succ_lt_succ hj)⟩
  · rintro ⟨hfirst, hrest⟩ j hj
    cases j with
    | zero => exact hfirst
    | succ j => exact hrest j (Nat.lt_of_succ_lt_succ hj)

/-- Some ticks go through, unless there is a first that fails. -/
theorem ticksOn_or_fails (m : Machine) (n : Nat) :
    m.TicksOn n ∨ ∃ j < n, m.TicksOn j ∧ ∃ f, (m.ticks j).tick.result = .error f := by
  induction n generalizing m with
  | zero => exact .inl m.ticksOn_zero
  | succ n ih =>
    cases hresult : m.tick.result with
    | error f => exact .inr ⟨0, Nat.succ_pos n, m.ticksOn_zero, f, hresult⟩
    | ok s =>
      obtain hon | ⟨j, hj, hon, hfails⟩ := ih m.tick.machine
      · exact .inl (ticksOn_succ_iff.2 ⟨⟨s, hresult⟩, hon⟩)
      · exact .inr ⟨j + 1, Nat.succ_lt_succ hj, ticksOn_succ_iff.2 ⟨⟨s, hresult⟩, hon⟩, hfails⟩

/-- How a machine catches up with its clock if `n` ticks go through. -/
inductive CatchesUp (m : Machine) (period elapsed : Binary32) (count n : Nat) : CaughtUp → Prop
  | through {rest : Binary32} : Strikes period elapsed n rest → m.TicksOn n →
    CatchesUp m period elapsed count n ⟨.ok (count + n), rest, m.ticks n⟩
  | stopped {f : Fault} : Due period elapsed (n + 1) → m.TicksOn n →
    (m.ticks n).tick.result = .error f →
    CatchesUp m period elapsed count n ⟨.error f, .zero, m.ticks (n + 1)⟩

theorem catchesUp_succ_iff {r : CaughtUp} :
    m.CatchesUp period elapsed count (n + 1) r ↔
      period.le elapsed = true ∧ (∃ s, m.tick.result = .ok s) ∧
        m.tick.machine.CatchesUp period (elapsed - period) (count + 1) n r := by
  have hcount : count + (n + 1) = count + 1 + n := by omega
  constructor
  · rintro (⟨hstrikes, hon⟩ | ⟨hdue, hon, hfails⟩)
    · obtain ⟨hle, hstrikes⟩ := strikes_succ_iff.1 hstrikes
      obtain ⟨hfirst, hon⟩ := ticksOn_succ_iff.1 hon
      rw [hcount]
      exact ⟨hle, hfirst, .through hstrikes hon⟩
    · obtain ⟨hle, hdue⟩ := due_succ_iff.1 hdue
      obtain ⟨hfirst, hon⟩ := ticksOn_succ_iff.1 hon
      exact ⟨hle, hfirst, .stopped hdue hon hfails⟩
  · rintro ⟨hle, hfirst, ⟨hstrikes, hon⟩ | ⟨hdue, hon, hfails⟩⟩
    · rw [← hcount]
      exact .through (strikes_succ_iff.2 ⟨hle, hstrikes⟩) (ticksOn_succ_iff.2 ⟨hfirst, hon⟩)
    · exact .stopped (due_succ_iff.2 ⟨hle, hdue⟩) (ticksOn_succ_iff.2 ⟨hfirst, hon⟩) hfails

theorem CatchesUp.catchUp {r : CaughtUp} (h : m.CatchesUp period elapsed count n r)
    (hn : n < fuel) : m.catchUp period fuel count elapsed = some r := by
  induction n generalizing fuel count elapsed m <;>
    obtain ⟨fuel, rfl⟩ := Nat.exists_eq_succ_of_ne_zero (Nat.ne_zero_of_lt hn)
  case zero =>
    cases h with
    | through hstrikes hon =>
      obtain ⟨-, rfl, hshort⟩ := hstrikes
      exact if_neg (Bool.eq_false_iff.1 hshort)
    | stopped hdue hon hfails =>
      have hresult : m.tick.result = _ := hfails
      rw [Machine.catchUp, if_pos (due_succ_iff.1 hdue).1]
      dsimp only
      rw [hresult]
      rfl
  case succ n ih =>
    obtain ⟨hle, ⟨s, hs⟩, hrest⟩ := catchesUp_succ_iff.1 h
    rw [Machine.catchUp, if_pos hle]
    dsimp only
    rw [hs]
    exact ih hrest (Nat.lt_of_succ_lt_succ hn)

/-- A machine catches up with its clock if the fuel lasts. -/
theorem catchUp_eq_some_iff {r : CaughtUp} :
    m.catchUp period fuel count elapsed = some r ↔
      ∃ n < fuel, m.CatchesUp period elapsed count n r := by
  constructor
  · intro h
    induction fuel generalizing count elapsed m with
    | zero => cases h
    | succ fuel ih =>
      rw [catchUp] at h
      split at h
      · rename_i hle
        dsimp only at h
        split at h
        · rename_i s hs
          obtain ⟨n, hn, hrest⟩ := ih h
          exact ⟨n + 1, Nat.succ_lt_succ hn, catchesUp_succ_iff.2 ⟨hle, ⟨s, hs⟩, hrest⟩⟩
        · rename_i f hf
          cases h
          have hdue : Due period elapsed 1 := due_succ_iff.2 ⟨hle, due_zero⟩
          exact ⟨0, Nat.succ_pos fuel, .stopped hdue m.ticksOn_zero hf⟩
      · rename_i hle
        cases h
        exact ⟨0, Nat.succ_pos fuel,
          .through (strikes_zero (Bool.eq_false_iff.2 hle)) m.ticksOn_zero⟩
  · rintro ⟨n, hn, h⟩
    exact h.catchUp hn

end Machine

namespace ClockedMachine

/-- What an update by `dt` seconds comes to if the clock of the timer strikes `k` times and `n` ticks
go through. -/
inductive Updates (c : ClockedMachine) (dt : Binary32) (k n : Nat) :
    Except Fault Nat → ClockedMachine → Prop
  | through {elapsed timerElapsed : Binary32} :
    Strikes timerPeriod (c.timerElapsed + dt) k timerElapsed →
    Strikes c.period (c.elapsed + dt) n elapsed →
    (c.machine.after (.replicate k .timer)).TicksOn n →
    Updates c dt k n (.ok n)
      { c with
        machine := c.machine.after (.replicate k .timer ++ .replicate n .tick)
        elapsed
        timerElapsed }
  | stopped {timerElapsed : Binary32} {f : Fault} :
    Strikes timerPeriod (c.timerElapsed + dt) k timerElapsed →
    Due c.period (c.elapsed + dt) (n + 1) →
    (c.machine.after (.replicate k .timer)).TicksOn n →
    (c.machine.after (.replicate k .timer ++ .replicate n .tick)).tick.result = .error f →
    Updates c dt k n (.error f)
      { c with
        machine := c.machine.after (.replicate k .timer ++ .replicate (n + 1) .tick)
        elapsed := .zero
        timerElapsed }

variable {c c' : ClockedMachine} {dt : Binary32} {k : Nat} {r : Except Fault Nat}

theorem updates_iff :
    c.Updates dt k n r c' ↔
      ∃ s timerElapsed, Strikes timerPeriod (c.timerElapsed + dt) k timerElapsed ∧
        (c.machine.after (.replicate k .timer)).CatchesUp c.period (c.elapsed + dt) 0 n s ∧
        r = s.result ∧
        c' = { c with machine := s.machine, elapsed := s.elapsed, timerElapsed } := by
  have hmachine (j : Nat) : (c.machine.after (.replicate k .timer)).ticks j =
      c.machine.after (.replicate k .timer ++ .replicate j .tick) :=
    (Machine.after_append ..).symm
  constructor
  · rintro (⟨htimer, hstrikes, hon⟩ | ⟨htimer, hdue, hon, hfails⟩)
    · refine ⟨_, _, htimer, .through hstrikes hon, ?_, ?_⟩
      · rw [Nat.zero_add]
      · rw [hmachine]
    · rw [← hmachine] at hfails
      refine ⟨_, _, htimer, .stopped hdue hon hfails, rfl, ?_⟩
      rw [hmachine]
  · rintro ⟨s, timerElapsed, htimer, ⟨hstrikes, hon⟩ | ⟨hdue, hon, hfails⟩, rfl, rfl⟩
    · rw [hmachine, Nat.zero_add]
      exact .through htimer hstrikes hon
    · rw [hmachine] at hfails ⊢
      exact .stopped htimer hdue hon hfails

theorem update_eq_some_iff (h : c.paused = false) :
    c.update fuel dt = some (r, c') ↔ ∃ k < fuel, ∃ n < fuel, c.Updates dt k n r c' := by
  have hrunning : ¬ c.paused = true := Bool.eq_false_iff.1 h
  rw [update_eq, if_neg hrunning]
  constructor
  · intro hupdate
    split at hupdate
    · cases hupdate
    · rename_i k timerElapsed htimer
      obtain ⟨s, hs, heq⟩ := Option.map_eq_some_iff.1 hupdate
      obtain ⟨j, hj, hcount, hstrikes⟩ := takePeriods_eq_some_iff.1 htimer
      obtain rfl : k = j := hcount.trans (Nat.zero_add j)
      rw [Machine.repeat_timerTick] at hs
      obtain ⟨n, hn, hcatches⟩ := Machine.catchUp_eq_some_iff.1 hs
      cases heq
      exact ⟨k, hj, n, hn, updates_iff.2 ⟨s, timerElapsed, hstrikes, hcatches, rfl, rfl⟩⟩
  · rintro ⟨k, hk, n, hn, hupdates⟩
    obtain ⟨s, timerElapsed, hstrikes, hcatches, rfl, rfl⟩ := updates_iff.1 hupdates
    have htimer : takePeriods timerPeriod fuel 0 (c.timerElapsed + dt) = some (k, timerElapsed) :=
      takePeriods_eq_some_iff.2 ⟨k, hk, (Nat.zero_add k).symm, hstrikes⟩
    rw [htimer]
    dsimp only
    rw [Machine.repeat_timerTick, Machine.catchUp_eq_some_iff.2 ⟨n, hn, hcatches⟩,
      Option.map_some]

theorem Updates.strikes_timer (h : c.Updates dt k n r c') :
    Strikes timerPeriod (c.timerElapsed + dt) k c'.timerElapsed := by
  obtain ⟨s, timerElapsed, htimer, -, -, rfl⟩ := updates_iff.1 h
  exact htimer

/-- What has come due for one machine comes due for any other, whose ticks go through as well unless
one of them fails. -/
theorem Updates.transfer {c d : ClockedMachine} (h : c.Updates dt k n (.ok n) c')
    (htimer : d.timerElapsed = c.timerElapsed) (helapsed : d.elapsed = c.elapsed)
    (hperiod : d.period = c.period) :
    ∃ j ≤ n, ∃ s d', d.Updates dt k j s d' ∧ d'.timerElapsed = c'.timerElapsed ∧
      (s = .ok n ∧ d'.elapsed = c'.elapsed ∨ ∃ f, s = .error f) := by
  cases h with
  | through hcount hstrikes hon =>
    rw [← htimer] at hcount
    rw [← helapsed, ← hperiod] at hstrikes
    -- what is due is the same, so only the ticks of the other machine are left to be looked at
    obtain hall | ⟨j, hj, hsome, f, hfails⟩ :=
      (d.machine.after (.replicate k .timer)).ticksOn_or_fails n
    · exact ⟨n, Nat.le_refl n, _, _, .through hcount hstrikes hall, rfl, .inl ⟨rfl, rfl⟩⟩
    · have hdue : Due d.period (d.elapsed + dt) (j + 1) := fun a ha =>
        hstrikes.due a (Nat.lt_of_lt_of_le ha hj)
      rw [Machine.ticks, ← Machine.after_append] at hfails
      exact ⟨j, Nat.le_of_lt hj, _, _, .stopped hcount hdue hsome hfails, rfl, .inr ⟨f, rfl⟩⟩

/-- An update makes the ticks that have come due. The timer counts down once for every period of its
clock that has passed, and then the machine ticks once for every period of its own, until a tick
fails: then the time that is left is forgotten, and what the ticks have done remains. Otherwise less
than a period is left on either clock. Nothing in the machine bears on the clock of the timer, and
nothing but a tick that fails bears on the other. -/
theorem update_makes_due_ticks :
    (∀ c : ClockedMachine, c.paused = false → ∀ fuel dt r c',
      c.update fuel dt = some (r, c') ↔ ∃ k < fuel, ∃ n < fuel, c.Updates dt k n r c') ∧
    (∀ (c d : ClockedMachine) dt k j n i r s c' d', c.timerElapsed = d.timerElapsed →
      c.Updates dt k n r c' → d.Updates dt j i s d' →
      k = j ∧ c'.timerElapsed = d'.timerElapsed) ∧
    ∀ (c d : ClockedMachine) fuel dt n c', c.paused = false → d.paused = false →
      d.timerElapsed = c.timerElapsed → d.elapsed = c.elapsed → d.period = c.period →
      c.update fuel dt = some (.ok n, c') →
      ∃ s d', d.update fuel dt = some (s, d') ∧ d'.timerElapsed = c'.timerElapsed ∧
        (s = .ok n ∧ d'.elapsed = c'.elapsed ∨ ∃ f, s = .error f) := by
  refine ⟨fun c hc fuel dt r c' => update_eq_some_iff hc, ?_, ?_⟩
  · intro c d dt k j n i r s c' d' htimer hc hd
    have hcount := hc.strikes_timer
    rw [htimer] at hcount
    exact hcount.unique hd.strikes_timer
  · intro c d fuel dt n c' hc hd htimer helapsed hperiod hupdate
    obtain ⟨k, hk, n', hn, hupdates⟩ := (update_eq_some_iff hc).1 hupdate
    obtain rfl : n = n' := by cases hupdates; rfl
    obtain ⟨j, hj, s, d', hother, hleft, hsame⟩ := hupdates.transfer htimer helapsed hperiod
    have hlt : j < fuel := Nat.lt_of_le_of_lt hj hn
    exact ⟨s, d', (update_eq_some_iff hd).2 ⟨k, hk, j, hlt, hother⟩, hleft, hsame⟩

/-- A fortieth of a second, in which a machine that carries out a hundred instructions in a second
comes to wait for a key and then waits once. -/
theorem update_makes_due_ticks_waiting :
    ∃ m, Machine.boot #[0xF3, 0x0A] .compliant (.cycling #[0]) = .ok m ∧
      (∃ c', (start m (.ofNat 100)).update 3 (Binary32.ofNat 40).inverse = some (.ok 2, c') ∧
        c'.machine = m.after [.timer, .tick, .tick]) ∧
      ∀ m', (∃ r d', (start m' (.ofNat 100)).update 3 (Binary32.ofNat 40).inverse = some (r, d')) ∧
        ∀ j i s d', (start m' (.ofNat 100)).Updates (Binary32.ofNat 40).inverse j i s d' →
          j = 1 := by
  obtain ⟨hupdate, htimer, hother⟩ := update_makes_due_ticks
  obtain ⟨m, hm⟩ : ∃ m, Machine.boot #[0xF3, 0x0A] .compliant (.cycling #[0]) = .ok m :=
    Machine.exists_boot (by decide) _ _
  have hfetch : m.timerTick.fetch = .ok ⟨0xF30A⟩ := Machine.fetch_boot hm (by decide)
  have hmode : m.timerTick.mode = .running := (Machine.mode_boot hm :)
  have htick := Machine.tick_of_fetch hmode hfetch
  have hwaits : m.timerTick.tick.result = .ok .executed := by
    rw [htick]
    rfl
  have hwaiting : m.timerTick.tick.machine.tick.result = .ok .awaitingKey := by
    rw [htick]
    obtain ⟨ram, -, rfl⟩ := Machine.boot_eq_ok hm
    rfl
  have hon : (m.after [.timer]).TicksOn 2 :=
    Machine.ticksOn_succ_iff.2 ⟨⟨_, hwaits⟩,
      Machine.ticksOn_succ_iff.2 ⟨⟨_, hwaiting⟩, Machine.ticksOn_zero _⟩⟩
  have hcount : Strikes timerPeriod (Binary32.zero + (Binary32.ofNat 40).inverse) 1
      (Nat.repeat (· - timerPeriod) 1 (Binary32.zero + (Binary32.ofNat 40).inverse)) :=
    ⟨by decide +kernel, rfl, by decide +kernel⟩
  have hstrikes : Strikes (Binary32.ofNat 100).inverse
      (Binary32.zero + (Binary32.ofNat 40).inverse) 2
      (Nat.repeat (· - (Binary32.ofNat 100).inverse) 2
        (Binary32.zero + (Binary32.ofNat 40).inverse)) :=
    ⟨by decide +kernel, rfl, by decide +kernel⟩
  have hperiod (rate : Binary32) : (start m rate).period = rate.inverse := rfl
  rw [← hperiod] at hstrikes
  have hupdates := Updates.through (c := start m (.ofNat 100)) hcount hstrikes hon
  have hc := (hupdate (start m (.ofNat 100)) rfl 3 _ _ _).2
    ⟨1, by decide, 2, by decide, hupdates⟩
  refine ⟨m, hm, ⟨_, hc, rfl⟩, fun m' => ⟨?_, fun j i s d' hd => ?_⟩⟩
  · obtain ⟨r, d', hd, -⟩ :=
      hother (start m (.ofNat 100)) (start m' (.ofNat 100)) _ _ _ _ rfl rfl rfl rfl rfl hc
    exact ⟨r, d', hd⟩
  · have hsame := htimer (start m (.ofNat 100)) (start m' (.ofNat 100)) _ _ _ _ _ _ _ _ _ rfl
      hupdates hd
    exact hsame.1.symm

end ClockedMachine

end Chip8
