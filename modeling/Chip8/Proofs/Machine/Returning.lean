import Chip8.Proofs.Binary32.Reach
import Chip8.Proofs.Machine.Clocks
import Chip8.Proofs.Machine.KeyWait

namespace Chip8

open Binary32 (zero)

attribute [local instance (high)] instPowNat

variable {period elapsed : Binary32} {n : Nat}

theorem isDuration_timerPeriod : timerPeriod.IsDuration := ⟨by decide +kernel, by decide +kernel⟩

/-- A clock comes to a time that is less than a period. -/
def RunsDown (period elapsed : Binary32) : Prop := ∃ n rest, Strikes period elapsed n rest

/-- Every period that is taken off a clock lowers the time that it shows. -/
def LowersAlways (period elapsed : Binary32) : Prop :=
  ∀ n, Due period elapsed (n + 1) →
    (Nat.repeat (· - period) (n + 1) elapsed).lt (Nat.repeat (· - period) n elapsed) = true

theorem runsDown_of_short (h : period.le elapsed = false) : RunsDown period elapsed :=
  ⟨0, elapsed, strikes_zero h⟩

theorem RunsDown.of_sub (hle : period.le elapsed = true) (h : RunsDown period (elapsed - period)) :
    RunsDown period elapsed := by
  obtain ⟨n, rest, hstrikes⟩ := h
  exact ⟨n + 1, rest, strikes_succ_iff.2 ⟨hle, hstrikes⟩⟩

/-- A clock runs down, unless another period has always passed. -/
theorem runsDown_or_due (period elapsed : Binary32) :
    RunsDown period elapsed ∨ ∀ n, Due period elapsed n := by
  have hdown (n : Nat) (elapsed : Binary32) (h : ¬ Due period elapsed n) :
      RunsDown period elapsed := by
    induction n generalizing elapsed with
    | zero => exact absurd due_zero h
    | succ n ih =>
      cases hle : period.le elapsed with
      | false => exact runsDown_of_short hle
      | true => exact .of_sub hle (ih _ fun hdue => h (due_succ_iff.2 ⟨hle, hdue⟩))
  by_cases hall : ∀ n, Due period elapsed n
  · exact .inr hall
  · obtain ⟨n, hn⟩ := Classical.not_forall.1 hall
    exact .inl (hdown n elapsed hn)

theorem RunsDown.not_due (h : RunsDown period elapsed) : ¬ ∀ n, Due period elapsed n := by
  obtain ⟨n, rest, hstrikes⟩ := h
  intro hdue
  have hmore := hdue (n + 1) n (Nat.lt_succ_self n)
  rw [← hstrikes.rest_eq, hstrikes.short] at hmore
  cases hmore

/-- A clock that shows no less than a time which a period does not lower never comes below it. -/
theorem due_of_stuck {c : Binary32} (helapsed : zero.le elapsed = true)
    (hperiod : period.IsDuration) (hpc : period.le c = true) (hce : c.le elapsed = true)
    (hstuck : (c - period).lt c ≠ true) (n : Nat) : Due period elapsed n := by
  induction n generalizing elapsed with
  | zero => exact due_zero
  | succ n ih =>
    have hle := Binary32.le_trans hpc hce
    exact due_succ_iff.2 ⟨hle, ih (Binary32.zero_le_sub helapsed hperiod hle)
      (Binary32.le_sub_of_stuck helapsed hperiod hpc hce hstuck)⟩

/-- A clock that runs down shows no time that its period does not lower. -/
theorem RunsDown.lowers (helapsed : zero.le elapsed = true) (hperiod : period.IsDuration)
    (h : RunsDown period elapsed) : period.Lowers elapsed := by
  intro c hpc hce
  by_cases hlt : (c - period).lt c = true
  · exact hlt
  · exact absurd (due_of_stuck helapsed hperiod hpc hce hlt) h.not_due

theorem LowersAlways.of_lowers (helapsed : zero.le elapsed = true) (hperiod : period.IsDuration)
    (h : period.Lowers elapsed) : LowersAlways period elapsed := by
  intro n hdue
  induction n generalizing elapsed with
  | zero => exact h elapsed (due_succ_iff.1 hdue).1 (Binary32.le_refl_of_zero_le helapsed)
  | succ n ih =>
    obtain ⟨hle, hrest⟩ := due_succ_iff.1 hdue
    have hlt := h elapsed hle (Binary32.le_refl_of_zero_le helapsed)
    have hlater := ih (Binary32.zero_le_sub helapsed hperiod hle)
      (fun c hpc hce => h c hpc (Binary32.le_trans hce (Binary32.le_of_lt hlt))) hrest
    rwa [repeat_apply, repeat_apply] at hlater

theorem LowersAlways.of_sub (hle : period.le elapsed = true) (h : LowersAlways period elapsed) :
    LowersAlways period (elapsed - period) := by
  intro n hdue
  rw [repeat_apply, repeat_apply]
  exact h (n + 1) (due_succ_iff.2 ⟨hle, hdue⟩)

/-- A clock runs down if every period lowers it, as there are only so many patterns. -/
theorem LowersAlways.runsDown (helapsed : zero.le elapsed = true) (hperiod : period.IsDuration)
    (h : LowersAlways period elapsed) : RunsDown period elapsed := by
  induction hpattern : elapsed.pattern using Nat.strongRecOn generalizing elapsed with
  | ind p ih =>
    cases hle : period.le elapsed with
    | false => exact runsDown_of_short hle
    | true =>
      have hlt : (elapsed - period).lt elapsed = true := h 0 (due_succ_iff.2 ⟨hle, due_zero⟩)
      have hsub := Binary32.zero_le_sub helapsed hperiod hle
      have hless := (Binary32.lt_iff_pattern_lt hsub helapsed).1 hlt
      exact .of_sub hle (ih _ (hpattern ▸ hless) hsub (h.of_sub hle) rfl)

theorem runsDown_iff_lowers (helapsed : zero.le elapsed = true) (hperiod : period.IsDuration) :
    RunsDown period elapsed ↔ period.Lowers elapsed :=
  ⟨fun h => h.lowers helapsed hperiod, fun h =>
    (LowersAlways.of_lowers helapsed hperiod h).runsDown helapsed hperiod⟩

theorem runsDown_iff_lowersAlways (helapsed : zero.le elapsed = true)
    (hperiod : period.IsDuration) : RunsDown period elapsed ↔ LowersAlways period elapsed :=
  ⟨fun h => .of_lowers helapsed hperiod (h.lowers helapsed hperiod),
    fun h => h.runsDown helapsed hperiod⟩

/-- An infinite period has never passed, or it has passed once and leaves no number. -/
theorem runsDown_of_isInfinite (helapsed : zero.le elapsed = true) (hperiod : zero.le period = true)
    (h : period.pattern = Binary32.infinityPattern) : RunsDown period elapsed := by
  cases hle : period.le elapsed with
  | false => exact runsDown_of_short hle
  | true =>
    have hinfinite : elapsed.pattern = Binary32.infinityPattern :=
      Nat.le_antisymm (Binary32.zero_le_iff.1 helapsed).1
        (h ▸ (Binary32.le_iff_pattern_le hperiod helapsed).1 hle)
    refine .of_sub hle (runsDown_of_short ?_)
    rw [Binary32.sub_of_infinite_of_infinite helapsed hperiod hinfinite h]
    cases hnan : period.le Binary32.nan with
    | false => rfl
    | true => exact absurd (Binary32.le_iff.1 hnan).2.1 (by decide)

theorem runsDown_iff (helapsed : zero.le elapsed = true) (hperiod : zero.le period = true) :
    RunsDown period elapsed ↔ period.isInfinite = true ∨ LowersAlways period elapsed := by
  by_cases h : period.pattern = Binary32.infinityPattern
  · have hinfinite : period.isInfinite = true := decide_eq_true h
    exact iff_of_true (runsDown_of_isInfinite helapsed hperiod h) (.inl hinfinite)
  · have hfinite : period.isInfinite = false := decide_eq_false h
    rw [hfinite, or_iff_right Bool.false_ne_true]
    exact runsDown_iff_lowersAlways helapsed ((Binary32.isDuration_iff_ne hperiod).2 h)

/-- The clock of the timer runs down from up to 524288 seconds, which is more than six days. -/
theorem runsDown_timerPeriod_iff (h : zero.le elapsed = true) :
    RunsDown timerPeriod elapsed ↔ elapsed.le (.ofNat 524288) = true := by
  have hlongest : zero.le (.ofNat 524288) = true := by decide +kernel
  have hpattern : (Binary32.ofNat 524288).pattern = timerPeriod.reach := by decide +kernel
  have hreach : timerPeriod.reach < Binary32.infinityPattern := by decide +kernel
  have hunits : 0 < timerPeriod.units := by decide +kernel
  rw [runsDown_iff_lowers h isDuration_timerPeriod, Binary32.lowers_iff h isDuration_timerPeriod,
    Binary32.le_iff_pattern_le h hlongest, hpattern]
  exact ⟨fun hlowers => hlowers.2.2, fun hle => ⟨hunits, Nat.lt_of_le_of_lt hle hreach, hle⟩⟩

namespace Machine

/-- While no key is held, a machine that waits for one does nothing else. -/
theorem ticks_of_key_eq_zero {m : Machine} {x : Nibble} (hmode : m.mode = .awaitingKey x)
    (hkey : m.key = 0) (n : Nat) : m.ticks n = m := by
  induction n with
  | zero => rfl
  | succ n ih =>
    have hwaits : (m.respond .tick).machine = m :=
      congrArg Tick.machine (tick_of_key_eq_zero hmode hkey)
    rw [ticks, List.replicate_succ, after_cons, hwaits]
    exact ih

/-- A machine whose program starts by waiting for a key makes any number of ticks. -/
theorem ticks_of_boot_keyWait {d : Dialect} {source : ByteSource} {m : Machine}
    (h : boot #[0xF3, 0x0A] d source = .ok m) (n : Nat) :
    ∃ s, (m.ticks n).tick.result = .ok s := by
  have hfetch : m.fetch = .ok ⟨0xF30A⟩ := fetch_boot h (by decide)
  have htick := tick_of_fetch (mode_boot h) hfetch
  cases n with
  | zero =>
    refine ⟨.executed, ?_⟩
    rw [ticks, List.replicate_zero, after_nil, htick]
    rfl
  | succ n =>
    have hwaits : m.tick.machine.mode = .awaitingKey 3 ∧ m.tick.machine.key = 0 := by
      rw [htick]
      obtain ⟨ram, -, rfl⟩ := boot_eq_ok h
      exact ⟨rfl, rfl⟩
    have hsame : m.ticks (n + 1) = m.tick.machine :=
      m.tick.machine.ticks_of_key_eq_zero hwaits.1 hwaits.2 n
    exact ⟨.awaitingKey, by rw [hsame, tick_of_key_eq_zero hwaits.1 hwaits.2]⟩

end Machine

namespace ClockedMachine

variable {c c' : ClockedMachine} {dt : Binary32} {k : Nat} {rest : Binary32}

theorem exists_updates_of_not_ticksOn
    (hcount : Strikes timerPeriod (c.timerElapsed + dt) k rest)
    (hdue : Due c.period (c.elapsed + dt) n)
    (hfails : ¬ (c.machine.after (.replicate k .timer)).TicksOn n) :
    ∃ j r c', c.Updates dt k j r c' := by
  obtain hall | ⟨j, hj, hsome, f, hfault⟩ :=
    (c.machine.after (.replicate k .timer)).ticksOn_or_fails n
  · exact absurd hall hfails
  · rw [Machine.ticks, ← Machine.after_append] at hfault
    exact ⟨j, _, _, .stopped hcount (fun i hi => hdue i (by omega)) hsome hfault⟩

/-- An update comes to an end if and only if the clock of the timer runs down, and either so does
the other clock, or some tick fails. -/
theorem exists_update_iff (hrunning : c.paused = false) :
    (∃ fuel r, c.update fuel dt = some r) ↔
      ∃ k rest, Strikes timerPeriod (c.timerElapsed + dt) k rest ∧
        (RunsDown c.period (c.elapsed + dt) ∨
          ∃ n f, (c.machine.after (.replicate k .timer ++ .replicate n .tick)).tick.result =
            .error f) := by
  constructor
  · rintro ⟨fuel, ⟨r, c'⟩, hupdate⟩
    obtain ⟨k, -, n, -, hupdates⟩ := (update_eq_some_iff hrunning).1 hupdate
    cases hupdates with
    | through hcount hstrikes => exact ⟨k, _, hcount, .inl ⟨n, _, hstrikes⟩⟩
    | stopped hcount _ _ hfails => exact ⟨k, _, hcount, .inr ⟨n, _, hfails⟩⟩
  · rintro ⟨k, rest, hcount, hends⟩
    have hupdates : ∃ n r c', c.Updates dt k n r c' := by
      rcases runsDown_or_due c.period (c.elapsed + dt) with ⟨n, left, hstrikes⟩ | hdue
      · by_cases hon : (c.machine.after (.replicate k .timer)).TicksOn n
        · exact ⟨n, _, _, .through hcount hstrikes hon⟩
        · exact exists_updates_of_not_ticksOn hcount hstrikes.due hon
      · obtain ⟨n, f, hfails⟩ := hends.resolve_left fun hdown => hdown.not_due hdue
        refine exists_updates_of_not_ticksOn hcount (hdue (n + 1)) fun hon => ?_
        obtain ⟨s, hs⟩ := hon n (Nat.lt_succ_self n)
        rw [Machine.ticks, ← Machine.after_append, hfails] at hs
        cases hs
    obtain ⟨n, r, c', hupdates⟩ := hupdates
    exact ⟨max k n + 1, (r, c'),
      (update_eq_some_iff hrunning).2 ⟨k, by omega, n, by omega, hupdates⟩⟩

/-- An update by a finite time that is not below zero comes to an end if and only if each period
that is taken off the clock of the timer lowers the time which it shows, and so does each period of
the other clock, unless its period is infinite or some tick fails. The one is so up to 524288
seconds; the other if the period is not zero, and up to its reach. What decides about a single
period is the gap to the next number below: taking off more than half of the gap is noticed, and
taking off half of it if the pattern is odd. -/
theorem update_returns_within_reach {c : ClockedMachine} {rate dt : Binary32}
    (hrunning : c.paused = false) (hrate : zero.lt rate = true) (hperiod : c.period = rate.inverse)
    (hdt : dt.IsDuration) (helapsed : c.elapsed.IsDuration)
    (htimerElapsed : c.timerElapsed.IsDuration) :
    ((∃ fuel r, c.update fuel dt = some r) ↔
      LowersAlways timerPeriod (c.timerElapsed + dt) ∧
        (c.period.isInfinite = true ∨ LowersAlways c.period (c.elapsed + dt) ∨
          ∃ k rest n f, Strikes timerPeriod (c.timerElapsed + dt) k rest ∧
            (c.machine.after (.replicate k .timer ++ .replicate n .tick)).tick.result =
              .error f)) ∧
    (LowersAlways timerPeriod (c.timerElapsed + dt) ↔
      (c.timerElapsed + dt).le (.ofNat 524288) = true) ∧
    (c.period.isInfinite = false →
      (LowersAlways c.period (c.elapsed + dt) ↔ 0 < c.period.units ∧
        (c.elapsed + dt).pattern < Binary32.infinityPattern ∧
        (c.elapsed + dt).pattern ≤ c.period.reach)) ∧
    ∀ t p : Binary32, t.IsDuration → p.IsDuration → p.le t = true →
      ((t - p).lt t = true ↔
        t.gap < 2 * p.units ∨ t.gap = 2 * p.units ∧ t.pattern % 2 = 1) := by
  have hpositive : zero.le c.period = true := hperiod ▸ Binary32.zero_le_inverse hrate
  have hsum := Binary32.zero_le_add helapsed hdt
  have hsum' := Binary32.zero_le_add htimerElapsed hdt
  have htimer := runsDown_iff_lowersAlways hsum' isDuration_timerPeriod
  refine ⟨?_, htimer.symm.trans (runsDown_timerPeriod_iff hsum'), fun hfinite => ?_,
    fun t p ht hp => Binary32.sub_lt_iff ht hp.zero_le⟩
  · rw [exists_update_iff hrunning, ← htimer, ← or_assoc, ← runsDown_iff hsum hpositive]
    constructor
    · rintro ⟨k, rest, hstrikes, hends⟩
      exact ⟨⟨k, rest, hstrikes⟩, hends.imp_right fun ⟨n, f, hfails⟩ =>
        ⟨k, rest, n, f, hstrikes, hfails⟩⟩
    · rintro ⟨⟨k, rest, hstrikes⟩, hdown | ⟨k', rest', n, f, hstrikes', hfails⟩⟩
      · exact ⟨k, rest, hstrikes, .inl hdown⟩
      · exact ⟨k', rest', hstrikes', .inr ⟨n, f, hfails⟩⟩
  · have hperiod := (Binary32.isDuration_iff_ne hpositive).2 (of_decide_eq_false hfinite)
    rw [← runsDown_iff_lowersAlways hsum hperiod, runsDown_iff_lowers hsum hperiod,
      Binary32.lowers_iff hsum hperiod]

/-- At the standard rate the clock of the instructions runs down from up to 65536 seconds. -/
example : standardRate.inverse.reach = (Binary32.ofNat 65536).pattern := by decide +kernel

/-- A fortieth of a second at the standard rate, which is more than one period of the timer. -/
theorem update_returns_within_reach_shortly :
    (∃ m, Machine.boot #[0xF3, 0x0A] .compliant (.cycling #[0]) = .ok m ∧
      ∃ fuel r, (start m standardRate).update fuel (Binary32.ofNat 40).inverse = some r) ∧
    ((Binary32.ofNat 40).inverse - timerPeriod).lt (Binary32.ofNat 40).inverse = true := by
  obtain ⟨m, hm⟩ : ∃ m, Machine.boot #[0xF3, 0x0A] .compliant (.cycling #[0]) = .ok m :=
    Machine.exists_boot (by decide) _ _
  have hdt : (Binary32.ofNat 40).inverse.IsDuration := ⟨by decide +kernel, by decide +kernel⟩
  have hzero : zero.IsDuration := ⟨by decide, by decide⟩
  have hperiod (rate : Binary32) : (start m rate).period = rate.inverse := rfl
  obtain ⟨hreturns, htimer, hclock, hlowers⟩ :=
    update_returns_within_reach (c := start m standardRate) rfl (by decide +kernel) (hperiod _)
      hdt hzero hzero
  have hshort : (zero + (Binary32.ofNat 40).inverse).le (.ofNat 524288) = true := by
    decide +kernel
  have hreach : 0 < standardRate.inverse.units ∧
      (zero + (Binary32.ofNat 40).inverse).pattern < Binary32.infinityPattern ∧
      (zero + (Binary32.ofNat 40).inverse).pattern ≤ standardRate.inverse.reach :=
    ⟨by decide +kernel, by decide +kernel, by decide +kernel⟩
  have hfinite : standardRate.inverse.isInfinite = false := by decide +kernel
  rw [← hperiod] at hreach hfinite
  exact ⟨⟨m, hm, hreturns.2 ⟨htimer.2 hshort, .inr (.inl ((hclock hfinite).2 hreach))⟩⟩,
    (hlowers _ _ hdt isDuration_timerPeriod (by decide +kernel)).2 (.inl (by decide +kernel))⟩

/-- At an infinite rate an update does not come to an end, however short it is, and at the standard
rate one by more than the longest time does not either: there are times of a period and more that a
period leaves as they are. -/
theorem exists_update_endless :
    ∃ m, Machine.boot #[0xF3, 0x0A] .compliant (.cycling #[0]) = .ok m ∧
      (zero.lt (.infinity false) = true ∧
        (∀ fuel, (start m (.infinity false)).update fuel zero = none) ∧
        (Binary32.infinity false).inverse.le (zero + zero) = true ∧
        (zero + zero - (Binary32.infinity false).inverse).lt (zero + zero) = false) ∧
      (zero.lt standardRate = true ∧
        (∀ fuel, (start m standardRate).update fuel (.ofNat 0x100000) = none) ∧
        timerPeriod.le (zero + .ofNat 0x100000) = true ∧
        (zero + .ofNat 0x100000 - timerPeriod).lt (zero + .ofNat 0x100000) = false) := by
  obtain ⟨m, hm⟩ : ∃ m, Machine.boot #[0xF3, 0x0A] .compliant (.cycling #[0]) = .ok m :=
    Machine.exists_boot (by decide) _ _
  have hendless {rate dt : Binary32}
      (h : ¬ ∃ fuel r, (start m rate).update fuel dt = some r) (fuel : Nat) :
      (start m rate).update fuel dt = none :=
    Option.eq_none_iff_forall_ne_some.2 fun r hr => h ⟨fuel, r, hr⟩
  refine ⟨m, hm, ⟨by decide +kernel, hendless ?_, by decide +kernel, by decide +kernel⟩,
    by decide +kernel, hendless ?_, by decide +kernel, by decide +kernel⟩
  · rw [exists_update_iff rfl]
    rintro ⟨k, rest, hstrikes, hdown | ⟨n, f, hfails⟩⟩
    · have hlowers : (Binary32.infinity false).inverse.Lowers (zero + zero) :=
        RunsDown.lowers (by decide +kernel) ⟨by decide +kernel, by decide +kernel⟩ hdown
      have hunits : 0 < (Binary32.infinity false).inverse.units :=
        hlowers.units_pos (by decide +kernel) ⟨by decide +kernel, by decide +kernel⟩
      exact absurd hunits (by decide +kernel)
    · have hshort : timerPeriod.le (zero + zero) = false := by decide +kernel
      obtain rfl : k = 0 := (hstrikes.unique (strikes_zero hshort)).1
      obtain ⟨s, hs⟩ := Machine.ticks_of_boot_keyWait hm n
      rw [Machine.ticks] at hs
      cases hs.symm.trans hfails
  · rw [exists_update_iff rfl]
    rintro ⟨k, rest, hstrikes, -⟩
    have hshort : (zero + .ofNat 0x100000).le (.ofNat 524288) = true :=
      (runsDown_timerPeriod_iff (by decide +kernel)).1 ⟨k, rest, hstrikes⟩
    exact absurd hshort (by decide +kernel)

end ClockedMachine

end Chip8
