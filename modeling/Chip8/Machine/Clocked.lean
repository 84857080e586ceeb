import Chip8.Binary32.Leap
import Chip8.Machine.Run

namespace Chip8

/-- How many instructions a machine carries out in a second, if nobody says otherwise. -/
def standardRate : Binary32 := .ofNat 500

/-- How often the timer counts down in a second. -/
def timerRate : Binary32 := .ofNat 60

/-- The time between two counts of the timer, in seconds. -/
def timerPeriod : Binary32 := timerRate.inverse

/-- A machine that is driven by the time that passes. Both clocks keep the time that has passed and
not yet been used up by a tick. -/
structure ClockedMachine where
  machine : Machine
  /-- The time between two instructions, in seconds. -/
  period : Binary32
  elapsed : Binary32
  timerElapsed : Binary32
  paused : Bool

/-- Takes whole periods off the time that has passed, and counts them on top of `count`, until less
than a period is left. There is no answer if that takes `fuel` periods or more. -/
def takePeriods (period : Binary32) : Nat → Nat → Binary32 → Option (Nat × Binary32)
  | 0, _, _ => none
  | fuel + 1, count, elapsed =>
    if period.le elapsed then takePeriods period fuel (count + 1) (elapsed - period)
    else some (count, elapsed)

/-- What is left when a machine has caught up with its clock: how many ticks there have been or the
fault of the last one, the time that is left, and the machine. -/
structure CaughtUp where
  result : Except Fault Nat
  elapsed : Binary32
  machine : Machine

/-- Lets a machine tick once for every period that has passed, and counts the ticks on top of
`count`. A tick that fails is the last one, and the time that is left is forgotten. There is no
answer if it takes `fuel` ticks or more. -/
def Machine.catchUp (period : Binary32) : Nat → Nat → Binary32 → Machine → Option CaughtUp
  | 0, _, _, _ => none
  | fuel + 1, count, elapsed, m =>
    if period.le elapsed then
      let t := m.tick
      match t.result with
      | .ok _ => t.machine.catchUp period fuel (count + 1) (elapsed - period)
      | .error f => some ⟨.error f, .zero, t.machine⟩
    else some ⟨.ok count, elapsed, m⟩

/-- More fuel keeps an answer. -/
theorem takePeriods_add {period elapsed : Binary32} {fuel count : Nat} {r : Nat × Binary32}
    (h : takePeriods period fuel count elapsed = some r) (more : Nat) :
    takePeriods period (fuel + more) count elapsed = some r := by
  induction fuel generalizing count elapsed with
  | zero => cases h
  | succ fuel ih =>
    rw [Nat.succ_add]
    unfold takePeriods at h ⊢
    split at h
    · rename_i hle
      rw [if_pos hle]
      exact ih h
    · rename_i hle
      rw [if_neg hle]
      exact h

/-- More fuel keeps an answer. -/
theorem Machine.catchUp_add {period elapsed : Binary32} {fuel count : Nat} {m : Machine}
    {r : CaughtUp} (h : m.catchUp period fuel count elapsed = some r) (more : Nat) :
    m.catchUp period (fuel + more) count elapsed = some r := by
  induction fuel generalizing count elapsed m with
  | zero => cases h
  | succ fuel ih =>
    rw [Nat.succ_add]
    unfold catchUp at h ⊢
    split at h
    · rename_i hle
      rw [if_pos hle]
      dsimp only at h ⊢
      split at h
      · exact ih h
      · exact h
    · rename_i hle
      rw [if_neg hle]
      exact h

theorem repeat_apply {α : Type} (f : α → α) (n : Nat) (a : α) :
    Nat.repeat f n (f a) = Nat.repeat f (n + 1) a := by
  induction n with
  | zero => rfl
  | succ n ih => exact congrArg f ih

/-- Periods that are known to have passed may be taken off at once. -/
theorem takePeriods_repeat {period elapsed : Binary32} {n : Nat}
    (h : ∀ j < n, period.le (Nat.repeat (· - period) j elapsed) = true) (fuel count : Nat) :
    takePeriods period fuel count elapsed =
      takePeriods period (fuel - n) (count + n) (Nat.repeat (· - period) n elapsed) := by
  induction n generalizing fuel count elapsed with
  | zero => rfl
  | succ n ih =>
    cases fuel with
    | zero =>
      rw [Nat.zero_sub]
      rfl
    | succ fuel =>
      have hfirst : period.le elapsed = true := h 0 (Nat.succ_pos n)
      rw [takePeriods, if_pos hfirst, ih, repeat_apply, Nat.succ_sub_succ, Nat.add_right_comm,
        Nat.add_assoc]
      intro j hj
      rw [repeat_apply]
      exact h (j + 1) (Nat.succ_lt_succ hj)

/-- The ticks of periods that are known to have passed may be made in one run. -/
theorem Machine.catchUp_repeat {period elapsed : Binary32} {n : Nat}
    (h : ∀ j < n, period.le (Nat.repeat (· - period) j elapsed) = true) (tally : Tally)
    (fuel count : Nat) (m : Machine) :
    m.catchUp period fuel count elapsed =
      let run := m.runOn tally (min n fuel)
      match run.fault with
      | none => run.machine.catchUp period (fuel - n) (count + n)
          (Nat.repeat (· - period) n elapsed)
      | some f => some ⟨.error f, .zero, run.machine⟩ := by
  induction n generalizing fuel count elapsed m tally with
  | zero =>
    rw [Nat.zero_min]
    rfl
  | succ n ih =>
    cases fuel with
    | zero =>
      rw [Nat.zero_sub]
      rfl
    | succ fuel =>
      have hfirst : period.le elapsed = true := h 0 (Nat.succ_pos n)
      have hrest : ∀ j < n, period.le (Nat.repeat (· - period) j (elapsed - period)) = true := by
        intro j hj
        rw [repeat_apply]
        exact h (j + 1) (Nat.succ_lt_succ hj)
      rw [Nat.succ_min_succ, catchUp, if_pos hfirst, runOn]
      dsimp only
      cases m.tick.result with
      | error f => rfl
      | ok s =>
        dsimp only
        rw [ih hrest (tally.count s), repeat_apply, Nat.succ_sub_succ, Nat.add_right_comm,
          Nat.add_assoc]

/-- How many whole periods have passed, counted on top of `count`, and what is left of the time.
The answer is that of `takePeriods`, and comes sooner. -/
def countPeriods (period : Binary32) (fuel count : Nat) (elapsed : Binary32) :
    Option (Nat × Binary32) :=
  if fuel = 0 then none
  else if period.le elapsed then
    let leap := elapsed.leap period
    countPeriods period (fuel - leap.count) (count + leap.count) leap.rest
  else some (count, elapsed)
termination_by fuel
decreasing_by
  have := Binary32.count_leap_pos elapsed period
  omega

/-- Lets a machine tick once for every period that has passed. The answer is that of `catchUp`, and
comes sooner. -/
def Machine.keepUp (period : Binary32) (fuel count : Nat) (elapsed : Binary32) (m : Machine) :
    Option CaughtUp :=
  if fuel = 0 then none
  else if period.le elapsed then
    let leap := elapsed.leap period
    let run := m.run (min leap.count fuel)
    match run.fault with
    | none => run.machine.keepUp period (fuel - leap.count) (count + leap.count) leap.rest
    | some f => some ⟨.error f, .zero, run.machine⟩
  else some ⟨.ok count, elapsed, m⟩
termination_by fuel
decreasing_by
  have := Binary32.count_leap_pos elapsed period
  omega

theorem countPeriods_eq (period : Binary32) (fuel count : Nat) (elapsed : Binary32) :
    countPeriods period fuel count elapsed = takePeriods period fuel count elapsed := by
  fun_induction countPeriods period fuel count elapsed with
  | case1 => rfl
  | case2 fuel count elapsed hfuel hle leap ih =>
    rw [ih, takePeriods_repeat (fun j => Binary32.le_repeat_of_lt_count hle), Binary32.rest_leap]
  | case3 fuel count elapsed hfuel hle =>
    obtain ⟨fuel, rfl⟩ := Nat.exists_eq_succ_of_ne_zero hfuel
    rw [takePeriods, if_neg hle]

theorem Machine.keepUp_eq (period : Binary32) (fuel count : Nat) (elapsed : Binary32)
    (m : Machine) : m.keepUp period fuel count elapsed = m.catchUp period fuel count elapsed := by
  fun_induction keepUp period fuel count elapsed m with
  | case1 => rfl
  | case2 fuel count elapsed m hfuel hle leap run hrun ih =>
    rw [ih, catchUp_repeat (fun j => Binary32.le_repeat_of_lt_count hle) .zero]
    change _ = match run.fault with
      | none => _
      | some f => _
    rw [hrun, ← Binary32.rest_leap]
    rfl
  | case3 fuel count elapsed m hfuel hle leap run f hrun =>
    rw [catchUp_repeat (fun j => Binary32.le_repeat_of_lt_count hle) .zero]
    change _ = match run.fault with
      | none => _
      | some f => _
    rw [hrun]
    rfl
  | case4 fuel count elapsed m hfuel hle =>
    obtain ⟨fuel, rfl⟩ := Nat.exists_eq_succ_of_ne_zero hfuel
    rw [catchUp, if_neg hle]

namespace ClockedMachine

/-- A machine that carries out `rate` instructions in a second. -/
def start (machine : Machine) (rate : Binary32) : ClockedMachine :=
  { machine, period := rate.inverse, elapsed := .zero, timerElapsed := .zero, paused := false }

/-- Lets `dt` seconds pass: the timer first catches up with its clock, then the machine with its
own. While paused, time does not count. The answer is how many instructions have come due, or the
fault that stopped the machine; there is none if one of the two takes `fuel` ticks or more, which
some periods make them do whatever the fuel. -/
def update (c : ClockedMachine) (fuel : Nat) (dt : Binary32) :
    Option (Except Fault Nat × ClockedMachine) :=
  if c.paused then some (.ok 0, c)
  else
    match countPeriods timerPeriod fuel 0 (c.timerElapsed + dt) with
    | none => none
    | some (count, timerElapsed) =>
      let m := c.machine.timerTicks count
      (m.keepUp c.period fuel 0 (c.elapsed + dt)).map fun r =>
        (r.result, { c with machine := r.machine, elapsed := r.elapsed, timerElapsed })

/-- An update tick by tick. -/
theorem update_eq (c : ClockedMachine) (fuel : Nat) (dt : Binary32) :
    c.update fuel dt =
      if c.paused then some (.ok 0, c)
      else
        match takePeriods timerPeriod fuel 0 (c.timerElapsed + dt) with
        | none => none
        | some (count, timerElapsed) =>
          let m := Nat.repeat Machine.timerTick count c.machine
          (m.catchUp c.period fuel 0 (c.elapsed + dt)).map fun r =>
            (r.result, { c with machine := r.machine, elapsed := r.elapsed, timerElapsed }) := by
  simp only [update, countPeriods_eq, Machine.timerTicks_eq_repeat, Machine.keepUp_eq]

/-- Replaces the machine by what a function makes of it. -/
def modify (c : ClockedMachine) (f : Machine → Machine) : ClockedMachine :=
  { c with machine := f c.machine }

/-- Lets the machine do one step, whatever the clocks say. -/
def step (c : ClockedMachine) : Except Fault Signal × ClockedMachine :=
  let t := c.machine.tick
  (t.result, { c with machine := t.machine })

/-- Tells the machine which key is held. -/
def setKey (c : ClockedMachine) (key : UInt8) : ClockedMachine := c.modify (·.setKey key)

/-- Stops the clocks. -/
def pause (c : ClockedMachine) : ClockedMachine := { c with paused := true }

/-- Starts the clocks again from nothing, so that time spent in a pause is never made up for. -/
def resume (c : ClockedMachine) : ClockedMachine :=
  { c with paused := false, elapsed := .zero, timerElapsed := .zero }

/-- Stops running clocks and starts stopped ones. -/
def togglePause (c : ClockedMachine) : ClockedMachine := if c.paused then c.resume else c.pause

/-- More fuel keeps an answer, so an update has at most one. -/
theorem update_add {c : ClockedMachine} {fuel : Nat} {dt : Binary32}
    {r : Except Fault Nat × ClockedMachine} (h : c.update fuel dt = some r) (more : Nat) :
    c.update (fuel + more) dt = some r := by
  rw [update_eq] at h ⊢
  split at h
  · rename_i hp
    rw [if_pos hp]
    exact h
  · rename_i hp
    rw [if_neg hp]
    split at h
    · cases h
    · rename_i ht
      rw [takePeriods_add ht]
      obtain ⟨s, hs, rfl⟩ := Option.map_eq_some_iff.1 h
      dsimp only
      rw [Machine.catchUp_add hs]
      rfl

end ClockedMachine

end Chip8
