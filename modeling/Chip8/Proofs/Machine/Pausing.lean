import Chip8.Machine.Clocked
import Chip8.Proofs.Machine.Boot

namespace Chip8

/-- What can be asked of a clocked machine. -/
inductive Request
  | update (dt : Binary32)
  | step
  | pause
  | resume
  | togglePause
  | setKey (key : UInt8)

/-- What a clocked machine answers. -/
inductive Reply
  | updated (r : Except Fault Nat)
  | stepped (r : Except Fault Signal)
  | done

namespace Request

/-- Whether the clocks stand still after a request, by whether they did before. -/
def pausedAfter : Request → Bool → Bool
  | pause, _ => true
  | resume, _ => false
  | togglePause, paused => !paused
  | _, paused => paused

/-- Whether a request lets time pass while the clocks stand still. -/
def isIdle : Request → Bool → Bool
  | update _, paused => paused
  | _, _ => false

/-- Whether a request starts clocks that stand still. One to resume starts running clocks anew as
well. -/
def Resumes : Request → Bool → Prop
  | resume, _ => True
  | togglePause, paused => paused = true
  | _, _ => False

/-- The requests of a run but for the updates that come while the clocks stand still. -/
def heeded : Bool → List Request → List Request
  | _, [] => []
  | paused, r :: rs =>
    if r.isIdle paused then heeded paused rs else r :: heeded (r.pausedAfter paused) rs

theorem heeded_cons_of_idle {r : Request} {paused : Bool} (h : r.isIdle paused = true)
    (rs : List Request) : heeded paused (r :: rs) = heeded paused rs :=
  if_pos h

theorem heeded_cons_of_not_idle {r : Request} {paused : Bool} (h : ¬ r.isIdle paused = true)
    (rs : List Request) :
    heeded paused (r :: rs) = r :: heeded (r.pausedAfter paused) rs :=
  if_neg h

end Request

/-- A request, whether the clocks stood still when it came, and what was answered. -/
structure Exchange where
  paused : Bool
  request : Request
  reply : Reply

/-- What has become of a run of requests: what was answered, and the machine after it. -/
structure Session where
  exchanges : List Exchange
  machine : ClockedMachine

namespace Session

/-- A session with one more exchange before it. -/
def cons (e : Exchange) (s : Session) : Session := { s with exchanges := e :: s.exchanges }

/-- A session without the updates that came while the clocks stood still. -/
def heeded (s : Session) : Session :=
  { s with exchanges := s.exchanges.filter fun e => !e.request.isIdle e.paused }

theorem heeded_cons_of_idle {e : Exchange} (h : e.request.isIdle e.paused = true) (s : Session) :
    (s.cons e).heeded = s.heeded := by
  simp [heeded, cons, h]

theorem heeded_cons_of_not_idle {e : Exchange} (h : ¬ e.request.isIdle e.paused = true)
    (s : Session) : (s.cons e).heeded = s.heeded.cons e := by
  simp [heeded, cons, h]

end Session

namespace ClockedMachine

variable {c c' : ClockedMachine} {fuel : Nat} {r : Request} {reply : Reply}

/-- How a clocked machine meets a request. There is no answer if an update does not come to an end
in `fuel` ticks. -/
def obey (c : ClockedMachine) (fuel : Nat) : Request → Option (Reply × ClockedMachine)
  | .update dt => (c.update fuel dt).map fun r => (.updated r.1, r.2)
  | .step => some (.stepped c.step.1, c.step.2)
  | .pause => some (.done, c.pause)
  | .resume => some (.done, c.resume)
  | .togglePause => some (.done, c.togglePause)
  | .setKey key => some (.done, c.setKey key)

/-- How a clocked machine meets a run of requests. -/
def session (c : ClockedMachine) (fuel : Nat) : List Request → Option Session
  | [] => some ⟨[], c⟩
  | r :: rs =>
    (c.obey fuel r).bind fun a => (a.2.session fuel rs).map (.cons ⟨c.paused, r, a.1⟩)

theorem paused_togglePause (c : ClockedMachine) : c.togglePause.paused = !c.paused := by
  unfold togglePause
  split
  · next hpaused => rw [hpaused]; rfl
  · next hrunning => rw [Bool.eq_false_iff.2 hrunning]; rfl

theorem paused_update {dt : Binary32} {a : Except Fault Nat}
    (h : c.update fuel dt = some (a, c')) : c'.paused = c.paused := by
  rw [update] at h
  split at h
  · cases h
    rfl
  · split at h
    · cases h
    · obtain ⟨s, -, hs⟩ := Option.map_eq_some_iff.1 h
      cases hs
      rfl

/-- Requests alone decide whether the clocks stand still. -/
theorem paused_obey (h : c.obey fuel r = some (reply, c')) :
    c'.paused = r.pausedAfter c.paused := by
  cases r with
  | update dt =>
    obtain ⟨a, hupdate, ha⟩ := Option.map_eq_some_iff.1 h
    cases ha
    exact paused_update hupdate
  | togglePause =>
    cases h
    exact c.paused_togglePause
  | _ =>
    cases h
    rfl

/-- An update while the clocks stand still does nothing. -/
theorem obey_of_idle (h : r.isIdle c.paused = true) :
    c.obey fuel r = some (.updated (.ok 0), c) := by
  cases r with
  | update dt =>
    have hupdate : c.update fuel dt = some (.ok 0, c) := if_pos h
    rw [obey, hupdate, Option.map_some]
  | _ => cases h

theorem obey_of_resumes (h : r.Resumes c.paused) : c.obey fuel r = some (.done, c.resume) := by
  cases r with
  | resume => rfl
  | togglePause =>
    have htoggle : c.togglePause = c.resume := if_pos h
    rw [obey, htoggle]
  | _ => cases h

/-- A session goes on without the updates that come while the clocks stand still. -/
theorem heeded_session (c : ClockedMachine) (fuel : Nat) (rs : List Request) :
    (c.session fuel rs).map Session.heeded = c.session fuel (Request.heeded c.paused rs) := by
  induction rs generalizing c with
  | nil => rfl
  | cons r rs ih =>
    by_cases hidle : r.isIdle c.paused = true
    · have hskips (s : Session) :
          (s.cons ⟨c.paused, r, .updated (.ok 0)⟩).heeded = s.heeded :=
        Session.heeded_cons_of_idle hidle s
      rw [Request.heeded_cons_of_idle hidle, ← ih, session, obey_of_idle hidle, Option.bind_some,
        Option.map_map]
      exact congrArg (Option.map · (c.session fuel rs)) (funext hskips)
    · rw [Request.heeded_cons_of_not_idle hidle, session, session]
      cases hobey : c.obey fuel r with
      | none => rfl
      | some a =>
        have hkeeps (s : Session) :
            (s.cons ⟨c.paused, r, a.1⟩).heeded = s.heeded.cons ⟨c.paused, r, a.1⟩ :=
          Session.heeded_cons_of_not_idle hidle s
        rw [Option.bind_some, Option.bind_some, ← paused_obey hobey, ← ih, Option.map_map,
          Option.map_map]
        exact congrArg (Option.map · (a.2.session fuel rs)) (funext hkeeps)

/-- Time that passes in a pause is lost. Runs of requests that differ in the updates during pauses
alone get the same answers to all other requests, and leave the same machine, or none of the two
comes to an end. And once their clocks have been started again, machines that differed in the times
on them are one: whatever is asked then, both go on alike. -/
theorem pauses_pass_unnoticed :
    (∀ (c : ClockedMachine) fuel rs ss, Request.heeded c.paused rs = Request.heeded c.paused ss →
      (c.session fuel rs).map Session.heeded = (c.session fuel ss).map Session.heeded) ∧
    ∀ (c d : ClockedMachine) r s, c.machine = d.machine → c.period = d.period →
      r.Resumes c.paused → s.Resumes d.paused →
      ∃ e, ∀ fuel,
        c.obey fuel r = some (.done, e) ∧ d.obey fuel s = some (.done, e) ∧
        ∀ rs,
          c.session fuel (r :: rs) = (e.session fuel rs).map (.cons ⟨c.paused, r, .done⟩) ∧
          d.session fuel (s :: rs) = (e.session fuel rs).map (.cons ⟨d.paused, s, .done⟩) := by
  refine ⟨fun c fuel rs ss hsame => ?_, fun c d r s hmachine hperiod hr hs => ?_⟩
  · rw [heeded_session, heeded_session, hsame]
  · have hone : d.resume = c.resume := by
      unfold resume
      rw [hmachine, hperiod]
    refine ⟨c.resume, fun fuel => ?_⟩
    have hc : c.obey fuel r = some (.done, c.resume) := obey_of_resumes hr
    have hd : d.obey fuel s = some (.done, c.resume) := hone ▸ obey_of_resumes hs
    refine ⟨hc, hd, fun rs => ?_⟩
    rw [session, session, hc, hd]
    exact ⟨rfl, rfl⟩

/-- A pause in which the machine makes one step: that its clocks have been given an infinite time
meanwhile, and then something that is no time at all, goes unnoticed. And a machine that was paused
with seven seconds on its clock goes on like one that has just been switched on. -/
theorem pauses_pass_unnoticed_infinite :
    ∃ m, Machine.boot #[0x70, 0x01] .compliant (.cycling #[]) = .ok m ∧
      ((start m standardRate).session 1
          [.pause, .update (.infinity false), .step, .update .nan, .togglePause]).map
        Session.heeded =
        ((start m standardRate).session 1 [.pause, .step, .togglePause]).map Session.heeded ∧
      ∃ e,
        { start m standardRate with elapsed := .ofNat 7, paused := true }.obey 1 .togglePause =
          some (.done, e) ∧
        (start m standardRate).obey 1 .resume = some (.done, e) := by
  obtain ⟨m, hm⟩ : ∃ m, Machine.boot #[0x70, 0x01] .compliant (.cycling #[]) = .ok m :=
    Machine.exists_boot (by decide) _ _
  obtain ⟨hsame, hresumed⟩ := pauses_pass_unnoticed
  have hmeet (c : ClockedMachine) : ∃ e,
      { c with elapsed := .ofNat 7, paused := true }.obey 1 .togglePause = some (.done, e) ∧
      c.obey 1 .resume = some (.done, e) := by
    obtain ⟨e, he⟩ := hresumed { c with elapsed := .ofNat 7, paused := true } c .togglePause .resume
      rfl rfl rfl trivial
    exact ⟨e, (he 1).1, (he 1).2.1⟩
  exact ⟨m, hm, hsame _ 1 _ _ rfl, hmeet _⟩

end ClockedMachine

end Chip8
