import Chip8.Machine.Tick

namespace Chip8

/-- How often each outcome has come up. -/
structure Tally where
  executed : Nat
  accepted : Nat
  awaiting : Nat
deriving DecidableEq

/-- Nothing has come up. -/
def Tally.zero : Tally := ⟨0, 0, 0⟩

/-- Adds one outcome. -/
def Tally.count (t : Tally) : Signal → Tally
  | .executed => { t with executed := t.executed + 1 }
  | .keyAccepted => { t with accepted := t.accepted + 1 }
  | .awaitingKey => { t with awaiting := t.awaiting + 1 }

/-- Several ticks in a row: the outcomes of those that went through, the fault of the one that did
not, and the machine after them. -/
structure Run where
  tally : Tally
  fault : Option Fault
  machine : Machine

namespace Machine

/-- Lets a machine tick up to `count` times, and counts the outcomes on top of `tally`. A tick that
fails is the last one. -/
def runOn (tally : Tally) : Nat → Machine → Run
  | 0, m => ⟨tally, none, m⟩
  | count + 1, m =>
    let t := m.tick
    match t.result with
    | .ok s => runOn (tally.count s) count t.machine
    | .error f => ⟨tally, some f, t.machine⟩

/-- Lets a machine tick up to `count` times, as long as no tick fails. -/
def run (m : Machine) (count : Nat) : Run := m.runOn .zero count

/-- What up to `count` ticks add to a log that stands in `newestFirst`, the latest record first. -/
def logOn (newestFirst : List Record) : Nat → Machine → List Record
  | 0, _ => newestFirst
  | count + 1, m =>
    let t := m.tick
    let newestFirst := t.log.reverse ++ newestFirst
    match t.result with
    | .ok _ => logOn newestFirst count t.machine
    | .error _ => newestFirst

/-- What the ticks of a run add to the log, in order. -/
def runLog (m : Machine) (count : Nat) : List Record := (m.logOn [] count).reverse

end Machine

end Chip8
