import Chip8.Console.Key
import Chip8.Machine.Clocked

namespace Chip8

/-- A point in time, in nanoseconds from some beginning. -/
abbrev Instant := Nat

/-- How long a key counts as held after its last event. Not every keyboard tells when a key is
released. -/
def keyHold : Nat := 50000000

/-- The key of the keypad that was pressed last, and when. -/
structure Press where
  key : Nibble
  since : Instant
deriving DecidableEq

/-- A machine with a keyboard and a screen for one player. -/
structure Console where
  clocked : ClockedMachine
  /-- A line for the player, such as the fault that has stopped the machine. -/
  status : String
  quit : Bool
  press : Option Press

namespace Console

/-- A console that has just been switched on, at `rate` instructions in a second. -/
def start (machine : Machine) (rate : Binary32) : Console :=
  { clocked := .start machine rate, status := "", quit := false, press := none }

/-- The machine of a console. -/
def machine (c : Console) : Machine := c.clocked.machine

/-- Pauses or goes on, and clears the status. -/
def togglePause (c : Console) : Console :=
  { c with clocked := c.clocked.togglePause, status := "" }

/-- Presses a key of the keypad. -/
def pressKey (c : Console) (now : Instant) (key : Nibble) : Console :=
  { c with clocked := c.clocked.setKey key.toByte, press := some ⟨key, now⟩ }

/-- Lets go of the key that is held. -/
def releaseKey (c : Console) : Console :=
  { c with clocked := c.clocked.setKey 0, press := none }

/-- Takes in an event of the keyboard. A key of the keypad counts as pressed whatever has happened
to it. -/
def handleKey (c : Console) (now : Instant) (e : KeyEvent) : Console :=
  if e.quits then { c with quit := true }
  else if e.pauses then c.togglePause
  else
    match e.keypadKey? with
    | some key => c.pressKey now key
    | none => c

/-- Lets go of a key that has been held long enough. -/
def expireKey (c : Console) (now : Instant) : Console :=
  match c.press with
  | some p => if keyHold < now - p.since then c.releaseKey else c
  | none => c

/-- Lets `dt` seconds pass. -/
def update (c : Console) (fuel : Nat) (dt : Binary32) :
    Option (Except Fault Nat × Console) :=
  (c.clocked.update fuel dt).map fun r => (r.1, { c with clocked := r.2 })

/-- Lets the machine do one step, whatever the clocks say. -/
def step (c : Console) : Except Fault Signal × Console :=
  (c.clocked.step.1, { c with clocked := c.clocked.step.2 })

/-- Stops the clocks. -/
def pause (c : Console) : Console := { c with clocked := c.clocked.pause }

/-- Replaces the status. -/
def setStatus (c : Console) (status : String) : Console := { c with status }

/-- Lets `dt` seconds pass. If a fault has stopped the machine, the console pauses and shows it. -/
def advance (c : Console) (fuel : Nat) (dt : Binary32) : Option (Option Fault × Console) :=
  (c.update fuel dt).map fun r =>
    match r.1 with
    | .ok _ => (none, r.2)
    | .error f => (some f, r.2.pause.setStatus f.message)

end Console

end Chip8
