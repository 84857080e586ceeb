import Chip8.Binary32.Decimal
import Chip8.CommandLine.Argument
import Chip8.CommandLine.Seed
import Chip8.Dialect
import Chip8.Machine.Clocked

namespace Chip8.CommandLine

/-- What a command line asks for. -/
structure Options where
  rom : String
  profile : Profile
  rate : Binary32
  seed : Option UInt64
  logFile : Option String
deriving DecidableEq

/-- Why a command line asks for nothing that can be done. -/
inductive Refusal
  | missingRom
  | unknownArgument
  /-- A value is missing or empty, or is none of the names that can stand there. -/
  | invalidValue
  /-- A value is not a number of the kind that has to stand there. -/
  | malformedNumber
  /-- An option has been given before. -/
  | repeatedOption
  /-- A value has been given to an option that takes none. -/
  | unneededValue
  | helpWanted
deriving DecidableEq

/-- The things that a command line can give a value for. -/
inductive Slot
  | rom
  | profile
  | rate
  | seed
  | logFile
deriving DecidableEq

/-- The slot of an option that takes a value. -/
def Slot.ofOption? (name : String) : Option Slot :=
  match name with
  | "profile" => some .profile
  | "cpu-hz" => some .rate
  | "seed" => some .seed
  | "log-file" => some .logFile
  | _ => none

/-- The values that have been taken in so far. -/
structure Given where
  rom : Option String
  profile : Option Profile
  rate : Option Binary32
  seed : Option UInt64
  logFile : Option String
deriving DecidableEq

namespace Given

/-- No value has been taken in. -/
def nothing : Given := ⟨none, none, none, none, none⟩

/-- Whether a slot has a value. -/
def has (g : Given) : Slot → Bool
  | .rom => g.rom.isSome
  | .profile => g.profile.isSome
  | .rate => g.rate.isSome
  | .seed => g.seed.isSome
  | .logFile => g.logFile.isSome

/-- Takes in a value for a slot that has none. -/
def put (g : Given) (slot : Slot) (s : String) : Except Refusal Given :=
  match slot with
  | .rom => if s = "" then .error .invalidValue else .ok { g with rom := some s }
  | .profile =>
    match Profile.ofName? s with
    | some p => .ok { g with profile := some p }
    | none => .error .invalidValue
  | .rate =>
    match Binary32.read? s with
    | some rate => .ok { g with rate := some rate }
    | none => .error .malformedNumber
  | .seed =>
    match readSeed? s with
    | some seed => .ok { g with seed := some seed }
    | none => .error .malformedNumber
  | .logFile => if s = "" then .error .invalidValue else .ok { g with logFile := some s }

/-- Takes in a value. Each slot takes one, and a second one is refused before it is looked at. -/
def take (g : Given) (slot : Slot) (s : String) : Except Refusal Given :=
  if g.has slot then .error .repeatedOption else g.put slot s

/-- The options of a finished command line. -/
def options (g : Given) : Except Refusal Options :=
  match g.rom with
  | none => .error .missingRom
  | some rom =>
    .ok { rom
          profile := g.profile.getD .standard
          rate := g.rate.getD standardRate
          seed := g.seed
          logFile := g.logFile }

end Given

/-- A command line that has been read in part. A value is looked at only once the argument after it
has been recognized, so `waiting` holds the slot of the latest one, and the value if that has come. -/
structure Reader where
  given : Given
  waiting : Option (Slot × Option String)
  romSeen : Bool
  optionsOver : Bool

namespace Reader

/-- Nothing has been read. -/
def start : Reader := ⟨.nothing, none, false, false⟩

/-- Takes in the value that waits. -/
def settle (r : Reader) : Except Refusal Reader :=
  match r.waiting with
  | none => .ok r
  | some (_, none) => .error .invalidValue
  | some (slot, some s) => (r.given.take slot s).map fun given => { r with given, waiting := none }

/-- Reads an argument that is not an option: there is room for one. -/
def acceptPlain (r : Reader) (s : String) : Except Refusal Reader :=
  if r.romSeen then .error .unknownArgument
  else r.settle.map fun r => { r with romSeen := true, waiting := some (.rom, some s) }

/-- Reads an option that takes a value. -/
def acceptOption (r : Reader) (slot : Slot) (value : Option String) : Except Refusal Reader :=
  match r.settle with
  | .error e => .error e
  | .ok r =>
    match value with
    | some s => (r.given.take slot s).map fun given => { r with given }
    | none => .ok { r with waiting := some (slot, none) }

/-- Reads a request for help. -/
def acceptHelp (r : Reader) : Except Refusal Reader :=
  match r.settle with
  | .error e => .error e
  | .ok _ => .error .helpWanted

/-- Reads an argument. -/
def accept (r : Reader) (s : String) : Except Refusal Reader :=
  if r.optionsOver then r.acceptPlain s
  else
    match Argument.ofText s with
    | .separator => .ok { r with optionsOver := true }
    | .long name value =>
      match Slot.ofOption? name, name, value with
      | some slot, _, _ => r.acceptOption slot value
      | none, "help", none => r.acceptHelp
      | none, "help", some _ => .error .unneededValue
      | none, _, _ => .error .unknownArgument
    | .short 'h' _ => r.acceptHelp
    | .short _ _ => .error .unknownArgument
    | .plain s =>
      match r.waiting with
      | some (slot, none) => .ok { r with waiting := some (slot, some s) }
      | _ => r.acceptPlain s

/-- Reads arguments one after the other. -/
def acceptAll (r : Reader) : List String → Except Refusal Reader
  | [] => .ok r
  | s :: rest =>
    match r.accept s with
    | .error e => .error e
    | .ok r => r.acceptAll rest

end Reader

/-- Reads a command line. -/
def read (arguments : List String) : Except Refusal Options :=
  match (Reader.start.acceptAll arguments).bind Reader.settle with
  | .error e => .error e
  | .ok r => r.given.options

end Chip8.CommandLine
