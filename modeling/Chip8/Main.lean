import Chip8.Console.Frame
import Chip8.Launch

namespace Chip8.Main

/-- The number by which the system reported a fault, if the system did. -/
def systemNumber? : IO.Error → Option UInt32
  | .alreadyExists _ n _ | .otherError n _ | .resourceBusy n _ | .resourceVanished n _
  | .unsupportedOperation n _ | .hardwareFault n _ | .unsatisfiedConstraints n _
  | .illegalOperation n _ | .protocolError n _ | .timeExpired n _ | .interrupted _ n _
  | .noFileOrDirectory _ n _ | .invalidArgument _ n _ | .permissionDenied _ n _
  | .resourceExhausted _ n _ | .inappropriateType _ n _ | .noSuchThing _ n _ => some n
  | .unexpectedEof | .userError _ => none

/-- A fault of the system, as a launch reports it. -/
def fileFault (e : IO.Error) : FileFault :=
  ((systemNumber? e).bind fun n => FileFault.ofNumber? n.toNat).getD (.unexpected (toString e))

/-- Runs an action on a file and keeps its fault. -/
def attempt {α : Type} (action : IO α) : IO (Except FileFault α) := do
  match ← action.toBaseIO with
  | .ok a => return .ok a
  | .error e => return .error (fileFault e)

/-- The system that this program runs on. -/
def host : Host IO :=
  { createLog := fun path => attempt (IO.FS.writeFile path "")
    readRom := fun path =>
      attempt <| IO.FS.withFile path .read fun h => return (← h.readBinToEnd).data
    freshSeed := do
      let bytes ← IO.getRandomBytes 8
      return bytes.data.foldl (fun n b => n * 256 + b.toUInt64) 0 }

/-- The sequence that sets a colour of a terminal. -/
def colourCode : Option Colour → String
  | none => "\x1b[0m"
  | some .red => "\x1b[31m"
  | some .green => "\x1b[32m"
  | some .yellow => "\x1b[33m"
  | some .cyan => "\x1b[36m"

/-- A row of cells as a terminal takes it, less some cells that what stands before them covers. -/
def rowTextAfter : Nat → List Cell → String
  | _, [] => ""
  | covered + 1, _ :: row => rowTextAfter covered row
  | 0, cell :: row =>
    colourCode cell.colour ++ String.ofList cell.glyph ++
      rowTextAfter (cell.glyph.columns - 1) row

/-- A row of cells as a terminal takes it. -/
def rowText (row : List Cell) : String := rowTextAfter 0 row

/-- Draws a frame from the upper left corner of the terminal on. -/
def draw (f : Frame) : IO Unit := do
  let out ← IO.getStdout
  out.putStr "\x1b[H"
  for row in f.rows do
    out.putStrLn (rowText row ++ colourCode none)
  out.flush

/-- The event of a character that has been typed. -/
def typed (c : Char) : KeyEvent :=
  { code := if c = '\x1b' then .escape else .char c
    modifiers := ⟨false, false, false⟩
    kind := .press }

/-- The seconds between two points in time. -/
def secondsBetween (earlier later : Instant) : Binary32 :=
  .ofRatio (later - earlier) 1000000000

/-- How many ticks may come due between two frames. -/
def fuel : Nat := 1000000

/-- Adds a line to the log, if there is one. -/
def writeLog (path : Option String) (line : String) : IO Unit :=
  match path with
  | none => return
  | some path => IO.FS.withFile path .append fun h => h.putStrLn line

/-- Runs a console. Keys are typed as lines; the end of the input leaves. -/
partial def play (c : Console) (log : Option String) (last : Instant)
    (input : Task (Except IO.Error String)) : IO Unit := do
  if c.quit then return
  let now ← IO.monoNanosNow
  let (fault, c) := (c.advance fuel (secondsBetween last now)).getD (none, c.pause)
  if let some f := fault then writeLog log ("ERROR execution stopped: " ++ f.message)
  draw (c.frame Console.minWidth Console.minHeight)
  let c := c.expireKey now
  IO.sleep 16
  if ← IO.hasFinished input then
    match input.get with
    | .ok "" => return
    | .ok line =>
      let keys := line.toList.filter (· ≠ '\n')
      let c := keys.foldl (fun c key => c.handleKey now (typed key)) c
      play c log now (← IO.asTask (← IO.getStdin).getLine)
    | .error e => throw e
  else play c log now input

/-- What is said about a command line that is refused. -/
def refusalText : CommandLine.Refusal → String
  | .missingRom => "error: the path of a program is missing"
  | .unknownArgument => "error: unexpected argument"
  | .invalidValue => "error: a value is missing or not one of the possible ones"
  | .malformedNumber => "error: a value is not a number"
  | .repeatedOption => "error: an option is given twice"
  | .unneededValue => "error: unexpected value"
  | .helpWanted =>
    "usage: chip8 ROM [--profile legacy|compliant] [--cpu-hz RATE] [--seed SEED] [--log-file PATH]"

/-- Starts a console and runs it. -/
def main (arguments : List String) : IO UInt32 := do
  let launch ← Launch.run host arguments
  match launch with
  | .ready options console =>
    play console options.logFile (← IO.monoNanosNow) (← IO.asTask (← IO.getStdin).getLine)
  | .failed f => (← IO.getStderr).putStr f.report
  | .refused .helpWanted => IO.println (refusalText .helpWanted)
  | .refused r => IO.eprintln (refusalText r)
  return (launch.exitCode?.getD 0).toUInt32

end Chip8.Main

/-- Starts a console and runs it. -/
def main (arguments : List String) : IO UInt32 := Chip8.Main.main arguments
