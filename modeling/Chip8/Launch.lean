import Chip8.CommandLine.Options
import Chip8.Console

namespace Chip8

/-- Why a file cannot be made or read. -/
inductive FileFault
  | notPermitted
  | notFound
  | inputOutput
  | noDeviceOrAddress
  | outOfMemory
  | permissionDenied
  | busy
  | noDevice
  | notDirectory
  | isDirectory
  | invalidArgument
  | tooManyFilesInSystem
  | tooManyFiles
  | textFileBusy
  | tooLarge
  | noSpace
  | readOnly
  | nameTooLong
  | tooManyLinks
  | quotaExceeded
  | unexpected (description : String)
deriving DecidableEq

namespace FileFault

/-- The number by which the system reports a fault. -/
def number? : FileFault → Option Nat
  | notPermitted => some 1
  | notFound => some 2
  | inputOutput => some 5
  | noDeviceOrAddress => some 6
  | outOfMemory => some 12
  | permissionDenied => some 13
  | busy => some 16
  | noDevice => some 19
  | notDirectory => some 20
  | isDirectory => some 21
  | invalidArgument => some 22
  | tooManyFilesInSystem => some 23
  | tooManyFiles => some 24
  | textFileBusy => some 26
  | tooLarge => some 27
  | noSpace => some 28
  | readOnly => some 30
  | nameTooLong => some 36
  | tooManyLinks => some 40
  | quotaExceeded => some 122
  | unexpected _ => none

/-- A fault in words. -/
def words : FileFault → String
  | notPermitted => "Operation not permitted"
  | notFound => "No such file or directory"
  | inputOutput => "Input/output error"
  | noDeviceOrAddress => "No such device or address"
  | outOfMemory => "Cannot allocate memory"
  | permissionDenied => "Permission denied"
  | busy => "Device or resource busy"
  | noDevice => "No such device"
  | notDirectory => "Not a directory"
  | isDirectory => "Is a directory"
  | invalidArgument => "Invalid argument"
  | tooManyFilesInSystem => "Too many open files in system"
  | tooManyFiles => "Too many open files"
  | textFileBusy => "Text file busy"
  | tooLarge => "File too large"
  | noSpace => "No space left on device"
  | readOnly => "Read-only file system"
  | nameTooLong => "File name too long"
  | tooManyLinks => "Too many levels of symbolic links"
  | quotaExceeded => "Disk quota exceeded"
  | unexpected description => description

/-- The words of a fault and the number that it has. -/
def message (f : FileFault) : String :=
  match f.number? with
  | none => f.words
  | some n => f.words ++ " (os error " ++ toString n ++ ")"

/-- The faults that have a number. -/
def numbered : List FileFault :=
  [notPermitted, notFound, inputOutput, noDeviceOrAddress, outOfMemory, permissionDenied, busy,
    noDevice, notDirectory, isDirectory, invalidArgument, tooManyFilesInSystem, tooManyFiles,
    textFileBusy, tooLarge, noSpace, readOnly, nameTooLong, tooManyLinks, quotaExceeded]

/-- The fault that a number stands for. -/
def ofNumber? (n : Nat) : Option FileFault := numbered.find? (·.number? == some n)

theorem number?_of_ofNumber? {n : Nat} {f : FileFault} (h : ofNumber? n = some f) :
    f.number? = some n := by
  simpa using List.find?_some h

theorem ofNumber?_of_number? {n : Nat} {f : FileFault} (h : f.number? = some n) :
    ofNumber? n = some f := by
  cases f <;> cases h <;> rfl

/-- A number and the fault that it stands for determine each other. -/
theorem ofNumber?_eq_some_iff {n : Nat} {f : FileFault} :
    ofNumber? n = some f ↔ f.number? = some n :=
  ⟨number?_of_ofNumber?, ofNumber?_of_number?⟩

end FileFault

/-- What a console needs from the system that it is started on. -/
structure Host (m : Type → Type) where
  /-- Makes an empty file for the log, in place of one that may be there. -/
  createLog : String → m (Except FileFault Unit)
  readRom : String → m (Except FileFault (Array UInt8))
  /-- A seed that nobody can foretell. -/
  freshSeed : m UInt64

/-- Why a console cannot be started although the command line is in order. -/
inductive LaunchFault
  | rateNotPositive
  | logFile (path : String) (f : FileFault)
  | romFile (f : FileFault)
  | program (f : Fault)
deriving DecidableEq

namespace LaunchFault

/-- What could not be done. -/
def context : LaunchFault → String
  | rateNotPositive => "--cpu-hz must be positive"
  | logFile path _ => "Failed to create log file " ++ path
  | romFile _ => "Failed to read ROM file"
  | program _ => "Failed to load ROM into CHIP-8 memory"

/-- Why it could not be done, if there is more to say. -/
def cause : LaunchFault → Option String
  | rateNotPositive => none
  | logFile _ f => some f.message
  | romFile f => some f.message
  | program f => some f.message

/-- The report of a fault. -/
def report (f : LaunchFault) : String :=
  match f.cause with
  | none => "Error: " ++ f.context ++ "\n"
  | some cause => "Error: " ++ f.context ++ "\n\nCaused by:\n    " ++ cause ++ "\n"

end LaunchFault

/-- How the attempt to start a console ends. -/
inductive Launch
  | refused (r : CommandLine.Refusal)
  | failed (f : LaunchFault)
  | ready (options : CommandLine.Options) (console : Console)

namespace Launch

/-- The exit code of a launch that does not get to a console: a request for help is not a fault. -/
def exitCode? : Launch → Option UInt8
  | refused .helpWanted => some 0
  | refused _ => some 2
  | failed _ => some 1
  | ready .. => none

/-- Puts a program into a machine, at the command line's choice of dialect, rate and seed. -/
def insert (o : CommandLine.Options) (program : Array UInt8) (freshSeed : UInt64) : Launch :=
  match Machine.boot program o.profile.dialect (.seeded (o.seed.getD freshSeed)) with
  | .error f => failed (.program f)
  | .ok machine => ready o (Console.start machine o.rate)

/-- Makes the log file, if one is wanted. -/
def openLog {m : Type → Type} [Monad m] (host : Host m) (o : CommandLine.Options) :
    m (Except LaunchFault Unit) :=
  match o.logFile with
  | none => pure (.ok ())
  | some path => do
    match ← host.createLog path with
    | .ok () => return .ok ()
    | .error f => return .error (.logFile path f)

/-- Starts a console. The rate is checked first, then the log file is made, and the program is read
and put in place last. -/
def run {m : Type → Type} [Monad m] (host : Host m) (arguments : List String) : m Launch := do
  match CommandLine.read arguments with
  | .error r => return refused r
  | .ok o =>
    if !Binary32.zero.lt o.rate then return failed .rateNotPositive
    match ← openLog host o with
    | .error f => return failed f
    | .ok () =>
      match ← host.readRom o.rom with
      | .error f => return failed (.romFile f)
      | .ok program => return insert o program (← host.freshSeed)

end Launch

end Chip8
