namespace Chip8.CommandLine

/-- An argument, by its shape. -/
inductive Argument
  /-- Two dashes and nothing else: no options follow. -/
  | separator
  /-- Two dashes and a name, and perhaps a value after an equals sign. -/
  | long (name : String) (value : Option String)
  /-- One dash and letters. -/
  | short (first : Char) (others : List Char)
  /-- Anything else, a dash by itself as well. -/
  | plain (text : String)
deriving DecidableEq

/-- A long option from what follows its dashes. -/
def Argument.ofLong (cs : List Char) : Argument :=
  let (name, rest) := cs.span (· ≠ '=')
  match rest with
  | [] => .long (String.ofList name) none
  | _ :: value => .long (String.ofList name) (some (String.ofList value))

/-- The shape of an argument. -/
def Argument.ofText (s : String) : Argument :=
  match s.toList with
  | ['-', '-'] => .separator
  | '-' :: '-' :: rest => .ofLong rest
  | '-' :: c :: rest => .short c rest
  | _ => .plain s

end Chip8.CommandLine
