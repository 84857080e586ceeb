import Chip8.Nibble

namespace Chip8

/-- A key of the keyboard. -/
inductive KeyCode
  | char (c : Char)
  | escape
  /-- A key that stands for no character, and for nothing on this console either. -/
  | other
deriving DecidableEq

/-- What has happened to a key. -/
inductive KeyKind
  | press
  | repeated
  | release
deriving DecidableEq

/-- The keys that are held along with another. -/
structure Modifiers where
  control : Bool
  alt : Bool
  shift : Bool
deriving DecidableEq

/-- Something that happens to a key. -/
structure KeyEvent where
  code : KeyCode
  modifiers : Modifiers
  kind : KeyKind
deriving DecidableEq

/-- The characters that stand for the keys of the keypad, from zero on. -/
def keypad : Vector Char 16 :=
  #v['x', '1', '2', '3', 'q', 'w', 'e', 'a', 's', 'd', 'z', 'c', '4', 'r', 'f', 'v']

namespace KeyEvent

/-- The key of the keypad that an event is about. -/
def keypadKey? (e : KeyEvent) : Option Nibble :=
  match e.code with
  | .char c => keypad.finIdxOf? c
  | _ => none

/-- Whether an event asks to leave: the escape key, or `c` together with control. -/
def quits (e : KeyEvent) : Bool :=
  e.code == .escape || e.code == .char 'c' && e.modifiers.control

/-- Whether an event asks to pause or to go on: the space key, when it is first pressed. -/
def pauses (e : KeyEvent) : Bool := e.code == .char ' ' && e.kind == .press

end KeyEvent

end Chip8
