import Chip8.CommandLine.Options
import Mathlib.Data.List.TakeDrop

namespace Chip8.CommandLine

/-- A text that is not taken for an option: of those that start with a dash, only the dash by itself
is not. -/
def StandsAlone (s : String) : Prop := s.toList.head? = some '-' → s = "-"

instance (s : String) : Decidable (StandsAlone s) :=
  inferInstanceAs (Decidable (s.toList.head? = some '-' → s = "-"))

theorem standsAlone_of_head?_ne {s : String} (h : s.toList.head? ≠ some '-') : StandsAlone s :=
  fun hdash => absurd hdash h

/-- The name of the option for a slot. The path of the program is given without one. -/
def Slot.option? : Slot → Option String
  | .rom => none
  | .profile => some "profile"
  | .rate => some "cpu-hz"
  | .seed => some "seed"
  | .logFile => some "log-file"

/-- A text that is given for a slot. -/
structure Entry where
  slot : Slot
  text : String
deriving DecidableEq

/-- An entry and how it is written: whether an equals sign joins the text to its option, so that the
two are one argument. The path of the program has no option to be joined to. -/
structure Item extends Entry where
  joined : Bool

namespace Item

/-- The arguments of an item. -/
def arguments (i : Item) : List String :=
  match i.slot.option?, i.joined with
  | none, _ => [i.text]
  | some name, false => ["--" ++ name, i.text]
  | some name, true => ["--" ++ name ++ "=" ++ i.text]

/-- Whether the text of an item is told from options if it is an argument of its own. -/
def Legible (i : Item) : Prop := i.text ∈ i.arguments → StandsAlone i.text

end Item

theorem Slot.option?_eq_none_iff {slot : Slot} : slot.option? = none ↔ slot = .rom := by
  cases slot <;> decide

theorem Slot.ne_rom_of_option? {slot : Slot} {name : String} (h : slot.option? = some name) :
    slot ≠ .rom := by
  rintro rfl
  cases h

theorem Slot.ofOption?_of_option? {slot : Slot} {name : String} (h : slot.option? = some name) :
    Slot.ofOption? name = some slot := by
  cases slot <;> cases h <;> rfl

/-- No name of an option holds an equals sign, and none is empty. -/
theorem Slot.toList_option? {slot : Slot} {name : String} (h : slot.option? = some name) :
    '=' ∉ name.toList ∧ name.toList ≠ [] := by
  cases slot <;> cases h <;> decide

namespace Argument

theorem ofText_of_standsAlone {s : String} (h : StandsAlone s) : ofText s = .plain s := by
  have hdash (cs : List Char) (hs : s.toList = '-' :: cs) : cs = [] := by
    rw [h (by rw [hs]; rfl)] at hs
    exact (List.cons.inj hs).2.symm
  unfold ofText
  split
  · next hs => cases hdash _ hs
  · next hs => cases hdash _ hs
  · next hs => cases hdash _ hs
  · rfl

/-- What follows two dashes and is not empty is split at its first equals sign. -/
theorem ofText_dashes {s : String} (h : s.toList ≠ []) : ofText ("--" ++ s) = .ofLong s.toList := by
  have hs : ("--" ++ s).toList = '-' :: '-' :: s.toList := String.toList_append
  unfold ofText
  rw [hs]
  cases hcs : s.toList with
  | nil => exact absurd hcs h
  | cons c cs => rfl

/-- A name without an equals sign ends where the text does, or at an equals sign. -/
theorem span_append {cs : List Char} (h : '=' ∉ cs) (rest : List Char)
    (hrest : rest.takeWhile (decide <| · ≠ '=') = []) :
    (cs ++ rest).span (decide <| · ≠ '=') = (cs, rest) := by
  have hall : ∀ c ∈ cs, decide (c ≠ '=') = true := fun c hc =>
    decide_eq_true fun heq => h (heq ▸ hc)
  have hsplit := List.takeWhile_append_dropWhile (p := (decide <| · ≠ '=')) (l := rest)
  rw [hrest, List.nil_append] at hsplit
  rw [List.span_eq_takeWhile_dropWhile, List.takeWhile_append_of_pos hall,
    List.dropWhile_append_of_pos hall, hrest, hsplit, List.append_nil]

theorem ofLong_of_notMem {cs : List Char} (h : '=' ∉ cs) :
    ofLong cs = .long (String.ofList cs) none := by
  have hspan := span_append h [] rfl
  rw [List.append_nil] at hspan
  rw [ofLong, hspan]

theorem ofLong_append {cs : List Char} (h : '=' ∉ cs) (ds : List Char) :
    ofLong (cs ++ '=' :: ds) = .long (String.ofList cs) (some (String.ofList ds)) := by
  rw [ofLong, span_append h ('=' :: ds) rfl]

variable {slot : Slot} {name : String}

theorem ofText_option (h : slot.option? = some name) :
    ofText ("--" ++ name) = .long name none := by
  obtain ⟨hname, hnonempty⟩ := Slot.toList_option? h
  rw [ofText_dashes hnonempty, ofLong_of_notMem hname, String.ofList_toList]

theorem ofText_option_joined (h : slot.option? = some name) (s : String) :
    ofText ("--" ++ name ++ "=" ++ s) = .long name (some s) := by
  obtain ⟨hname, hnonempty⟩ := Slot.toList_option? h
  have hs : (name ++ "=" ++ s).toList = name.toList ++ '=' :: s.toList := by
    simp [String.toList_append]
  have hdashes : "--" ++ name ++ "=" ++ s = "--" ++ (name ++ "=" ++ s) := by
    rw [String.append_assoc, String.append_assoc, String.append_assoc]
  rw [hdashes, ofText_dashes (by simp [hs]), hs, ofLong_append hname, String.ofList_toList,
    String.ofList_toList]

end Argument

end Chip8.CommandLine
