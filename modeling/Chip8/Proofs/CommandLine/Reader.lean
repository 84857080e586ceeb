import Chip8.Proofs.CommandLine.Item

namespace Chip8.CommandLine

/-- Takes in an entry after others, unless one of those has been refused. -/
def Entry.takeAfter (taken : Except Refusal Given) (e : Entry) : Except Refusal Given :=
  taken.bind fun g => g.take e.slot e.text

/-- Takes in entries one after the other. -/
def takeAll (taken : Except Refusal Given) (es : List Entry) : Except Refusal Given :=
  es.foldl Entry.takeAfter taken

theorem takeAll_cons (taken : Except Refusal Given) (e : Entry) (es : List Entry) :
    takeAll taken (e :: es) = takeAll (e.takeAfter taken) es := rfl

theorem takeAll_append (taken : Except Refusal Given) (es fs : List Entry) :
    takeAll taken (es ++ fs) = takeAll (takeAll taken es) fs :=
  List.foldl_append

theorem takeAll_error (e : Refusal) (es : List Entry) : takeAll (.error e) es = .error e := by
  induction es with
  | nil => rfl
  | cons _ es ih => exact ih

namespace Reader

variable {r s : Reader} {slot : Slot} {name : String}

/-- What a reader has taken in once the value that waits is taken in as well. -/
def outcome (r : Reader) : Except Refusal Given := r.settle.map Reader.given

/-- Whether a reader is between two items: no option waits for a value, and options may follow. -/
structure Ready (r : Reader) : Prop where
  optionsGoOn : r.optionsOver = false
  complete : ∀ slot, r.waiting ≠ some (slot, none)

theorem settle_of_waiting_eq_none (h : r.waiting = none) : r.settle = .ok r := by
  rw [settle, h]

theorem settle_of_waiting_eq_some {text : String} (h : r.waiting = some (slot, some text)) :
    r.settle = (r.given.take slot text).map fun given => { r with given, waiting := none } := by
  rw [settle, h]

/-- A reader that has settled waits for nothing and is otherwise as before. -/
theorem settle_eq_ok (h : r.settle = .ok s) :
    s.waiting = none ∧ s.optionsOver = r.optionsOver ∧ s.romSeen = r.romSeen := by
  unfold settle at h
  split at h
  · next hwaiting =>
    cases h
    exact ⟨hwaiting, rfl, rfl⟩
  · cases h
  · next slot text hwaiting =>
    cases htake : r.given.take slot text with
    | error e =>
      rw [htake] at h
      cases h
    | ok g =>
      rw [htake] at h
      cases h
      exact ⟨rfl, rfl, rfl⟩

theorem outcome_of_settle (h : r.settle = .ok s) : r.outcome = .ok s.given := by
  rw [outcome, h]
  rfl

theorem outcome_of_waiting {text : String} (h : r.waiting = some (slot, some text)) :
    r.outcome = r.given.take slot text := by
  rw [outcome, settle_of_waiting_eq_some h]
  cases r.given.take slot text <;> rfl

/-- The outcome of a reader that has settled and then taken in an entry. -/
theorem takeAfter_outcome (h : r.settle = .ok s) (e : Entry) :
    e.takeAfter r.outcome = s.given.take e.slot e.text := by
  rw [outcome_of_settle h]
  rfl

theorem takeAfter_outcome_of_error {e : Refusal} (h : r.settle = .error e) (entry : Entry) :
    entry.takeAfter r.outcome = .error e := by
  rw [outcome, h]
  rfl

theorem acceptAll_append (r : Reader) (args args' : List String) :
    r.acceptAll (args ++ args') = (r.acceptAll args).bind (·.acceptAll args') := by
  induction args generalizing r with
  | nil => rfl
  | cons a args ih =>
    rw [List.cons_append, acceptAll, acceptAll]
    cases r.accept a with
    | error e => rfl
    | ok s => exact ih s

theorem acceptAll_singleton (r : Reader) (a : String) : r.acceptAll [a] = r.accept a := by
  rw [acceptAll]
  cases r.accept a <;> rfl

theorem accept_long {a : String} {value : Option String} (hready : r.Ready)
    (hoption : slot.option? = some name) (ha : Argument.ofText a = .long name value) :
    r.accept a = r.acceptOption slot value := by
  rw [accept, hready.optionsGoOn, ha]
  simp [Slot.ofOption?_of_option? hoption]

theorem accept_plain {a : String} (hready : r.Ready) (hunseen : r.romSeen = false)
    (ha : StandsAlone a) :
    r.accept a =
      r.settle.map fun s => { s with romSeen := true, waiting := some (.rom, some a) } := by
  rw [accept, hready.optionsGoOn, Argument.ofText_of_standsAlone ha]
  cases hwaiting : r.waiting with
  | none => simp [acceptPlain, hunseen]
  | some w =>
    obtain ⟨slot, _ | text⟩ := w
    · exact absurd hwaiting (hready.complete slot)
    · simp [acceptPlain, hunseen]

/-- An option that waits for its value takes the next argument for it. -/
theorem accept_value {a : String} (hover : r.optionsOver = false)
    (hwaiting : r.waiting = some (slot, none)) (ha : StandsAlone a) :
    r.accept a = .ok { r with waiting := some (slot, some a) } := by
  have hgoesOn : ¬ r.optionsOver = true := by simp [hover]
  rw [accept, if_neg hgoesOn, Argument.ofText_of_standsAlone ha]
  simp only [hwaiting]

/-- What becomes of a settled reader that reads an item: a text that is an argument of its own waits
for the next argument. -/
def afterItem (s : Reader) (i : Item) : Except Refusal Reader :=
  match i.slot.option?, i.joined with
  | none, _ => .ok { s with romSeen := true, waiting := some (i.slot, some i.text) }
  | some _, false => .ok { s with waiting := some (i.slot, some i.text) }
  | some _, true => (s.given.take i.slot i.text).map fun given => { s with given }

theorem acceptAll_arguments {i : Item} (hready : r.Ready) (hlegible : i.Legible)
    (hunseen : i.slot = .rom → r.romSeen = false) :
    r.acceptAll i.arguments = r.settle.bind (·.afterItem i) := by
  -- What waits is settled at the first argument of the item, so that comes first in each case.
  obtain ⟨⟨slot, text⟩, joined⟩ := i
  unfold Item.Legible at hlegible
  cases hoption : slot.option? with
  | none =>
    obtain rfl : slot = .rom := Slot.option?_eq_none_iff.1 hoption
    have halone : StandsAlone text := hlegible List.mem_cons_self
    exact (acceptAll_singleton r text).trans (accept_plain hready (hunseen rfl) halone)
  | some name =>
    cases joined with
    | false =>
      have harguments : Item.arguments ⟨⟨slot, text⟩, false⟩ = ["--" ++ name, text] := by
        rw [Item.arguments, hoption]
      have halone : StandsAlone text := hlegible (by simp [harguments])
      rw [harguments, acceptAll, accept_long hready hoption (Argument.ofText_option hoption),
        acceptOption]
      cases hsettle : r.settle with
      | error e => rfl
      | ok s =>
        have hover : s.optionsOver = false := (settle_eq_ok hsettle).2.1.trans hready.optionsGoOn
        rw [Except.bind, afterItem, hoption]
        exact (acceptAll_singleton _ _).trans (accept_value hover rfl halone)
    | true =>
      have harguments :
          Item.arguments ⟨⟨slot, text⟩, true⟩ = ["--" ++ name ++ "=" ++ text] := by
        rw [Item.arguments, hoption]
      rw [harguments, acceptAll_singleton,
        accept_long hready hoption (Argument.ofText_option_joined hoption text), acceptOption]
      cases r.settle with
      | error e => rfl
      | ok s =>
        rw [Except.bind, afterItem, hoption]

theorem outcome_afterItem (hwaiting : s.waiting = none) (i : Item) :
    (s.afterItem i).bind outcome = s.given.take i.slot i.text := by
  unfold afterItem
  split
  · exact outcome_of_waiting rfl
  · exact outcome_of_waiting rfl
  · cases s.given.take i.slot i.text with
    | error e => rfl
    | ok g =>
      have hsettled : settle { s with given := g } = .ok { s with given := g } :=
        settle_of_waiting_eq_none hwaiting
      exact outcome_of_settle hsettled

/-- After an item a reader is between two items again. -/
theorem ready_afterItem {i : Item} {t : Reader} (hwaiting : s.waiting = none)
    (hover : s.optionsOver = false) (h : s.afterItem i = .ok t) :
    t.Ready ∧ t.romSeen = (decide (i.slot = .rom) || s.romSeen) := by
  unfold afterItem at h
  split at h
  · next hoption =>
    cases h
    exact ⟨⟨hover, by simp⟩, by simp [Slot.option?_eq_none_iff.1 hoption]⟩
  · next hoption _ =>
    cases h
    exact ⟨⟨hover, by simp⟩, by simp [Slot.ne_rom_of_option? hoption]⟩
  · next hoption _ =>
    cases htake : s.given.take i.slot i.text with
    | error e =>
      rw [htake] at h
      cases h
    | ok g =>
      rw [htake] at h
      cases h
      exact ⟨⟨hover, by simp [hwaiting]⟩, by simp [Slot.ne_rom_of_option? hoption]⟩

/-- Reading an item comes to taking in its entry, whenever that happens. -/
theorem outcome_acceptAll_arguments {i : Item} (hready : r.Ready) (hlegible : i.Legible)
    (hunseen : i.slot = .rom → r.romSeen = false) :
    (r.acceptAll i.arguments).bind outcome = i.toEntry.takeAfter r.outcome := by
  rw [acceptAll_arguments hready hlegible hunseen]
  cases hsettle : r.settle with
  | error e =>
    rw [takeAfter_outcome_of_error hsettle]
    rfl
  | ok s =>
    rw [takeAfter_outcome hsettle]
    exact outcome_afterItem (settle_eq_ok hsettle).1 i

theorem ready_of_acceptAll_arguments {i : Item} {t : Reader} (hready : r.Ready)
    (hlegible : i.Legible) (hunseen : i.slot = .rom → r.romSeen = false)
    (h : r.acceptAll i.arguments = .ok t) :
    t.Ready ∧ t.romSeen = (decide (i.slot = .rom) || r.romSeen) := by
  rw [acceptAll_arguments hready hlegible hunseen] at h
  cases hsettle : r.settle with
  | error e =>
    rw [hsettle] at h
    cases h
  | ok s =>
    rw [hsettle] at h
    obtain ⟨hwaiting, hover, hseen⟩ := settle_eq_ok hsettle
    rw [← hseen]
    exact ready_afterItem hwaiting (hover.trans hready.optionsGoOn) h

/-- However values wait for what comes after them, reading items comes to taking in their entries
one after the other. -/
theorem outcome_acceptAll_flatMap {items : List Item} (hready : r.Ready)
    (hlegible : ∀ i ∈ items, i.Legible)
    (hone : (items.map Item.toEntry).countP (·.slot = .rom) + r.romSeen.toNat ≤ 1) :
    (r.acceptAll (items.flatMap Item.arguments)).bind outcome =
      takeAll r.outcome (items.map Item.toEntry) := by
  -- A refusal may show only with the next item, so it is the outcomes that are compared: in these
  -- the value that waits has been taken in already.
  induction items generalizing r with
  | nil => rfl
  | cons i items ih =>
    have hi : i.Legible := hlegible i List.mem_cons_self
    rw [List.map_cons, List.countP_cons] at hone
    have hunseen : i.slot = .rom → r.romSeen = false := by
      intro hslot
      rw [if_pos (decide_eq_true hslot)] at hone
      exact Bool.toNat_eq_zero.1 (by omega)
    have hstep := outcome_acceptAll_arguments hready hi hunseen
    rw [List.flatMap_cons, acceptAll_append, List.map_cons, takeAll_cons, ← hstep]
    cases hread : r.acceptAll i.arguments with
    | error e => exact (takeAll_error e _).symm
    | ok t =>
      obtain ⟨hready', hseen⟩ := ready_of_acceptAll_arguments hready hi hunseen hread
      refine ih hready' (fun j hj => hlegible j (List.mem_cons_of_mem i hj)) ?_
      rw [hseen]
      by_cases hslot : i.slot = .rom
      · rw [hunseen hslot, if_pos (decide_eq_true hslot)] at hone
        simp only [hslot, decide_true, Bool.true_or, Bool.toNat_true]
        omega
      · simp only [hslot, decide_false, Bool.false_or]
        omega

end Reader

theorem read_eq (args : List String) :
    read args = ((Reader.start.acceptAll args).bind Reader.outcome).bind Given.options := by
  rw [read]
  cases Reader.start.acceptAll args with
  | error e => rfl
  | ok r =>
    have houtcome : (Except.ok r).bind Reader.outcome = r.settle.map Reader.given := rfl
    rw [houtcome]
    cases hsettle : r.settle <;> simp [Except.bind, Except.map, hsettle]

/-- A command line that names one program at most is read entry by entry. -/
theorem read_flatMap_arguments {items : List Item} (hlegible : ∀ i ∈ items, i.Legible)
    (hone : (items.map Item.toEntry).countP (·.slot = .rom) ≤ 1) :
    read (items.flatMap Item.arguments) =
      (takeAll (.ok .nothing) (items.map Item.toEntry)).bind Given.options := by
  have hstart : Reader.start.Ready := ⟨rfl, fun slot => by simp [Reader.start]⟩
  rw [read_eq, Reader.outcome_acceptAll_flatMap hstart hlegible hone]
  rfl

end Chip8.CommandLine
