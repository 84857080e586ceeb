import Chip8.Proofs.CommandLine.Reader
import Chip8.Proofs.Text.Numeral
import Mathlib.Data.List.Perm.Basic

namespace Chip8.CommandLine

/-- A value, with the slot that it goes to. -/
inductive Value
  | rom (path : String)
  | profile (p : Profile)
  | rate (rate : Binary32)
  | seed (seed : UInt64)
  | logFile (path : String)

/-- The slot of a value. -/
def Value.slot : Value → Slot
  | rom _ => .rom
  | profile _ => .profile
  | rate _ => .rate
  | seed _ => .seed
  | logFile _ => .logFile

namespace Given

/-- Puts a value into its slot. -/
def set (g : Given) : Value → Given
  | .rom path => { g with rom := some path }
  | .profile p => { g with profile := some p }
  | .rate rate => { g with rate := some rate }
  | .seed seed => { g with seed := some seed }
  | .logFile path => { g with logFile := some path }

theorem has_set (g : Given) (v : Value) (slot : Slot) :
    (g.set v).has slot = (decide (slot = v.slot) || g.has slot) := by
  cases v <;> cases slot <;> rfl

theorem set_comm {v w : Value} (h : v.slot ≠ w.slot) (g : Given) :
    (g.set v).set w = (g.set w).set v := by
  cases v <;> cases w <;> first | rfl | exact absurd rfl h

end Given

/-- The texts that a slot takes. -/
def Slot.Accepts : Slot → String → Prop
  | .rom, s => s ≠ ""
  | .profile, s => ∃ p : Profile, s = p.name
  | .rate, s => ∃ rate, Binary32.read? s = some rate
  | .seed, s => ∃ seed, readSeed? s = some seed
  | .logFile, s => s ≠ ""

namespace Entry

variable {e f : Entry} {v w : Value}

/-- What an entry puts into its slot, if that is free. -/
structure Yields (e : Entry) (v : Value) : Prop where
  slot_eq : v.slot = e.slot
  put_eq : ∀ g : Given, g.put e.slot e.text = .ok (g.set v)

theorem yields_profile (p : Profile) : Yields ⟨.profile, p.name⟩ (.profile p) := by
  refine ⟨rfl, fun g => ?_⟩
  cases p <;> rfl

theorem yields_seed {s : String} {seed : UInt64} (h : readSeed? s = some seed) :
    Yields ⟨.seed, s⟩ (.seed seed) := by
  refine ⟨rfl, fun g => ?_⟩
  rw [Given.put, h]
  rfl

theorem yields_rom {path : String} (h : path ≠ "") : Yields ⟨.rom, path⟩ (.rom path) :=
  ⟨rfl, fun _ => if_neg h⟩

theorem yields_logFile {path : String} (h : path ≠ "") :
    Yields ⟨.logFile, path⟩ (.logFile path) :=
  ⟨rfl, fun _ => if_neg h⟩

theorem exists_yields (h : e.slot.Accepts e.text) : ∃ v, e.Yields v := by
  obtain ⟨slot, text⟩ := e
  cases slot with
  | rom => exact ⟨_, yields_rom h⟩
  | profile =>
    obtain ⟨p, rfl⟩ : ∃ p : Profile, text = p.name := h
    exact ⟨_, yields_profile p⟩
  | rate =>
    obtain ⟨rate, hrate⟩ : ∃ rate, Binary32.read? text = some rate := h
    refine ⟨.rate rate, rfl, fun g => ?_⟩
    rw [Given.put, hrate]
    rfl
  | seed =>
    obtain ⟨seed, hseed⟩ : ∃ seed, readSeed? text = some seed := h
    exact ⟨_, yields_seed hseed⟩
  | logFile => exact ⟨_, yields_logFile h⟩

theorem takeAfter_of_has {g : Given} (h : g.has e.slot = true) :
    e.takeAfter (.ok g) = .error .repeatedOption :=
  if_pos h

theorem Yields.takeAfter_of_free (hyields : e.Yields v) {g : Given} (h : g.has e.slot = false) :
    e.takeAfter (.ok g) = .ok (g.set v) :=
  (if_neg (by simp [h])).trans (hyields.put_eq g)

/-- A slot that has its value refuses another, even if an entry comes in between. -/
theorem Yields.takeAfter_takeAfter_of_has (hf : f.Yields w) {g : Given}
    (h : g.has e.slot = true) :
    e.takeAfter (f.takeAfter (.ok g)) = .error .repeatedOption := by
  cases hfree : g.has f.slot with
  | true =>
    rw [takeAfter_of_has hfree]
    rfl
  | false =>
    rw [hf.takeAfter_of_free hfree]
    exact takeAfter_of_has (by rw [Given.has_set, h, Bool.or_true])

/-- Entries whose texts their slots take may change places. -/
theorem Yields.takeAfter_comm (he : e.Yields v) (hf : f.Yields w)
    (taken : Except Refusal Given) :
    f.takeAfter (e.takeAfter taken) = e.takeAfter (f.takeAfter taken) := by
  cases taken with
  | error r => rfl
  | ok g =>
    -- A slot that has its value refuses its entry in either order, and for the same reason.
    cases hefree : g.has e.slot with
    | true =>
      rw [hf.takeAfter_takeAfter_of_has hefree, takeAfter_of_has hefree]
      rfl
    | false =>
      cases hffree : g.has f.slot with
      | true =>
        rw [he.takeAfter_takeAfter_of_has hffree, takeAfter_of_has hffree]
        rfl
      | false =>
        rw [he.takeAfter_of_free hefree, hf.takeAfter_of_free hffree]
        by_cases hslot : e.slot = f.slot
        · have hehas : (g.set w).has e.slot = true := by simp [Given.has_set, hf.slot_eq, hslot]
          have hfhas : (g.set v).has f.slot = true := by simp [Given.has_set, he.slot_eq, hslot]
          rw [takeAfter_of_has hehas, takeAfter_of_has hfhas]
        · have hefree' : (g.set w).has e.slot = false := by
            simp [Given.has_set, hf.slot_eq, hslot, hefree]
          have hffree' : (g.set v).has f.slot = false := by
            simp [Given.has_set, he.slot_eq, Ne.symm hslot, hffree]
          have hne : v.slot ≠ w.slot := by rwa [he.slot_eq, hf.slot_eq]
          rw [he.takeAfter_of_free hefree', hf.takeAfter_of_free hffree', Given.set_comm hne]

end Entry

/-- Entries whose texts their slots take come to the same in any order. Among others it is the first
refusal that counts. -/
theorem takeAll_perm {es fs : List Entry} (hperm : es.Perm fs)
    (haccepts : ∀ e ∈ es, e.slot.Accepts e.text) (taken : Except Refusal Given) :
    takeAll taken es = takeAll taken fs := by
  refine hperm.foldl_eq' (fun e he f hf taken => ?_) taken
  obtain ⟨v, hv⟩ := Entry.exists_yields (haccepts e he)
  obtain ⟨w, hw⟩ := Entry.exists_yields (haccepts f hf)
  exact hv.takeAfter_comm hw taken

/-- A value that may be given is taken in if its slot is free. -/
theorem takeAll_toList {α : Type} {entry : α → Entry} {value : α → Value}
    (after : Option α → Given) (hyields : ∀ a, (entry a).Yields (value a))
    (hfree : ∀ a, (after none).has (entry a).slot = false)
    (hsome : ∀ a, after (some a) = (after none).set (value a)) (o : Option α) :
    takeAll (.ok (after none)) (o.map entry).toList = .ok (after o) := by
  cases o with
  | none => rfl
  | some a => exact ((hyields a).takeAfter_of_free (hfree a)).trans (congrArg _ (hsome a).symm)

/-- A path that can be an argument of its own. -/
structure PathText where
  text : String
  ne_empty : text ≠ ""
  standsAlone : StandsAlone text

/-- A seed, and a text that writes it. -/
structure SeedText where
  text : String
  seed : UInt64
  written : WritesSeed text seed

/-- What a command line is to say: the program, and the options that are chosen. -/
structure Selection where
  program : PathText
  profile : Option Profile
  seed : Option SeedText
  logFile : Option PathText

namespace Selection

variable {q : Selection} {e : Entry}

/-- The entries of the chosen options. -/
def choices (q : Selection) : List Entry :=
  (q.profile.map fun p => ⟨.profile, p.name⟩).toList ++
    (q.seed.map fun s => ⟨.seed, s.text⟩).toList ++
    (q.logFile.map fun path => ⟨.logFile, path.text⟩).toList

/-- The entries of the chosen options and of the program. -/
def entries (q : Selection) : List Entry := ⟨.rom, q.program.text⟩ :: q.choices

/-- Whether items say what a selection asks for, in whatever order and each in whatever way. -/
def Arranges (q : Selection) (items : List Item) : Prop :=
  (items.map Item.toEntry).Perm q.entries

/-- The options that a selection asks for. -/
def options (q : Selection) : Options :=
  { rom := q.program.text
    profile := q.profile.getD .legacy
    rate := .ofNat 500
    seed := q.seed.map SeedText.seed
    logFile := q.logFile.map PathText.text }

/-- The values that a selection gives. -/
def given (q : Selection) : Given :=
  { rom := some q.program.text
    profile := q.profile
    rate := none
    seed := q.seed.map SeedText.seed
    logFile := q.logFile.map PathText.text }

theorem mem_choices :
    e ∈ q.choices ↔ (∃ p, q.profile = some p ∧ ⟨.profile, p.name⟩ = e) ∨
      (∃ s, q.seed = some s ∧ ⟨.seed, s.text⟩ = e) ∨
      ∃ path, q.logFile = some path ∧ ⟨.logFile, path.text⟩ = e := by
  simp only [choices, List.mem_append, Option.mem_toList, Option.map_eq_some_iff, or_assoc]

theorem accepts_of_mem_entries (h : e ∈ q.entries) : e.slot.Accepts e.text := by
  rcases List.mem_cons.1 h with rfl | h
  · exact q.program.ne_empty
  · obtain ⟨p, -, rfl⟩ | ⟨s, -, rfl⟩ | ⟨path, -, rfl⟩ := mem_choices.1 h
    · exact ⟨p, rfl⟩
    · exact ⟨s.seed, s.written.readSeed?_eq⟩
    · exact path.ne_empty

theorem standsAlone_of_mem_entries (h : e ∈ q.entries) : StandsAlone e.text := by
  rcases List.mem_cons.1 h with rfl | h
  · exact q.program.standsAlone
  · obtain ⟨p, -, rfl⟩ | ⟨s, -, rfl⟩ | ⟨path, -, rfl⟩ := mem_choices.1 h
    · cases p <;> decide
    · exact standsAlone_of_head?_ne s.written.head?_ne
    · exact path.standsAlone

theorem has_given_of_mem_choices (h : e ∈ q.choices) : q.given.has e.slot = true := by
  obtain ⟨p, hp, rfl⟩ | ⟨s, hs, rfl⟩ | ⟨path, hpath, rfl⟩ := mem_choices.1 h
  · simp [given, Given.has, hp]
  · simp [given, Given.has, hs]
  · simp [given, Given.has, hpath]

theorem slot_ne_rom_of_mem_choices (h : e ∈ q.choices) : e.slot ≠ .rom := by
  obtain ⟨p, -, rfl⟩ | ⟨s, -, rfl⟩ | ⟨path, -, rfl⟩ := mem_choices.1 h <;> simp

theorem countP_entries (q : Selection) : q.entries.countP (·.slot = .rom) = 1 := by
  have hnone : q.choices.countP (·.slot = .rom) = 0 :=
    List.countP_eq_zero.2 fun e he => by simpa using slot_ne_rom_of_mem_choices he
  rw [entries, List.countP_cons, hnone]
  rfl

theorem takeAll_entries (q : Selection) : takeAll (.ok .nothing) q.entries = .ok q.given := by
  -- Slot by slot, each of them free until its entry comes.
  have hprogram := (Entry.yields_rom q.program.ne_empty).takeAfter_of_free (g := .nothing) rfl
  have hprofile := takeAll_toList (fun p => ⟨some q.program.text, p, none, none, none⟩)
    Entry.yields_profile (fun _ => rfl) (fun _ => rfl) q.profile
  have hseed := takeAll_toList
    (fun s => ⟨some q.program.text, q.profile, none, s.map SeedText.seed, none⟩)
    (fun s => Entry.yields_seed s.written.readSeed?_eq) (fun _ => rfl) (fun _ => rfl) q.seed
  have hlogFile := takeAll_toList
    (fun path => { q.given with logFile := path.map PathText.text })
    (fun path => Entry.yields_logFile path.ne_empty) (fun _ => rfl) (fun _ => rfl) q.logFile
  rw [entries, takeAll_cons, hprogram, choices, takeAll_append, takeAll_append]
  refine (congrArg (takeAll · _) ?_).trans hlogFile
  exact (congrArg (takeAll · _) hprofile).trans hseed

variable {items before after : List Item} {again : Item}

theorem Arranges.legible (h : q.Arranges items) : ∀ i ∈ items, i.Legible := fun _ hi _ =>
  standsAlone_of_mem_entries (h.mem_iff.1 (List.mem_map_of_mem hi))

/-- An item that is put in anywhere may as well come last. -/
theorem Arranges.insert (h : q.Arranges (before ++ after)) (again : Item) :
    ((before ++ again :: after).map Item.toEntry).Perm (q.entries ++ [again.toEntry]) :=
  calc
    List.Perm ((before ++ again :: after).map Item.toEntry)
        (again.toEntry :: (before ++ after).map Item.toEntry) := List.perm_middle.map Item.toEntry
    List.Perm _ (again.toEntry :: q.entries) := h.cons again.toEntry
    List.Perm _ (q.entries ++ [again.toEntry]) := (List.perm_append_singleton _ _).symm

theorem Arranges.legible_insert (h : q.Arranges (before ++ after)) (hagain : again.Legible) :
    ∀ i ∈ before ++ again :: after, i.Legible := by
  intro i hi
  rcases List.mem_cons.1 (List.perm_middle.mem_iff.1 hi) with rfl | hi
  · exact hagain
  · exact h.legible i hi

/-- A command line that says what a selection asks for, and more about the options, is read as if it
said the rest last. -/
theorem read_of_perm {es : List Entry}
    (hperm : (items.map Item.toEntry).Perm (q.entries ++ es))
    (hlegible : ∀ i ∈ items, i.Legible)
    (hrest : ∀ e ∈ es, e.slot ≠ .rom ∧ e.slot.Accepts e.text) :
    read (items.flatMap Item.arguments) = (takeAll (.ok q.given) es).bind Given.options := by
  have hnone : es.countP (·.slot = .rom) = 0 :=
    List.countP_eq_zero.2 fun e he => by simpa using (hrest e he).1
  have hone : (items.map Item.toEntry).countP (·.slot = .rom) = 1 := by
    rw [hperm.countP_eq, List.countP_append, countP_entries, hnone]
  have haccepts : ∀ e ∈ q.entries ++ es, e.slot.Accepts e.text := fun e he =>
    (List.mem_append.1 he).elim accepts_of_mem_entries fun h => (hrest e h).2
  rw [read_flatMap_arguments hlegible (Nat.le_of_eq hone), ← takeAll_perm hperm.symm haccepts,
    takeAll_append, takeAll_entries]

end Selection

/-- A command line that gives a program, and any of the profile, the seed and the log file, asks for
just these, whatever their order and whether each text is joined to its option or follows it. The
profile is the legacy one if none is chosen, and the rate is five hundred. If one of the chosen
options is given once more, anywhere and with a text that its slot takes, the command line is
refused for that. Every seed can be written in decimal and in hexadecimal. -/
theorem read_in_any_order :
    (∀ (q : Selection) (items : List Item), q.Arranges items →
      read (items.flatMap Item.arguments) = .ok q.options) ∧
    (∀ (q : Selection) (before : List Item) (again : Item) (after : List Item),
      q.Arranges (before ++ after) → (∃ e ∈ q.choices, e.slot = again.slot) →
      again.slot.Accepts again.text → again.Legible →
      read ((before ++ again :: after).flatMap Item.arguments) = .error .repeatedOption) ∧
    ∀ seed : UInt64, WritesSeed (toString seed) seed ∧
      WritesSeed ("0x" ++ String.ofList (Nat.toDigits 16 seed.toNat)) seed := by
  refine ⟨fun q items harranges => ?_,
    fun q before again after harranges hchosen haccepts hagain => ?_,
    fun seed => ⟨writesSeed_toString seed, .hexadecimal (.toDigits (by decide) seed.toNat)⟩⟩
  · have hperm : (items.map Item.toEntry).Perm (q.entries ++ []) := by
      rwa [List.append_nil]
    exact Selection.read_of_perm hperm harranges.legible (by simp)
  · obtain ⟨e, he, hslot⟩ := hchosen
    have hrest : ∀ f ∈ [again.toEntry], f.slot ≠ .rom ∧ f.slot.Accepts f.text := by
      intro f hf
      obtain rfl := List.mem_singleton.1 hf
      exact ⟨hslot ▸ Selection.slot_ne_rom_of_mem_choices he, haccepts⟩
    have hhas : q.given.has again.slot = true := hslot ▸ Selection.has_given_of_mem_choices he
    have hrefused : takeAll (.ok q.given) [again.toEntry] = .error .repeatedOption :=
      Entry.takeAfter_of_has hhas
    rw [Selection.read_of_perm (harranges.insert again) (harranges.legible_insert hagain) hrest, hrefused]
    rfl

/-- A path that looks like a profile and an option, a seed with zeros in front and letters of both
kinds, and a log file with an equals sign; then the same with another log file between them. -/
theorem read_in_any_order_mixed :
    WritesSeed "0x00fF" 255 ∧
    read ["--seed", "0x00fF", "--log-file=a=b", "compliant seed=1", "--profile=compliant"] =
      .ok ⟨"compliant seed=1", .compliant, .ofNat 500, some 255, some "a=b"⟩ ∧
    read ["--seed", "0x00fF", "--log-file=a=b", "--log-file", "-", "compliant seed=1",
      "--profile=compliant"] = .error .repeatedOption := by
  have hzero : WritesNumber 16 ['0'] 0 := .digit (d := 0) (by decide) (.inl rfl)
  have hzeros : WritesNumber 16 ['0', '0'] 0 := hzero.append (d := 0) (by decide) (.inl rfl)
  have hsmall : WritesNumber 16 ['0', '0', 'f'] 15 := hzeros.append (d := 15) (by decide) (.inl rfl)
  have hdigits : WritesNumber 16 ['0', '0', 'f', 'F'] 255 :=
    hsmall.append (d := 15) (by decide) (.inr rfl)
  have hseed : WritesSeed ("0x" ++ String.ofList ['0', '0', 'f', 'F']) 255 := .hexadecimal hdigits
  let q : Selection :=
    ⟨⟨"compliant seed=1", by decide, by decide⟩, some .compliant, some ⟨"0x00fF", 255, hseed⟩,
      some ⟨"a=b", by decide, by decide⟩⟩
  let seed : Item := ⟨⟨.seed, "0x00fF"⟩, false⟩
  let logFile : Item := ⟨⟨.logFile, "a=b"⟩, true⟩
  let program : Item := ⟨⟨.rom, "compliant seed=1"⟩, false⟩
  let profile : Item := ⟨⟨.profile, "compliant"⟩, true⟩
  have hperm : [(⟨.seed, "0x00fF"⟩ : Entry), ⟨.logFile, "a=b"⟩, ⟨.rom, "compliant seed=1"⟩,
      ⟨.profile, "compliant"⟩].Perm [⟨.rom, "compliant seed=1"⟩, ⟨.profile, "compliant"⟩,
      ⟨.seed, "0x00fF"⟩, ⟨.logFile, "a=b"⟩] := by decide
  have harranges : q.Arranges ([seed, logFile] ++ [program, profile]) := hperm
  have hchosen : ∃ e ∈ q.choices, e.slot = .logFile :=
    ⟨_, Selection.mem_choices.2 (.inr (.inr ⟨_, rfl, rfl⟩)), rfl⟩
  have haccepts : Slot.Accepts .logFile "-" := show "-" ≠ "" by decide
  obtain ⟨hread, hrefuse, -⟩ := read_in_any_order
  exact ⟨hseed, hread q _ harranges,
    hrefuse q _ ⟨⟨.logFile, "-"⟩, false⟩ _ harranges hchosen haccepts fun _ => by decide⟩

end Chip8.CommandLine
