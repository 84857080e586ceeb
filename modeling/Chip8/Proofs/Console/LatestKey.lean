import Chip8.Proofs.Console.HeldKey
import Mathlib.Data.List.Induction

namespace Chip8

/-- An event of a key that is pressed, or held until it repeats, and that does not ask to leave. -/
def KeyEvent.Presses (e : KeyEvent) : Prop := ¬ e.AsksToLeave ∧ e.kind ≠ .release

/-- The press that a console remembers after an act, by the one that it remembered before. -/
def Act.pressAfter : Act → Option Press → Option Press
  | .key now e, p? => if e.quits then p? else (e.keypadKey?.map (⟨·, now⟩)).or p?
  | .expire now, p? => p?.filter (now - ·.since ≤ keyHold)
  | _, p? => p?

/-- Of the key events in a run of acts that count and are about a key of the keypad, the last is the
one that `p` tells of, and whenever keys have been let go since then its time was not up. -/
def Press.Stands (p : Press) (counts : KeyEvent → Prop) (as : List Act) : Prop :=
  ∃ before e after, as = before ++ .key p.since e :: after ∧
    counts e ∧ e.keypadKey? = some p.key ∧
    (∀ now e', .key now e' ∈ after → counts e' → e'.keypadKey? = none) ∧
    ∀ now, .expire now ∈ after → now - p.since ≤ keyHold

namespace Press

variable {p : Press} {counts counts' : KeyEvent → Prop} {as : List Act} {a : Act}

theorem not_stands_nil : ¬ p.Stands counts [] := by
  rintro ⟨before, e, after, has, -⟩
  exact absurd has.symm (by simp)

/-- A press stands after one more act if that act is the press, or if it stood before and the act
is neither another press nor an expiry. -/
theorem stands_concat :
    p.Stands counts (as ++ [a]) ↔
      (∃ e, a = .key p.since e ∧ counts e ∧ e.keypadKey? = some p.key) ∨
      (p.Stands counts as ∧ (∀ now e, a = .key now e → counts e → e.keypadKey? = none) ∧
        ∀ now, a = .expire now → now - p.since ≤ keyHold) := by
  constructor
  · rintro ⟨before, e, after, has, hcounts, hkey, hkeys, hexpired⟩
    rcases List.eq_nil_or_concat after with rfl | ⟨after, a', rfl⟩
    · obtain ⟨rfl, rfl⟩ := List.append_singleton_inj.1 has
      exact .inl ⟨e, rfl, hcounts, hkey⟩
    · rw [List.concat_eq_append, ← List.cons_append, ← List.append_assoc] at has
      obtain ⟨rfl, rfl⟩ := List.append_singleton_inj.1 has
      refine .inr ⟨⟨before, e, after, rfl, hcounts, hkey, ?_, ?_⟩, ?_, ?_⟩
      · exact fun now e' hmem => hkeys now e' (by simp [hmem])
      · exact fun now hmem => hexpired now (by simp [hmem])
      · exact fun now e' ha => hkeys now e' (by simp [ha])
      · exact fun now ha => hexpired now (by simp [ha])
  · rintro (⟨e, rfl, hcounts, hkey⟩ | ⟨⟨before, e, after, rfl, hcounts, hkey, hkeys, hexpired⟩,
      hother, hspared⟩)
    · exact ⟨as, e, [], rfl, hcounts, hkey, by simp, by simp⟩
    · refine ⟨before, e, after ++ [a], by simp, hcounts, hkey, fun now e' hmem => ?_,
        fun now hmem => ?_⟩
      · rcases List.mem_append.1 hmem with hmem | hmem
        · exact hkeys now e' hmem
        · exact hother now e' (List.mem_singleton.1 hmem).symm
      · rcases List.mem_append.1 hmem with hmem | hmem
        · exact hexpired now hmem
        · exact hspared now (List.mem_singleton.1 hmem).symm

/-- Which events count matters for those about a key of the keypad only. -/
theorem stands_congr
    (h : ∀ now e, .key now e ∈ as → e.keypadKey? ≠ none → (counts e ↔ counts' e)) :
    p.Stands counts as ↔ p.Stands counts' as := by
  have hone {counts counts' : KeyEvent → Prop}
      (h : ∀ now e, .key now e ∈ as → e.keypadKey? ≠ none → (counts e ↔ counts' e))
      (hstands : p.Stands counts as) : p.Stands counts' as := by
    obtain ⟨before, e, after, rfl, hcounts, hkey, hkeys, hexpired⟩ := hstands
    refine ⟨before, e, after, rfl, ?_, hkey, fun now e' hmem hcounts' => ?_, hexpired⟩
    · exact (h p.since e (by simp) (by simp [hkey])).1 hcounts
    · by_cases hnone : e'.keypadKey? = none
      · exact hnone
      · exact hkeys now e' hmem ((h now e' (by simp [hmem]) hnone).2 hcounts')
  exact ⟨hone h, hone fun now e hmem hsome => (h now e hmem hsome).symm⟩

end Press

namespace Act

variable {p : Press} {as : List Act}

/-- What a console remembers after an act is that act's press, or what it remembered before. -/
theorem pressAfter_eq_some {a : Act} {p? : Option Press} :
    a.pressAfter p? = some p ↔
      (∃ e, a = .key p.since e ∧ ¬ e.AsksToLeave ∧ e.keypadKey? = some p.key) ∨
      (p? = some p ∧ (∀ now e, a = .key now e → ¬ e.AsksToLeave → e.keypadKey? = none) ∧
        ∀ now, a = .expire now → now - p.since ≤ keyHold) := by
  cases a with
  | key now e =>
    have hquits : ¬ e.AsksToLeave ↔ ¬ e.quits = true := not_congr KeyEvent.quits_iff.symm
    by_cases hleaves : e.quits = true
    · simp [pressAfter, hquits, hleaves]
    · cases hkey : e.keypadKey? with
      | none => simp [pressAfter, hkey]
      | some k =>
        simp only [pressAfter, if_neg hleaves, hkey, Option.map_some, Option.some_or]
        constructor
        · rintro ⟨rfl⟩
          exact .inl ⟨e, rfl, hquits.2 hleaves, hkey⟩
        · rintro (⟨e', ⟨rfl⟩, -, hkey'⟩ | ⟨-, hother, -⟩)
          · rw [Option.some.inj (hkey.symm.trans hkey')]
          · exact absurd (hkey.symm.trans (hother now e rfl (hquits.2 hleaves))) (by simp)
  | expire now => simp [pressAfter, Option.filter_eq_some_iff]
  | update dt => simp [pressAfter]
  | step => simp [pressAfter]
  | pause => simp [pressAfter]
  | status s => simp [pressAfter]

/-- What a console remembers after a run of acts is the press that stands. -/
theorem foldl_pressAfter_eq_some {as : List Act} :
    as.foldl (fun p? a => a.pressAfter p?) none = some p ↔ p.Stands (¬ ·.AsksToLeave) as := by
  -- over the acts from the last one back, as each is taken in after those before it
  induction as using List.reverseRecOn generalizing p with
  | nil => simp [Press.not_stands_nil]
  | append_singleton as a ih =>
    rw [List.foldl_append, List.foldl_cons, List.foldl_nil, pressAfter_eq_some, ih,
      Press.stands_concat]

end Act

namespace Console

variable {c c' : Console} {a : Act} {as : List Act} {now : Instant} {e : KeyEvent}

/-- An event of a key of the keypad presses it, unless the event asks to leave. -/
theorem handleKey_of_keypad {k : Nibble} (hstays : ¬ e.AsksToLeave) (hkey : e.keypadKey? = some k)
    (c : Console) (now : Instant) : c.handleKey now e = c.pressKey now k := by
  have hpauses : ¬ e.pauses = true := by
    intro hpauses
    rw [KeyEvent.keypadKey?_of_space (KeyEvent.pauses_iff.1 hpauses).1] at hkey
    cases hkey
  rw [handleKey, if_neg (mt KeyEvent.quits_iff.1 hstays), if_neg hpauses, hkey]

/-- An event that asks to leave, or that is about no key of the keypad, presses nothing. -/
theorem handleKey_of_other (h : e.AsksToLeave ∨ e.keypadKey? = none) (c : Console)
    (now : Instant) :
    (c.handleKey now e).press = c.press ∧ (c.handleKey now e).machine.key = c.machine.key := by
  unfold handleKey
  split
  · exact ⟨rfl, rfl⟩
  · next hstays =>
    rw [h.resolve_left (mt KeyEvent.quits_iff.2 hstays)]
    split
    · exact ⟨rfl, congrArg Machine.key c.machine_togglePause⟩
    · exact ⟨rfl, rfl⟩

/-- What the console remembers goes by the acts alone. -/
theorem Turn.press_eq (h : c.Turn a c') : c'.press = a.pressAfter c.press := by
  cases h with
  | key now e =>
    rw [Act.pressAfter]
    by_cases hleaves : e.AsksToLeave
    · rw [if_pos (KeyEvent.quits_iff.2 hleaves), (handleKey_of_other (.inl hleaves) c now).1]
    · rw [if_neg (mt KeyEvent.quits_iff.1 hleaves)]
      cases hkey : e.keypadKey? with
      | none => exact (handleKey_of_other (.inr hkey) c now).1
      | some k => rw [handleKey_of_keypad hleaves hkey]; rfl
  | expire now =>
    rw [Act.pressAfter, expireKey]
    cases hpress : c.press with
    | none => exact hpress
    | some p =>
      by_cases hup : keyHold < now - p.since
      · rw [Option.filter_some, if_neg (by simpa using Nat.not_le.2 hup)]
        simp only [if_pos hup]
        rfl
      · rw [Option.filter_some, if_pos (by simpa using Nat.le_of_not_lt hup)]
        simp only [if_neg hup, hpress]
  | update hupdate =>
    obtain ⟨clocked, -, rfl⟩ := update_eq_some hupdate
    rfl
  | step => rfl
  | pause => rfl
  | status s => rfl

theorem Turns.press_eq (h : c.Turns as c') :
    c'.press = as.foldl (fun p? a => a.pressAfter p?) c.press := by
  induction h with
  | nil c => rfl
  | cons hturn _ ih => rw [ih, hturn.press_eq, List.foldl_cons]

/-- From the start of a console, what it remembers is the press that stands. -/
theorem Turns.press_eq_some {m : Machine} {rate : Binary32} {p : Press}
    (h : (start m rate).Turns as c) : c.press = some p ↔ p.Stands (¬ ·.AsksToLeave) as := by
  rw [h.press_eq]
  exact Act.foldl_pressAfter_eq_some

/-- The machine's key is that of the press that stands, and zero if none does. -/
def HoldsLatest (c : Console) (counts : KeyEvent → Prop) (as : List Act) : Prop :=
  (∀ p : Press, p.Stands counts as → c.machine.key.toNat = p.key.val) ∧
  ((∀ p : Press, ¬ p.Stands counts as) → c.machine.key = 0)

theorem HoldsLatest.congr {counts counts' : KeyEvent → Prop} (h : c.HoldsLatest counts as)
    (hsame : ∀ now e, .key now e ∈ as → e.keypadKey? ≠ none → (counts e ↔ counts' e)) :
    c.HoldsLatest counts' as := by
  have hstands (p : Press) : p.Stands counts as ↔ p.Stands counts' as := Press.stands_congr hsame
  exact ⟨fun p hp => h.1 p ((hstands p).2 hp),
    fun hnone => h.2 fun p hp => hnone p ((hstands p).1 hp)⟩

/-- From the start of a console its machine is told of the latest event, whatever its kind. -/
theorem Turns.holdsLatest {m : Machine} {rate : Binary32} (hkey : m.key = 0)
    (h : (start m rate).Turns as c) : c.HoldsLatest (¬ ·.AsksToLeave) as := by
  have hstep : c.machine.key = (c.press.map (·.key.toByte)).getD 0 := h.inStep hkey
  refine ⟨fun p hp => ?_, fun hnone => ?_⟩
  · rw [hstep, h.press_eq_some.2 hp]
    exact p.key.toNat_toByte
  · have hpress : c.press = none :=
      Option.eq_none_iff_forall_ne_some.2 fun p hp => hnone p (h.press_eq_some.1 hp)
    rw [hstep, hpress]
    rfl

/-- No event of a key that is let go pauses a console, makes it go on or changes its status. -/
theorem handleKey_of_release (hrelease : e.kind = .release) (c : Console) (now : Instant) :
    (c.handleKey now e).clocked.paused = c.clocked.paused ∧
    (c.handleKey now e).status = c.status := by
  have hpauses : ¬ e.pauses = true := by
    intro hpauses
    rw [(KeyEvent.pauses_iff.1 hpauses).2] at hrelease
    cases hrelease
  rw [handleKey, if_neg hpauses]
  split
  · exact ⟨rfl, rfl⟩
  · split <;> exact ⟨rfl, rfl⟩

/-- The machine's key is that of the latest event of a key of the keypad, other than `c` with
control, whose time was not up when keys were let go since, and zero if there is none. Whether the
key was pressed or let go does not matter there, as an event of a key that is let go starts a press
too: only a run without such events leaves the latest key that was pressed or repeated. An event of
any other key that is let go changes neither the press nor the machine's key, and none pauses the
console, makes it go on or changes its status. -/
theorem latest_key_event_held {m : Machine} {rate : Binary32} (hkey : m.key = 0)
    (hturns : (start m rate).Turns as c) :
    c.HoldsLatest (¬ ·.AsksToLeave) as ∧
    ((∀ now e, .key now e ∈ as → e.kind = .release → e.AsksToLeave ∨ e.keypadKey? = none) →
      c.HoldsLatest KeyEvent.Presses as) ∧
    ∀ now e, e.kind = .release →
      (∀ k, ¬ e.AsksToLeave → e.keypadKey? = some k →
        (c.handleKey now e).press = some ⟨k, now⟩ ∧
        (c.handleKey now e).machine.key.toNat = k.val) ∧
      (e.AsksToLeave ∨ e.keypadKey? = none →
        (c.handleKey now e).press = c.press ∧
        (c.handleKey now e).machine.key = c.machine.key) ∧
      (c.handleKey now e).clocked.paused = c.clocked.paused ∧
      (c.handleKey now e).status = c.status := by
  have hlatest : c.HoldsLatest (¬ ·.AsksToLeave) as := hturns.holdsLatest hkey
  refine ⟨hlatest, fun hreleases => ?_, fun now e hrelease => ?_⟩
  · refine hlatest.congr fun now e hmem hsome => ?_
    have hkind : ¬ e.AsksToLeave → e.kind ≠ .release := fun hstays hrelease =>
      (hreleases now e hmem hrelease).elim hstays hsome
    exact ⟨fun hstays => ⟨hstays, hkind hstays⟩, And.left⟩
  · refine ⟨fun k hstays hkey => ?_, fun hother => ?_, handleKey_of_release hrelease c now⟩
    · rw [handleKey_of_keypad hstays hkey]
      exact ⟨rfl, k.toNat_toByte⟩
    · exact handleKey_of_other hother c now

/-- After `w` has been pressed it is what the machine hears of, until `q` is let go: that is the key
that it hears of from then on. The space key being let go makes no difference. -/
theorem latest_key_event_held_let_go :
    ∃ m c c', Machine.boot #[0x12, 0x00] .compliant (.cycling #[]) = .ok m ∧
      (start m standardRate).Turns
        [.key 0 ⟨.char 'w', ⟨false, false, false⟩, .press⟩, .step] c ∧
      (start m standardRate).Turns
        [.key 0 ⟨.char 'w', ⟨false, false, false⟩, .press⟩, .step,
          .key 9 ⟨.char 'q', ⟨false, false, false⟩, .release⟩, .expire 20] c' ∧
      c.machine.key.toNat = 5 ∧ c'.machine.key.toNat = 4 ∧
      (c'.handleKey 30 ⟨.char ' ', ⟨false, false, false⟩, .release⟩).machine.key.toNat = 4 := by
  obtain ⟨m, hm⟩ : ∃ m, Machine.boot #[0x12, 0x00] .compliant (.cycling #[]) = .ok m :=
    Machine.exists_boot (by decide) _ _
  have hkey : m.key = 0 := by
    obtain ⟨ram, -, rfl⟩ := Machine.boot_eq_ok hm
    rfl
  have hpressed : (start m standardRate).Turns _ _ :=
    .cons (.key 0 ⟨.char 'w', ⟨false, false, false⟩, .press⟩) <| .cons .step (.nil _)
  have hturns : (start m standardRate).Turns _ _ :=
    .cons (.key 0 ⟨.char 'w', ⟨false, false, false⟩, .press⟩) <| .cons .step <|
      .cons (.key 9 ⟨.char 'q', ⟨false, false, false⟩, .release⟩) <| .cons (.expire 20) (.nil _)
  have hstands : Press.Stands ⟨5, 0⟩ KeyEvent.Presses _ :=
    ⟨[], ⟨.char 'w', ⟨false, false, false⟩, .press⟩, [.step], rfl,
      by simp [KeyEvent.Presses, KeyEvent.AsksToLeave], by decide +kernel, by simp, by simp⟩
  have hstands' : Press.Stands ⟨4, 9⟩ (¬ ·.AsksToLeave) _ :=
    ⟨[.key 0 ⟨.char 'w', ⟨false, false, false⟩, .press⟩, .step],
      ⟨.char 'q', ⟨false, false, false⟩, .release⟩, [.expire 20], rfl,
      by simp [KeyEvent.AsksToLeave], by decide +kernel, by simp, by simp [keyHold]⟩
  obtain ⟨-, hlatest, -⟩ := latest_key_event_held hkey hpressed
  obtain ⟨hlatest', -, hrelease⟩ := latest_key_event_held hkey hturns
  have hspace := (hrelease 30 ⟨.char ' ', ⟨false, false, false⟩, .release⟩ rfl).2.1
    (.inr (KeyEvent.keypadKey?_of_space rfl))
  have hfour := hlatest'.1 _ hstands'
  exact ⟨m, _, _, hm, hpressed, hturns, (hlatest (by simp)).1 _ hstands, hfour,
    hspace.2 ▸ hfour⟩

/-- Nothing but `w` being let go makes a machine hear that its key is held. -/
theorem not_holdsLatest_of_let_go :
    ∃ m c, Machine.boot #[0x12, 0x00] .compliant (.cycling #[]) = .ok m ∧
      (start m standardRate).Turns [.key 0 ⟨.char 'w', ⟨false, false, false⟩, .release⟩] c ∧
      c.machine.key.toNat = 5 ∧ ¬ c.HoldsLatest KeyEvent.Presses
        [.key 0 ⟨.char 'w', ⟨false, false, false⟩, .release⟩] := by
  obtain ⟨m, hm⟩ : ∃ m, Machine.boot #[0x12, 0x00] .compliant (.cycling #[]) = .ok m :=
    Machine.exists_boot (by decide) _ _
  have hkey : ((start m standardRate).handleKey 0
      ⟨.char 'w', ⟨false, false, false⟩, .release⟩).machine.key = Nibble.toByte 5 := by
    rw [handleKey_of_keypad (by simp [KeyEvent.AsksToLeave]) (k := 5) (by decide +kernel)]
    rfl
  refine ⟨m, _, hm, .cons (.key 0 _) (.nil _), congrArg UInt8.toNat hkey, fun hlatest => ?_⟩
  have hnone (p : Press) : ¬ p.Stands KeyEvent.Presses
      [.key 0 ⟨.char 'w', ⟨false, false, false⟩, .release⟩] := by
    intro hstands
    rcases Press.stands_concat.1 (by rwa [List.nil_append]) with hpress | ⟨hbefore, -⟩
    · obtain ⟨e, hact, ⟨-, hkind⟩, -⟩ := hpress
      rw [← (Act.key.inj hact).2] at hkind
      exact hkind rfl
    · exact Press.not_stands_nil hbefore
  rw [hlatest.2 hnone] at hkey
  exact absurd hkey (by decide)

end Console

end Chip8
