import Chip8.Console
import Chip8.Proofs.Machine.Clocks
import Chip8.Proofs.Machine.KeyWait

namespace Chip8

theorem Nibble.toNat_toByte (d : Nibble) : d.toByte.toNat = d.val :=
  UInt8.toNat_ofNat_of_lt' (Nat.lt_trans d.isLt (by decide))

/-- What can happen to a console. -/
inductive Act
  | key (now : Instant) (e : KeyEvent)
  | expire (now : Instant)
  | update (dt : Binary32)
  | step
  | pause
  | status (s : String)

/-- An event that asks to leave, by its parts. -/
def KeyEvent.AsksToLeave (e : KeyEvent) : Prop :=
  e.code = .escape ∨ e.code = .char 'c' ∧ e.modifiers.control = true

theorem KeyEvent.quits_iff {e : KeyEvent} : e.quits = true ↔ e.AsksToLeave := by
  simp [quits, AsksToLeave]

theorem KeyEvent.pauses_iff {e : KeyEvent} :
    e.pauses = true ↔ e.code = .char ' ' ∧ e.kind = .press := by
  simp [pauses]

/-- The space key is no key of the keypad. -/
theorem KeyEvent.keypadKey?_of_space {e : KeyEvent} (h : e.code = .char ' ') :
    e.keypadKey? = none := by
  have hspace : ' ' ∉ keypad.toArray := by simp [keypad]
  rw [keypadKey?, h]
  exact Option.map_eq_none_iff.2 (Array.finIdxOf?_eq_none_iff.2 hspace)

namespace ClockedMachine

variable {c c' : ClockedMachine}

/-- Time that passes does not bear on the key that is held. -/
theorem key_update {fuel : Nat} {dt : Binary32} {r : Except Fault Nat}
    (h : c.update fuel dt = some (r, c')) : c'.machine.key = c.machine.key := by
  cases hpaused : c.paused with
  | true =>
    rw [update, if_pos hpaused] at h
    cases h
    rfl
  | false =>
    have hkey (k n : Nat) :
        (c.machine.after (.replicate k .timer ++ .replicate n .tick)).key = c.machine.key := by
      have hnone (key : UInt8) : .key key ∉ List.replicate k Event.timer ++ .replicate n .tick := by
        simp [List.mem_replicate]
      rw [Machine.key_after, Machine.latestKey, Machine.keysSet_eq_nil hnone]
      rfl
    obtain ⟨k, -, n, -, hupdates⟩ := (update_eq_some_iff hpaused).1 h
    cases hupdates with
    | through => exact hkey k n
    | stopped => exact hkey k (n + 1)

theorem machine_togglePause (c : ClockedMachine) : c.togglePause.machine = c.machine := by
  unfold togglePause
  split <;> rfl

end ClockedMachine

namespace Console

/-- What an act makes of a console. An update makes nothing of it unless it comes to an end. -/
inductive Turn (c : Console) : Act → Console → Prop
  | key (now : Instant) (e : KeyEvent) : Turn c (.key now e) (c.handleKey now e)
  | expire (now : Instant) : Turn c (.expire now) (c.expireKey now)
  | update {fuel : Nat} {dt : Binary32} {r : Except Fault Nat} {c' : Console} :
    c.update fuel dt = some (r, c') → Turn c (.update dt) c'
  | step : Turn c .step c.step.2
  | pause : Turn c .pause c.pause
  | status (s : String) : Turn c (.status s) (c.setStatus s)

/-- What a run of acts makes of a console. -/
inductive Turns : Console → List Act → Console → Prop
  | nil (c : Console) : Turns c [] c
  | cons {c c' c'' : Console} {a : Act} {as : List Act} :
    c.Turn a c' → Turns c' as c'' → Turns c (a :: as) c''

variable {c c' : Console} {a : Act} {as : List Act} {fuel : Nat} {dt : Binary32}
  {r : Except Fault Nat}

theorem machine_togglePause (c : Console) : c.togglePause.machine = c.machine :=
  c.clocked.machine_togglePause

theorem handleKey_of_leaves {e : KeyEvent} (h : e.AsksToLeave) (c : Console) (now : Instant) :
    c.handleKey now e = { c with quit := true } :=
  if_pos (KeyEvent.quits_iff.2 h)

theorem quit_handleKey (c : Console) (now : Instant) (e : KeyEvent) :
    (c.handleKey now e).quit = true ↔ c.quit = true ∨ e.AsksToLeave := by
  by_cases hleaves : e.AsksToLeave
  · rw [handleKey_of_leaves hleaves]
    simp [hleaves]
  · have hkeeps : (c.handleKey now e).quit = c.quit := by
      rw [handleKey, if_neg (mt KeyEvent.quits_iff.1 hleaves)]
      split
      · rfl
      · split <;> rfl
    rw [hkeeps]
    simp [hleaves]

/-- The space key is no key of the keypad, whatever happens to it. -/
theorem handleKey_of_space {e : KeyEvent} (h : e.code = .char ' ') (c : Console) (now : Instant) :
    c.handleKey now e = if e.kind = .press then c.togglePause else c := by
  have hquits : ¬ e.quits = true := by
    rw [KeyEvent.quits_iff, KeyEvent.AsksToLeave, h]
    rintro (hcode | ⟨hcode, -⟩)
    · cases hcode
    · exact absurd hcode (by decide)
  rw [handleKey, if_neg hquits, KeyEvent.keypadKey?_of_space h]
  by_cases hkind : e.kind = .press
  · rw [if_pos (KeyEvent.pauses_iff.2 ⟨h, hkind⟩), if_pos hkind]
  · rw [if_neg fun hpauses => hkind (KeyEvent.pauses_iff.1 hpauses).2, if_neg hkind]

theorem update_eq_some (h : c.update fuel dt = some (r, c')) :
    ∃ clocked, c.clocked.update fuel dt = some (r, clocked) ∧ c' = { c with clocked } := by
  obtain ⟨s, hs, hsame⟩ := Option.map_eq_some_iff.1 h
  cases hsame
  exact ⟨s.2, hs, rfl⟩

/-- The three ways of an act with the keypad: it presses a key, it lets go of all, or it lets things
stand. The console and the machine always hear of it together. -/
inductive HeldRule (c c' : Console) : Prop
  | press (p : Press) : c'.press = some p → c'.machine.key = p.key.toByte → HeldRule c c'
  | release : c'.press = none → c'.machine.key = 0 → HeldRule c c'
  | keep : c'.press = c.press → c'.machine.key = c.machine.key → HeldRule c c'

theorem heldRule_handleKey (c : Console) (now : Instant) (e : KeyEvent) :
    c.HeldRule (c.handleKey now e) := by
  unfold handleKey
  split
  · exact .keep rfl rfl
  · split
    · exact .keep rfl (congrArg Machine.key c.machine_togglePause)
    · split
      · exact .press _ rfl rfl
      · exact .keep rfl rfl

theorem heldRule_expireKey (c : Console) (now : Instant) : c.HeldRule (c.expireKey now) := by
  unfold expireKey
  split
  · split
    · exact .release rfl rfl
    · exact .keep rfl rfl
  · exact .keep rfl rfl

theorem Turn.heldRule (h : c.Turn a c') : c.HeldRule c' := by
  cases h with
  | key now e => exact c.heldRule_handleKey now e
  | expire now => exact c.heldRule_expireKey now
  | update hupdate =>
    obtain ⟨clocked, hclocked, rfl⟩ := update_eq_some hupdate
    exact .keep rfl (ClockedMachine.key_update hclocked)
  | step => exact .keep rfl c.machine.key_tick
  | pause => exact .keep rfl rfl
  | status s => exact .keep rfl rfl

/-- The machine is told the key that the console remembers, or zero. -/
def InStep (c : Console) : Prop := c.machine.key = (c.press.map (·.key.toByte)).getD 0

theorem Turn.inStep (h : c.Turn a c') (hc : c.InStep) : c'.InStep := by
  unfold InStep at hc ⊢
  cases h.heldRule with
  | press p hpress hkey => rw [hpress, hkey]; rfl
  | release hpress hkey => rw [hpress, hkey]; rfl
  | keep hpress hkey => rw [hpress, hkey, hc]

theorem Turns.inStep (h : c.Turns as c') (hc : c.InStep) : c'.InStep := by
  induction h with
  | nil c => exact hc
  | cons hturn _ ih => exact ih (hturn.inStep hc)

theorem Turn.quit_iff (h : c.Turn a c') :
    c'.quit = true ↔ c.quit = true ∨ ∃ now e, a = .key now e ∧ e.AsksToLeave := by
  cases h with
  | key now e =>
    rw [quit_handleKey]
    refine or_congr_right ⟨fun he => ⟨now, e, rfl, he⟩, ?_⟩
    rintro ⟨now', e', hsame, he⟩
    cases hsame
    exact he
  | expire now =>
    have hkeeps : (c.expireKey now).quit = c.quit := by
      unfold expireKey
      split
      · split <;> rfl
      · rfl
    simp [hkeeps]
  | update hupdate =>
    obtain ⟨clocked, -, rfl⟩ := update_eq_some hupdate
    simp
  | step => simp [Console.step]
  | pause => simp [Console.pause]
  | status s => simp [setStatus]

theorem Turns.quit_iff (h : c.Turns as c') :
    c'.quit = true ↔ c.quit = true ∨ ∃ now e, .key now e ∈ as ∧ e.AsksToLeave := by
  induction h with
  | nil c => simp
  | cons hturn _ ih =>
    rw [ih, hturn.quit_iff, or_assoc]
    refine or_congr_right ⟨?_, ?_⟩
    · rintro (⟨now, e, rfl, he⟩ | ⟨now, e, hmem, he⟩)
      · exact ⟨now, e, List.mem_cons_self, he⟩
      · exact ⟨now, e, List.mem_cons_of_mem _ hmem, he⟩
    · rintro ⟨now, e, hmem, he⟩
      rcases List.mem_cons.1 hmem with hfirst | hrest
      · exact .inl ⟨now, e, hfirst.symm, he⟩
      · exact .inr ⟨now, e, hrest, he⟩

/-- The console and its machine never disagree about the key that is held. From the start of a
console, with a machine that has just been booted or any other that has been told of no key, the
machine's key is the one that the console remembers, and zero while it remembers none, whatever has
happened to the console. It is to be left exactly if some event has been the escape key or `c` with
control, which nothing takes back, and neither these events nor the space key bear on the key that
is held. -/
theorem held_key_in_step :
    (∀ program d source m, Machine.boot program d source = .ok m → m.key = 0) ∧
    (∀ m rate, m.key = 0 → ∀ as c, (start m rate).Turns as c →
      (∀ p, c.press = some p → c.machine.key.toNat = p.key.val ∧ c.machine.key.toNat ≤ 15) ∧
      (c.press = none → c.machine.key = 0) ∧
      (c.quit = true ↔ ∃ now e, .key now e ∈ as ∧ e.AsksToLeave)) ∧
    (∀ (c : Console) a c', c.Turn a c' → c.quit = true → c'.quit = true) ∧
    ∀ (c : Console) now e, e.AsksToLeave ∨ e.code = .char ' ' →
      (c.handleKey now e).press = c.press ∧ (c.handleKey now e).machine.key = c.machine.key := by
  refine ⟨?_, ?_, fun c a c' hturn hquit => hturn.quit_iff.2 (.inl hquit), ?_⟩
  · intro program d source m hboot
    obtain ⟨ram, -, rfl⟩ := Machine.boot_eq_ok hboot
    rfl
  · intro m rate hkey as c hturns
    have hstep : c.InStep := hturns.inStep hkey
    unfold InStep at hstep
    refine ⟨fun p hpress => ?_, fun hpress => ?_, ?_⟩
    · rw [hpress] at hstep
      have hbyte : c.machine.key.toNat = p.key.val := by
        rw [hstep]
        exact p.key.toNat_toByte
      exact ⟨hbyte, hbyte ▸ Nat.le_of_lt_succ p.key.isLt⟩
    · rw [hpress] at hstep
      exact hstep
    · have hquit := hturns.quit_iff
      rwa [show (start m rate).quit = false from rfl, Bool.false_eq_true, false_or] at hquit
  · rintro c now e (hleaves | hspace)
    · rw [handleKey_of_leaves hleaves]
      exact ⟨rfl, rfl⟩
    · rw [handleKey_of_space hspace]
      split
      · exact ⟨rfl, congrArg Machine.key c.machine_togglePause⟩
      · exact ⟨rfl, rfl⟩

/-- A key is pressed, the machine steps, and then `c` is let go together with control, which leaves
the key `w` held; once its time is up no key is. -/
theorem held_key_in_step_leaving :
    ∃ m c, Machine.boot #[0x12, 0x00] .compliant (.cycling #[]) = .ok m ∧
      (start m standardRate).Turns
        [.key 0 ⟨.char 'w', ⟨false, false, false⟩, .press⟩, .step,
          .key 9 ⟨.char 'c', ⟨true, false, false⟩, .release⟩] c ∧
      c.press = some ⟨5, 0⟩ ∧ c.machine.key.toNat = 5 ∧ c.quit = true ∧
      (c.expireKey 50000001).machine.key = 0 ∧ (c.expireKey 50000001).quit = true := by
  obtain ⟨hboot, hheld, hleft, hspares⟩ := held_key_in_step
  obtain ⟨m, hm⟩ : ∃ m, Machine.boot #[0x12, 0x00] .compliant (.cycling #[]) = .ok m :=
    Machine.exists_boot (by decide) _ _
  have hw : (start m standardRate).handleKey 0 ⟨.char 'w', ⟨false, false, false⟩, .press⟩ =
      (start m standardRate).pressKey 0 5 := by
    have hkeypad : KeyEvent.keypadKey? ⟨.char 'w', ⟨false, false, false⟩, .press⟩ = some 5 := by
      decide +kernel
    simp [handleKey, KeyEvent.quits, KeyEvent.pauses, hkeypad]
  have hleaves : KeyEvent.AsksToLeave ⟨.char 'c', ⟨true, false, false⟩, .release⟩ := .inr ⟨rfl, rfl⟩
  have hturns : (start m standardRate).Turns _ _ :=
    .cons (.key 0 ⟨.char 'w', ⟨false, false, false⟩, .press⟩) <| .cons .step <|
      .cons (.key 9 ⟨.char 'c', ⟨true, false, false⟩, .release⟩) (.nil _)
  rw [hw] at hturns
  have hpress := (hspares ((start m standardRate).pressKey 0 5).step.2 9 _ (.inl hleaves)).1
  obtain ⟨hkey, -, hquit⟩ := hheld m standardRate (hboot _ _ _ m hm) _ _ hturns
  have hquit := hquit.2 ⟨9, _, by simp, hleaves⟩
  refine ⟨m, _, hm, hturns, hpress, (hkey _ hpress).1, hquit, ?_, hleft _ _ _ (.expire _) hquit⟩
  rw [expireKey, hpress]
  rfl

end Console

end Chip8
