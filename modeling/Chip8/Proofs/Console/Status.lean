import Chip8.Proofs.Console.Reading
import Chip8.Proofs.Machine.Boot
import Chip8.Proofs.Machine.Failure
import Chip8.Proofs.Text.Hex

namespace Chip8

/-- A fault of a tick is one of the call stack, or tells an address of at most two bytes. -/
theorem Machine.fault_of_tick {m : Machine} {f : Fault} (h : m.tick.result = .error f) :
    f = .stackUnderflow ∨ f = .stackOverflow ∨ ∃ a < 0x10000, f = .outOfBounds a := by
  have haddress (n : UInt16) : max n.toNat 0x1000 < 0x10000 :=
    Nat.max_lt.2 ⟨n.toNat_lt, by decide⟩
  have htick := m.tickRule
  generalize m.tick = t at htick h
  cases htick with
  | wait x hmode hkey => cases h
  | accept x hmode hkey => cases h
  | lost g hmode hfetch =>
    obtain ⟨-, rfl⟩ := fetch_eq_error_iff.1 hfetch
    cases h
    exact .inr (.inr ⟨_, haddress m.pc, rfl⟩)
  | run i hmode hfetch =>
    obtain ⟨-, -, rfl⟩ | ⟨-, -, rfl⟩ | hpast := obstacle_eq_some_iff.1 (outcome_eq_error_iff.1 h)
    · exact .inl rfl
    · exact .inr (.inl rfl)
    · obtain ⟨-, -, rfl⟩ := overrun_eq_some_iff.1 hpast
      exact .inr (.inr ⟨_, haddress m.index, rfl⟩)

/-- Printable characters of the ASCII range. -/
def Printable (cs : List Char) : Prop := ∀ c ∈ cs, 0x20 ≤ c.toNat ∧ c.toNat < 0x7F

/-- Whether a closed text is printable is checked letter by letter, not over all characters. -/
theorem Printable.of_all {cs : List Char}
    (h : cs.all (fun c => 0x20 ≤ c.toNat && c.toNat < 0x7F) = true) : Printable cs := by
  simpa [Printable] using h

theorem Printable.append {cs ds : List Char} (hcs : Printable cs) (hds : Printable ds) :
    Printable (cs ++ ds) :=
  List.forall_mem_append.2 ⟨hcs, hds⟩

theorem Hex.printable_fixed (width n : Nat) : Printable (fixed width n) := by
  intro c hc
  obtain ⟨d, rfl⟩ : ∃ d, digit d = c := by
    by_contra hnone
    exact notMem_fixed (fun d hd => hnone ⟨d, hd⟩) width n hc
  clear hc
  revert d
  decide

namespace Fault

theorem toList_message_outOfBounds {a : Nat} (h : a < 0x10000) :
    (message (.outOfBounds a)).toList =
      "Memory access out of bounds at address 0x".toList ++ Hex.fixed 4 a := by
  have hdigits : (Hex.text 4 a).toList = Hex.fixed 4 a := Hex.toList_text_of_lt h
  rw [← hdigits]
  exact String.toList_append

theorem toList_message_stackOverflow :
    (message .stackOverflow).toList =
      "Stack overflow: call nesting exceeded ".toList ++ ['1', '6'] ++ " levels".toList := by
  have hdepth : stackDepth.repr.toList = ['1', '6'] := by decide
  rw [← hdepth]
  exact String.toList_append.trans (congrArg (· ++ _) String.toList_append)

theorem printable_message {m : Machine} {f : Fault} (h : m.tick.result = .error f) :
    Printable f.message.toList := by
  obtain rfl | rfl | ⟨a, ha, rfl⟩ := Machine.fault_of_tick h
  · exact .of_all (by decide)
  · rw [toList_message_stackOverflow]
    exact .of_all (by decide)
  · rw [toList_message_outOfBounds ha]
    exact .append (.of_all (by decide)) (Hex.printable_fixed 4 a)

/-- A fault of a tick takes up to sixty-four columns, but for the return without a call. -/
theorem length_message_le {m : Machine} {f : Fault} (h : m.tick.result = .error f)
    (hf : f ≠ .stackUnderflow) : f.message.toList.length ≤ 64 := by
  obtain rfl | rfl | ⟨a, ha, rfl⟩ := Machine.fault_of_tick h
  · exact absurd rfl hf
  · rw [toList_message_stackOverflow]
    decide
  · rw [toList_message_outOfBounds ha, List.length_append, Hex.length_fixed]
    decide

theorem length_message_stackUnderflow : (message .stackUnderflow).toList.length = 76 := by decide

theorem getLast?_message_stackUnderflow : (message .stackUnderflow).toList.getLast? = some 'k' := by
  decide

end Fault

namespace Console

variable {c : Console} {w h i j : Nat}

/-- A printable status is a single line. -/
theorem getD_lines_statusPanel (hprintable : Printable c.status.toList) (area : Rect) (j : Nat) :
    (c.statusPanel area).lines.getD j [] =
      (if j = 0 then c.status.toList else []).map (.ofChar · none) := by
  have hend : '\n' ∉ c.status.toList := fun hmem => absurd (hprintable _ hmem) (by decide)
  have hlines : (c.statusPanel area).lines = [c.status.toList.map (.ofChar · none)] := by
    rw [statusPanel, textLines_of_notMem hend, List.map_singleton,
      shownLine_of_printable hprintable]
  rw [hlines]
  cases j <;> rfl

theorem mem_statusPanel (c : Console) (w h : Nat) :
    c.statusPanel ⟨0, 34, w - 19, h - 34⟩ ∈ c.panels w h :=
  List.mem_of_getElem? (i := 1) rfl

theorem innerWidth_statusPanel (c : Console) (w h : Nat) :
    (c.statusPanel ⟨0, 34, w - 19, h - 34⟩).innerWidth = w - 21 := Nat.sub_sub ..

theorem innerHeight_statusPanel (c : Console) (w h : Nat) :
    (c.statusPanel ⟨0, 34, w - 19, h - 34⟩).innerHeight = h - 36 := Nat.sub_sub ..

/-- The status stands in red at the left of the first row, cut at the right. -/
theorem cell_status (hw : 85 ≤ w) (hh : 37 ≤ h) (hprintable : Printable c.status.toList)
    (hi : i < w - 21) (hj : j < h - 36) :
    (c.frame w h).cell (1 + i) (35 + j) =
      ⟨[(if j = 0 then c.status.toList else []).getD i ' '], some .red⟩ := by
  rw [← innerWidth_statusPanel c w h] at hi
  rw [← innerHeight_statusPanel c w h] at hj
  have hcell := cell_frame_inner hw hh (mem_statusPanel c w h) hi hj
  rw [Panel.inside_of_left (getD_lines_statusPanel hprintable _ j) rfl hi, textCell_none] at hcell
  have hcolumn : 0 + 1 + i = 1 + i := by omega
  rw [← hcolumn]
  exact hcell

theorem rowText_status (hw : 85 ≤ w) (hh : 37 ≤ h) (hprintable : Printable c.status.toList)
    (hj : j < h - 36) :
    (c.frame w h).rowText ⟨0, 34, w - 19, h - 34⟩ j =
      padded 0 ((if j = 0 then c.status.toList else []).take (w - 21))
        (w - 21 - (if j = 0 then c.status.toList else []).length) := by
  have hline := getD_lines_statusPanel hprintable ⟨0, 34, w - 19, h - 34⟩ j
  rw [← innerHeight_statusPanel c w h] at hj
  have htext := rowText_frame hw hh (mem_statusPanel c w h) hj hline
  rw [innerWidth_statusPanel] at htext
  exact htext

/-- Below the first row the status panel is empty. -/
theorem wordsIn_status (hw : 85 ≤ w) (hh : 37 ≤ h) (hprintable : Printable c.status.toList) :
    (c.frame w h).wordsIn ⟨0, 34, w - 19, h - 34⟩ = words (c.status.toList.take (w - 21)) := by
  obtain ⟨below, hbelow⟩ : ∃ below, h - 36 = below + 1 := ⟨h - 37, by omega⟩
  have hrow (j : Nat) (hj : j < below + 1) : (c.frame w h).rowWords ⟨0, 34, w - 19, h - 34⟩ j =
      words ((if j = 0 then c.status.toList else []).take (w - 21)) := by
    rw [Frame.rowWords, rowText_status hw hh hprintable (hbelow ▸ hj), words_padded]
  have hempty : ∀ j ∈ List.range below,
      (c.frame w h).rowWords ⟨0, 34, w - 19, h - 34⟩ (j + 1) = [] := fun j hj => by
    rw [hrow _ (Nat.succ_lt_succ (List.mem_range.1 hj)), if_neg (Nat.succ_ne_zero j), List.take_nil,
      words_nil]
  have hheight : h - 34 - 2 = below + 1 := by omega
  rw [Frame.wordsIn, hheight, List.range_succ_eq_map, List.flatMap_cons, List.flatMap_map,
    List.flatMap_eq_nil_iff.2 hempty, List.append_nil, hrow 0 (Nat.succ_pos below), if_pos rfl]

/-- The fault that has stopped a machine stands in red in the first row of the status panel, as far
as there is room. Every fault is told in full, except that a return without a call needs a terminal
of ninety-seven columns. -/
theorem status_tells_fault_iff {m : Machine} {f : Fault} (hfault : m.tick.result = .error f)
    (hstatus : c.status = f.message) (hw : 85 ≤ w) (hh : 37 ≤ h) :
    (∀ i < w - 21, ∀ j < h - 36, (c.frame w h).cell (1 + i) (35 + j) =
      ⟨[(if j = 0 then f.message.toList else []).getD i ' '], some .red⟩) ∧
    ((c.frame w h).wordsIn ⟨0, 34, w - 19, h - 34⟩ = words f.message.toList ↔
      (f = .stackUnderflow → 97 ≤ w)) := by
  have hprintable : Printable c.status.toList := hstatus ▸ Fault.printable_message hfault
  rw [wordsIn_status hw hh hprintable, ← hstatus]
  refine ⟨fun i hi j hj => cell_status hw hh hprintable hi hj, ?_⟩
  by_cases hf : f = .stackUnderflow
  · rw [hstatus, hf, words_take_eq_iff Fault.getLast?_message_stackUnderflow (by decide),
      Fault.length_message_stackUnderflow]
    refine ⟨fun hfits _ => by omega, fun hwide => ?_⟩
    have hcolumns : 97 ≤ w := hwide rfl
    omega
  · have hlength := Fault.length_message_le hfault hf
    rw [hstatus, List.take_of_length_le (by omega)]
    exact iff_of_true rfl fun heq => absurd heq hf

/-- A program that returns without a call. -/
theorem exists_underflow (d : Dialect) (source : ByteSource) :
    ∃ m, Machine.boot #[0x00, 0xEE] d source = .ok m ∧ m.tick.result = .error .stackUnderflow := by
  obtain ⟨m, hm⟩ : ∃ m, Machine.boot #[0x00, 0xEE] d source = .ok m :=
    Machine.exists_boot (by decide) d source
  have hfetch : m.fetch = .ok ⟨0x00EE⟩ := Machine.fetch_boot hm (by decide)
  have hret : (⟨0x00EE⟩ : Instruction).operation = .ret := by decide
  have hobstacle : m.obstacle .ret = some .stackUnderflow := by
    rw [Machine.obstacle, Machine.stack_boot hm]
    rfl
  refine ⟨m, hm, ?_⟩
  rw [Machine.tick_of_fetch (Machine.mode_boot hm) hfetch, hret, hobstacle]
  rfl

/-- Ninety-seven columns are enough for a return without a call, and ninety-six are not. -/
theorem status_tells_fault_iff_underflow :
    ∃ (m : Machine) (c : Console),
      m.tick.result = .error .stackUnderflow ∧ c.status = Fault.message .stackUnderflow ∧
      (c.frame 97 37).wordsIn ⟨0, 34, 78, 3⟩ = words (Fault.message .stackUnderflow).toList ∧
      (c.frame 96 37).wordsIn ⟨0, 34, 77, 3⟩ ≠ words (Fault.message .stackUnderflow).toList := by
  obtain ⟨m, -, hfault⟩ := exists_underflow .legacy (.cycling #[])
  obtain ⟨c, hstatus⟩ : ∃ c : Console, c.status = Fault.message .stackUnderflow :=
    ⟨(start m standardRate).setStatus (Fault.message .stackUnderflow), rfl⟩
  obtain ⟨-, hwide⟩ :=
    status_tells_fault_iff (w := 97) (h := 37) hfault hstatus (by decide) (by decide)
  obtain ⟨-, hnarrow⟩ :=
    status_tells_fault_iff (w := 96) (h := 37) hfault hstatus (by decide) (by decide)
  exact ⟨m, c, hfault, hstatus, hwide.2 fun _ => Nat.le_refl 97,
    fun hwords => absurd (hnarrow.1 hwords rfl) (by decide)⟩

/-- In a terminal of the least width a return without a call is not told in full, even if there are
more rows for it. -/
theorem exists_fault_cut_off :
    ∃ (m : Machine) (c : Console),
      Machine.boot #[0x00, 0xEE] .legacy (.cycling #[]) = .ok m ∧
      m.tick.result = .error .stackUnderflow ∧ c.machine = m.tick.machine ∧
      c.status = Fault.message .stackUnderflow ∧
      (c.frame 85 38).rowText ⟨0, 34, 66, 4⟩ 0 =
        "Stack underflow: attempted to return from a subroutine with empt".toList ∧
      (c.frame 85 38).wordsIn ⟨0, 34, 66, 4⟩ ≠ words c.status.toList := by
  obtain ⟨m, hm, hfault⟩ := exists_underflow .legacy (.cycling #[])
  obtain ⟨c, hmachine, hstatus⟩ : ∃ c : Console, c.machine = m.tick.machine ∧
      c.status = Fault.message .stackUnderflow :=
    ⟨(start m.tick.machine standardRate).setStatus (Fault.message .stackUnderflow), rfl, rfl⟩
  have hprintable : Printable c.status.toList := hstatus ▸ Fault.printable_message hfault
  refine ⟨m, c, hm, hfault, hmachine, hstatus, ?_, ?_⟩
  · have hshown : (Fault.message .stackUnderflow).toList.take 64 =
        "Stack underflow: attempted to return from a subroutine with empt".toList := by decide
    have hrow := rowText_status (Nat.le_refl 85) (Nat.le_succ 37) hprintable Nat.two_pos
    rw [if_pos rfl, hstatus, hshown, Fault.length_message_stackUnderflow] at hrow
    exact hrow
  · rw [wordsIn_status (Nat.le_refl 85) (Nat.le_succ 37) hprintable, hstatus]
    intro hwords
    have hfits := (words_take_eq_iff Fault.getLast?_message_stackUnderflow (by decide) _).1 hwords
    rw [Fault.length_message_stackUnderflow] at hfits
    exact absurd hfits (by decide)

end Console

end Chip8
