import Chip8.CommandLine.Seed
import Chip8.Proofs.Text.Hex

namespace Chip8

-- Powers of natural numbers are the built-in ones, whatever else is in scope.
attribute [local instance (high)] instPowNat

namespace Hex

theorem lt_pow_size (n : Nat) : n < 16 ^ size n := by
  have hpow : 16 ^ size n = 2 ^ (4 * size n) := (Nat.pow_mul 2 4 (size n)).symm
  rw [hpow]
  refine Nat.lt_of_lt_of_le Nat.lt_log2_self (Nat.pow_le_pow_right Nat.two_pos ?_)
  unfold size
  omega

theorem length_text_le (width room : Nat) {n : Nat} (hwidth : width ≤ room + 1)
    (h : n < 16 ^ (room + 1)) : (text width n).toList.length ≤ room + 1 := by
  rw [toList_text, length_fixed]
  exact Nat.max_le.2 ⟨hwidth, size_le h⟩

end Hex

namespace CommandLine

theorem digitValue?_digit (d : Nibble) : digitValue? (Hex.digit d) = some d.val := by
  revert d
  decide

theorem readDigits?_append (base n : Nat) (cs ds : List Char) :
    readDigits? base n (cs ++ ds) =
      (readDigits? base n cs).bind fun m => readDigits? base m ds := by
  induction cs generalizing n with
  | nil => rfl
  | cons c rest ih =>
    rw [List.cons_append, readDigits?, readDigits?]
    cases digitValue? c with
    | none => rfl
    | some d =>
      dsimp only
      split
      · exact ih _
      · rfl

theorem readDigits?_fixed (width n : Nat) :
    readDigits? 16 0 (Hex.fixed width n) = some (n % 16 ^ width) := by
  induction width generalizing n with
  | zero =>
    rw [Nat.pow_zero, Nat.mod_one]
    rfl
  | succ width ih =>
    have hdigit : readDigits? 16 (n / 16 % 16 ^ width) [Hex.digit (Nibble.ofLowBits n)] =
        some (16 * (n / 16 % 16 ^ width) + n % 16) := by
      have hlow : (Nibble.ofLowBits n).val = n % 16 := rfl
      rw [readDigits?, digitValue?_digit, hlow]
      dsimp only
      rw [if_pos (Nat.mod_lt _ (by decide)), readDigits?]
    rw [Hex.fixed, readDigits?_append, ih, Option.bind_some, hdigit, Nat.pow_succ', Nat.mod_mul,
      Nat.add_comm]

/-- One or more digits are read as a number if no plus sign stands before them. -/
theorem readNumber?_of_readDigits? {base n : Nat} {cs : List Char} (hplus : '+' ∉ cs)
    (hnonempty : cs ≠ []) (hdigits : readDigits? base 0 cs = some n) :
    readNumber? base cs = some n := by
  unfold readNumber?
  cases cs with
  | nil => exact absurd rfl hnonempty
  | cons c rest =>
    have hc : c ≠ '+' := fun heq => hplus (heq ▸ List.mem_cons_self)
    simp [hc, hdigits]

/-- A number that is written in hexadecimal is read back. -/
theorem readNumber?_text {width : Nat} (hwidth : 0 < width) (n : Nat) :
    readNumber? 16 (Hex.text width n).toList = some n := by
  have hplus : '+' ∉ (Hex.text width n).toList := by
    rw [Hex.toList_text]
    exact Hex.notMem_fixed (by decide) _ _
  have hnonempty : (Hex.text width n).toList ≠ [] := by
    have hlength : 0 < max width (Hex.size n) := Nat.lt_of_lt_of_le hwidth (Nat.le_max_left ..)
    refine List.ne_nil_of_length_pos ?_
    rwa [Hex.toList_text, Hex.length_fixed]
  have hpow : 16 ^ Hex.size n ≤ 16 ^ max width (Hex.size n) :=
    Nat.pow_le_pow_right (by decide) (Nat.le_max_right ..)
  refine readNumber?_of_readDigits? hplus hnonempty ?_
  rw [Hex.toList_text, readDigits?_fixed,
    Nat.mod_eq_of_lt (Nat.lt_of_lt_of_le (Hex.lt_pow_size n) hpow)]

/-- A digit as it is written: from ten on it is a letter, small or capital. -/
def WritesDigit (c : Char) (d : Nat) : Prop := c = d.digitChar ∨ c = d.digitChar.toUpper

/-- The digits of a number in a base, the most significant first, after zeros or none. -/
inductive WritesNumber (base : Nat) : List Char → Nat → Prop
  | digit {c : Char} {d : Nat} (hd : d < base) (hc : WritesDigit c d) : WritesNumber base [c] d
  | append {cs : List Char} {n : Nat} {c : Char} {d : Nat} (hn : WritesNumber base cs n)
    (hd : d < base) (hc : WritesDigit c d) : WritesNumber base (cs ++ [c]) (base * n + d)

theorem digitValue?_of_writesDigit {c : Char} {d : Nat} (hd : d < 16) (hc : WritesDigit c d) :
    digitValue? c = some d := by
  have hall : ∀ d < 16, digitValue? d.digitChar = some d ∧
      digitValue? d.digitChar.toUpper = some d := by decide
  obtain rfl | rfl := hc
  · exact (hall d hd).1
  · exact (hall d hd).2

namespace WritesNumber

variable {base n : Nat} {cs : List Char}

theorem ne_nil (h : WritesNumber base cs n) : cs ≠ [] := by
  cases h <;> simp

theorem exists_of_mem (h : WritesNumber base cs n) {c : Char} (hmem : c ∈ cs) :
    ∃ d < base, WritesDigit c d := by
  induction h with
  | digit hd hc =>
    obtain rfl := List.mem_singleton.1 hmem
    exact ⟨_, hd, hc⟩
  | append hn hd hc ih =>
    rcases List.mem_append.1 hmem with hmem | hmem
    · exact ih hmem
    · obtain rfl := List.mem_singleton.1 hmem
      exact ⟨_, hd, hc⟩

/-- Only digits occur in a number. -/
theorem notMem (h : WritesNumber base cs n) (hbase : base ≤ 16) {c : Char}
    (hc : digitValue? c = none) : c ∉ cs := by
  intro hmem
  obtain ⟨d, hd, hwrites⟩ := h.exists_of_mem hmem
  rw [digitValue?_of_writesDigit (by omega) hwrites] at hc
  cases hc

theorem readDigits?_eq (h : WritesNumber base cs n) (hbase : base ≤ 16) :
    readDigits? base 0 cs = some n := by
  induction h with
  | digit hd hc =>
    rw [readDigits?, digitValue?_of_writesDigit (by omega) hc]
    simp [hd, readDigits?]
  | append hn hd hc ih =>
    rw [readDigits?_append, ih, Option.bind_some, readDigits?,
      digitValue?_of_writesDigit (by omega) hc]
    simp [hd, readDigits?]

/-- However a number is written in a base, it is read back. -/
theorem readNumber?_eq (h : WritesNumber base cs n) (hbase : base ≤ 16) :
    readNumber? base cs = some n :=
  readNumber?_of_readDigits? (h.notMem hbase (by decide)) h.ne_nil (h.readDigits?_eq hbase)

/-- Every number can be written, and without zeros in front. -/
theorem toDigits (hbase : 1 < base) (n : Nat) : WritesNumber base (base.toDigits n) n := by
  induction n using Nat.strongRecOn with
  | ind n ih =>
    rw [Nat.toDigits_eq_if hbase]
    split
    · next hn => exact .digit hn (.inl rfl)
    · next hn =>
      have hlast : n % base < base := Nat.mod_lt n (by omega)
      have hfront := ih (n / base) (Nat.div_lt_self (by omega) hbase)
      have hwhole := hfront.append hlast (.inl rfl)
      rwa [Nat.div_add_mod] at hwhole

end WritesNumber

/-- A seed as it is written: in decimal digits, or in hexadecimal ones after `0x`. -/
inductive WritesSeed : String → UInt64 → Prop
  | decimal {digits : List Char} {seed : UInt64} (h : WritesNumber 10 digits seed.toNat) :
    WritesSeed (String.ofList digits) seed
  | hexadecimal {digits : List Char} {seed : UInt64} (h : WritesNumber 16 digits seed.toNat) :
    WritesSeed ("0x" ++ String.ofList digits) seed

namespace WritesSeed

variable {s : String} {seed : UInt64}

theorem toList_hexadecimal (digits : List Char) :
    ("0x" ++ String.ofList digits).toList = '0' :: 'x' :: digits := by
  simp

/-- No seed starts with a dash. -/
theorem head?_ne (h : WritesSeed s seed) : s.toList.head? ≠ some '-' := by
  cases h with
  | @decimal digits _ h =>
    have hdash : '-' ∉ digits := h.notMem (by decide) (by decide)
    rw [String.toList_ofList]
    exact fun hhead => hdash (List.mem_of_mem_head? hhead)
  | @hexadecimal digits _ h =>
    rw [toList_hexadecimal]
    exact fun hhead => absurd (Option.some.inj hhead) (by decide)

/-- However a seed is written, it is read back. -/
theorem readSeed?_eq (h : WritesSeed s seed) : readSeed? s = some seed := by
  have hfits (base : Nat) (cs : List Char) (hcs : readNumber? base cs = some seed.toNat) :
      ((readNumber? base cs).bind fun n =>
        if n < UInt64.size then some (UInt64.ofNat n) else none) = some seed := by
    rw [hcs, Option.bind_some, if_pos seed.toNat_lt_size, UInt64.ofNat_toNat]
  unfold readSeed?
  cases h with
  | @decimal digits _ h =>
    have hsmall : 'x' ∉ digits := h.notMem (by decide) (by decide)
    have hcapital : 'X' ∉ digits := h.notMem (by decide) (by decide)
    rw [String.toList_ofList]
    dsimp only
    split
    · simp at hsmall
    · simp at hcapital
    · exact hfits 10 digits (h.readNumber?_eq (by decide))
  | @hexadecimal digits _ h =>
    rw [toList_hexadecimal]
    exact hfits 16 digits (h.readNumber?_eq (by decide))

end WritesSeed

theorem writesSeed_toString (seed : UInt64) : WritesSeed (toString seed) seed :=
  .decimal (.toDigits (by decide) seed.toNat)

end CommandLine

end Chip8
