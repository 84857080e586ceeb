import Chip8.Memory.Registers

namespace Chip8

/-- The fault met on the way up through `count` addresses from `a` on: the first address past the
memory, unless all of them lie inside or there are none. -/
def overrun (a count : Nat) : Option Fault :=
  if 0 < count ∧ memorySize < a + count then some (.outOfBounds (max a memorySize)) else none

@[simp] theorem overrun_zero (a : Nat) : overrun a 0 = none := by
  simp [overrun]

theorem overrun_eq_some_iff {a count : Nat} {f : Fault} :
    overrun a count = some f ↔
      0 < count ∧ memorySize < a + count ∧ f = .outOfBounds (max a memorySize) := by
  unfold overrun
  split
  · rename_i hpast
    simp [hpast, eq_comm]
  · rename_i hin
    constructor
    · intro h
      cases h
    · rintro ⟨hpos, hpast, -⟩
      exact absurd ⟨hpos, hpast⟩ hin

theorem overrun_of_le {a count : Nat} (h : a + count ≤ memorySize) : overrun a count = none := by
  unfold overrun
  rw [if_neg]
  omega

theorem overrun_succ_of_lt {a : Nat} (h : a < memorySize) (count : Nat) :
    overrun a (count + 1) = overrun (a + 1) count := by
  unfold overrun
  have hmax : max a memorySize = max (a + 1) memorySize := by omega
  rw [hmax]
  congr 1
  apply propext
  omega

theorem overrun_succ_of_le {a : Nat} (h : memorySize ≤ a) (count : Nat) :
    overrun a (count + 1) = some (.outOfBounds a) := by
  unfold overrun
  rw [if_pos (by omega), Nat.max_eq_left h]

/-- A window grown by one cell at its upper end meets the fault it met before, or that of the new
cell. -/
theorem overrun_succ (a count : Nat) :
    overrun a (count + 1) =
      (overrun a count).or
        (if a + count < memorySize then none else some (.outOfBounds (a + count))) := by
  unfold overrun
  by_cases hin : a + count < memorySize
  · rw [if_neg (by omega), if_neg (by omega), if_pos hin]
    rfl
  · rw [if_pos (by omega), if_neg hin]
    by_cases hbefore : 0 < count ∧ memorySize < a + count
    · rw [if_pos hbefore]
      rfl
    · have hmax : max a memorySize = a + count := by omega
      rw [if_neg hbefore, hmax]
      rfl

namespace Ram

/-- The byte at an address, zero past the end of the memory. -/
def byte (r : Ram) (a : Nat) : UInt8 := r.bytes[a]?.getD 0

theorem read_eq_ok (r : Ram) {a : Nat} (h : a < memorySize) : r.read a = .ok (r.byte a) := by
  rw [read_of_lt r h, byte, Vector.getElem?_eq_getElem h]
  rfl

theorem byte_of_le {a : Nat} (h : memorySize ≤ a) (r : Ram) : r.byte a = 0 := by
  simp [byte, h]

theorem ext_byte {r s : Ram} (h : ∀ a < memorySize, r.byte a = s.byte a) : r = s := by
  obtain ⟨r⟩ := r
  obtain ⟨s⟩ := s
  congr 1
  apply Vector.ext
  intro a ha
  simpa [byte, ha] using h a ha

/-- Memory with another byte at an address. Past the end of the memory nothing changes. -/
def put (r : Ram) (a : Nat) (b : UInt8) : Ram :=
  if h : a < memorySize then ⟨r.bytes.set a b⟩ else r

theorem byte_put (r : Ram) (a : Nat) (b : UInt8) (c : Nat) :
    (r.put a b).byte c = if c = a ∧ a < memorySize then b else r.byte c := by
  unfold put byte
  by_cases ha : a < memorySize
  · by_cases hc : c < memorySize
    · by_cases hca : c = a
      · simp [ha, hca]
      · simp [ha, hc, hca, Ne.symm hca]
    · have hca : c ≠ a := by omega
      simp [ha, hc, hca]
  · simp [ha]

theorem put_of_le {a : Nat} (h : memorySize ≤ a) (r : Ram) (b : UInt8) : r.put a b = r :=
  dif_neg (Nat.not_lt.2 h)

theorem put_put (r : Ram) (a : Nat) (b c : UInt8) : (r.put a b).put a c = r.put a c := by
  apply ext_byte
  intro k hk
  rw [byte_put, byte_put, byte_put]
  split <;> rfl

theorem write_eq_ok (r : Ram) {a : Nat} (h : a < memorySize) (b : UInt8) :
    r.write a b = .ok (r.put a b) := by
  unfold write put
  rw [dif_pos h, dif_pos h]

theorem write_eq_error (r : Ram) {a : Nat} (h : memorySize ≤ a) (b : UInt8) :
    r.write a b = .error (.outOfBounds a) :=
  dif_neg (Nat.not_lt.2 h)

/-- Memory with bytes laid over it from an address on. Those that would stand past the end of the
memory are lost. -/
def overlay (r : Ram) (a : Nat) : List UInt8 → Ram
  | [] => r
  | b :: bs => (r.put a b).overlay (a + 1) bs

theorem byte_overlay_outside {a c : Nat} {bs : List UInt8} (h : ∀ j < bs.length, c ≠ a + j)
    (r : Ram) : (r.overlay a bs).byte c = r.byte c := by
  induction bs generalizing r a with
  | nil => rfl
  | cons b bs ih =>
    have hfirst : c ≠ a := h 0 (Nat.succ_pos _)
    have hrest : ∀ j < bs.length, c ≠ a + 1 + j := by
      intro j hj
      have hne := h (j + 1) (Nat.succ_lt_succ hj)
      omega
    rw [overlay, ih hrest, byte_put, if_neg fun hc => hfirst hc.1]

theorem byte_overlay_inside {a j : Nat} {bs : List UInt8} (hj : j < bs.length)
    (h : a + j < memorySize) (r : Ram) : (r.overlay a bs).byte (a + j) = bs[j] := by
  induction bs generalizing r a j with
  | nil => cases hj
  | cons b bs ih =>
    cases j with
    | zero =>
      have hrest : ∀ j < bs.length, a + 0 ≠ a + 1 + j := by omega
      rw [overlay, byte_overlay_outside hrest, byte_put, if_pos ⟨rfl, h⟩]
      rfl
    | succ j =>
      have haddress : a + (j + 1) = a + 1 + j := by omega
      rw [overlay, haddress, ih (Nat.lt_of_succ_lt_succ hj) (by omega)]
      rfl

theorem overlay_of_le {a : Nat} (h : memorySize ≤ a) (r : Ram) (bs : List UInt8) :
    r.overlay a bs = r := by
  induction bs generalizing a with
  | nil => rfl
  | cons b bs ih => rw [overlay, put_of_le h, ih (Nat.le_succ_of_le h)]

/-- Writing bytes one after the other lays them over the memory as far as it reaches. -/
theorem writeEach_eq (r : Ram) (a : Nat) (bs : List UInt8) :
    r.writeEach ((bs.zipIdx a).map Prod.swap) = ⟨r.overlay a bs, overrun a bs.length⟩ := by
  induction bs generalizing r a with
  | nil => simp [writeEach, overlay, Attempt.done]
  | cons b bs ih =>
    rw [List.zipIdx_cons, List.map_cons, Prod.swap_prod_mk, writeEach, List.length_cons]
    by_cases ha : a < memorySize
    · rw [write_eq_ok r ha]
      dsimp only
      rw [ih, overrun_succ_of_lt ha, ← overlay]
    · have hle : memorySize ≤ a := Nat.not_lt.1 ha
      rw [write_eq_error r hle]
      dsimp only
      rw [Attempt.stopped, overlay_of_le hle, overrun_succ_of_le hle]

/-- Bytes that all go to one address leave the last of them there. -/
theorem writeEach_same (r : Ram) (a : Nat) (b c d : UInt8) :
    r.writeEach [(a, b), (a, c), (a, d)] = ⟨r.overlay a [d], overrun a 1⟩ := by
  by_cases ha : a < memorySize
  · have hfits : overrun a 1 = none := overrun_of_le (by omega)
    rw [writeEach, write_eq_ok _ ha]
    dsimp only
    rw [writeEach, write_eq_ok _ ha, put_put]
    dsimp only
    rw [writeEach, write_eq_ok _ ha, put_put, hfits]
    rfl
  · have hle : memorySize ≤ a := Nat.not_lt.1 ha
    rw [writeEach, write_eq_error r hle, overlay_of_le hle, overrun_succ_of_le hle]
    rfl

/-- A block is read whole, or the first address past the memory is reported. -/
theorem readBlock_eq (r : Ram) (a count : Nat) :
    r.readBlock a count =
      match overrun a count with
      | none => .ok ((List.range' a count).map r.byte)
      | some f => .error f := by
  induction count generalizing a with
  | zero => simp [readBlock]
  | succ count ih =>
    rw [readBlock]
    by_cases ha : a < memorySize
    · rw [read_eq_ok r ha]
      dsimp only
      rw [ih, overrun_succ_of_lt ha]
      cases overrun (a + 1) count <;> rfl
    · have hle : memorySize ≤ a := Nat.not_lt.1 ha
      rw [read_of_le r hle, overrun_succ_of_le hle]

theorem readBlock_eq_ok {a count : Nat} (h : ∀ k < count, a + k < memorySize) (r : Ram) :
    r.readBlock a count = .ok ((List.range' a count).map r.byte) := by
  have hfits : overrun a count = none := by
    unfold overrun
    rw [if_neg]
    rintro ⟨hpos, hpast⟩
    have hlast := h (count - 1) (by omega)
    omega
  rw [readBlock_eq, hfits]

theorem byte_fresh (a : Nat) : fresh.byte a = font[a]?.getD 0 := by
  by_cases ha : a < memorySize
  · simp [byte, fresh, fontStart, ha]
  · have hfont : ¬ a < 16 * glyphSize := by
      simp only [memorySize] at ha
      simp only [glyphSize]
      omega
    simp [byte, ha, hfont]

theorem load_eq_ok {program : Array UInt8} (h : program.size ≤ programCapacity) (r : Ram) :
    ∃ s, r.load program = .ok s :=
  ⟨_, if_pos h⟩

theorem size_le_of_load {r s : Ram} {program : Array UInt8} (h : r.load program = .ok s) :
    program.size ≤ programCapacity := by
  unfold load at h
  split at h
  · rename_i hsize
    exact hsize
  · cases h

/-- A loaded program stands at its place, and what lies around it stays. -/
theorem byte_load {r s : Ram} {program : Array UInt8} (h : r.load program = .ok s) (a : Nat) :
    s.byte a =
      if programStart ≤ a ∧ a < programStart + program.size then program.getD (a - programStart) 0
      else r.byte a := by
  unfold load at h
  split at h
  · rename_i hsize
    rw [Except.ok.injEq] at h
    subst h
    have hroom : programStart + program.size ≤ memorySize := by
      simp only [programCapacity, memorySize, programStart] at hsize ⊢
      omega
    by_cases ha : a < memorySize
    · by_cases hstart : programStart ≤ a
      · by_cases hend : a < programStart + program.size
        · have hcell : a - programStart < program.size := by omega
          simp [byte, ha, hstart, hend, hcell]
        · have hcell : ¬ a - programStart < program.size := by omega
          simp [byte, ha, hstart, hend, hcell]
      · simp [byte, ha, hstart]
    · have hend : ¬ a < programStart + program.size := by omega
      simp [byte, ha, hend]
  · cases h

end Ram

namespace Registers

/-- Registers whose first `count` hold the bytes from an address on, but for those whose byte would
stand past the end of the memory. -/
def fill (v : Registers) (r : Ram) (a count : Nat) : Registers :=
  ⟨Vector.ofFn fun x =>
    if x.val < count ∧ a + x.val < memorySize then r.byte (a + x.val) else v.get x⟩

theorem get_fill (v : Registers) (r : Ram) (a count : Nat) (x : Nibble) :
    (v.fill r a count).get x =
      if x.val < count ∧ a + x.val < memorySize then r.byte (a + x.val) else v.get x := by
  simp [fill, get_eq]

theorem get_fill_of_le {a count : Nat} (h : a + count ≤ memorySize) (v : Registers) (r : Ram)
    (x : Nibble) :
    (v.fill r a count).get x = if x.val < count then r.byte (a + x.val) else v.get x := by
  rw [get_fill]
  congr 1
  apply propext
  omega

@[simp] theorem fill_zero (v : Registers) (r : Ram) (a : Nat) : v.fill r a 0 = v := by
  apply ext_get
  intro x
  simp [get_fill]

theorem fill_succ_of_lt {a count : Nat} (hcount : count < 16) (h : a + count < memorySize)
    (v : Registers) (r : Ram) :
    v.fill r a (count + 1) = (v.fill r a count).set ⟨count, hcount⟩ (r.byte (a + count)) := by
  apply ext_get
  intro x
  rw [get_set, get_fill, get_fill]
  by_cases hx : x.val = count
  · rw [if_pos (by omega), if_pos (Fin.ext hx.symm), hx]
  · rw [if_neg (mt (congrArg Fin.val) (Ne.symm hx))]
    congr 1
    apply propext
    omega

theorem fill_succ_of_le {a count : Nat} (h : memorySize ≤ a + count) (v : Registers) (r : Ram) :
    v.fill r a (count + 1) = v.fill r a count := by
  apply ext_get
  intro x
  rw [get_fill, get_fill]
  congr 1
  apply propext
  omega

theorem loadEach_append (v : Registers) (r : Ram) (xs ys : List (Nibble × Nat)) :
    v.loadEach r (xs ++ ys) =
      match (v.loadEach r xs).fault with
      | none => (v.loadEach r xs).reached.loadEach r ys
      | some f => ⟨(v.loadEach r xs).reached, some f⟩ := by
  induction xs generalizing v with
  | nil => rfl
  | cons cell xs ih =>
    rw [List.cons_append, loadEach, loadEach]
    cases r.read cell.2 with
    | error f => rfl
    | ok b => exact ih (v.set cell.1 b)

/-- Loading the first registers in order fills them as far as the memory reaches. -/
theorem loadEach_eq (v : Registers) (r : Ram) (a : Nat) {count : Nat} (h : count ≤ 16) :
    v.loadEach r (((List.finRange 16).take count).map fun j => (j, a + j.val)) =
      ⟨v.fill r a count, overrun a count⟩ := by
  induction count with
  | zero => simp [loadEach, Attempt.done]
  | succ count ih =>
    have hlast :
        (List.finRange 16).take (count + 1) = (List.finRange 16).take count ++ [⟨count, h⟩] := by
      rw [List.take_succ_eq_append_getElem (by rwa [List.length_finRange])]
      simp
    rw [hlast, List.map_append, loadEach_append, ih (Nat.le_of_succ_le h), overrun_succ]
    cases hfault : overrun a count with
    | some f =>
      have hpast := (overrun_eq_some_iff.1 hfault).2.1
      rw [fill_succ_of_le (Nat.le_of_lt hpast)]
      rfl
    | none =>
      dsimp only
      rw [List.map_singleton, loadEach]
      by_cases hin : a + count < memorySize
      · rw [Ram.read_eq_ok r hin, if_pos hin, fill_succ_of_lt h hin]
        rfl
      · have hpast : memorySize ≤ a + count := Nat.not_lt.1 hin
        rw [Ram.read_of_le r hpast, if_neg hin, fill_succ_of_le hpast]
        rfl

/-- The cells of a block transfer are consecutive. -/
theorem cells_take (v : Registers) (a count : Nat) :
    ((List.finRange 16).take count).map (fun j => (a + j.val, v.get j)) =
      ((v.toList.take count).zipIdx a).map Prod.swap := by
  apply List.ext_getElem
  · simp [toList]
  · intro k hk _
    simp [toList, get_eq]

end Registers

end Chip8
