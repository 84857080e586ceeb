import Chip8.Memory
import Chip8.Proofs.Memory.Window

namespace Chip8

/-- What can be done with a memory. -/
inductive Access
  | reset
  | load (program : Array UInt8)
  | read (a : Nat)
  | write (a : Nat) (b : UInt8)
  | push (a : UInt16)
  | pop

/-- What an access tells that goes through. -/
inductive Answer
  | nothing
  | byte (b : UInt8)
  | address (a : UInt16)
deriving DecidableEq

/-- How a memory takes an access. -/
structure Served where
  answer : Except Fault Answer
  memory : Memory

/-- An access that goes through, or fails and leaves the memory as it was. -/
def Served.ofExcept (before : Memory) : Except Fault (Answer × Memory) → Served
  | .ok (answer, memory) => ⟨.ok answer, memory⟩
  | .error f => ⟨.error f, before⟩

namespace Memory

def serve (m : Memory) : Access → Served
  | .reset => ⟨.ok .nothing, m.reset⟩
  | .load program => .ofExcept m ((m.load program).map fun m => (.nothing, m))
  | .read a => .ofExcept m ((m.read a).map fun b => (.byte b, m))
  | .write a b => .ofExcept m ((m.write a b).map fun m => (.nothing, m))
  | .push a => .ofExcept m ((m.push a).map fun m => (.nothing, m))
  | .pop => .ofExcept m (m.pop.map fun (a, m) => (.address a, m))

/-- The memory after a run of accesses. -/
def after (m : Memory) : List Access → Memory
  | [] => m
  | x :: xs => (m.serve x).memory.after xs

end Memory

namespace Access

/-- Whether an access is to the call stack, and not to the bytes. -/
def usesStack : Access → Bool
  | push _ | pop => true
  | _ => false

/-- The byte that an access gives to an address, if it gives one. -/
def given (c : Nat) : Access → Option UInt8
  | reset => some (font[c]?.getD 0)
  | load program =>
    if program.size ≤ 3584 ∧ 0x200 ≤ c ∧ c < 0x200 + program.size then
      some (program.getD (c - 0x200) 0)
    else none
  | write a b => if a = c then some b else none
  | _ => none

/-- The return addresses that are held after an access, the latest first. -/
def hold (held : List UInt16) : Access → List UInt16
  | push a => if held.length < 16 then a :: held else held
  | pop => held.tail
  | _ => held

/-- How an access goes while some bytes stand in the memory and some return addresses are held. -/
def answer (bytes : Nat → UInt8) (held : List UInt16) : Access → Except Fault Answer
  | reset => .ok .nothing
  | load program =>
    if program.size ≤ 3584 then .ok .nothing else .error (.programTooLarge program.size)
  | read a => if a < 4096 then .ok (.byte (bytes a)) else .error (.outOfBounds a)
  | write a _ => if a < 4096 then .ok .nothing else .error (.outOfBounds a)
  | push _ => if held.length < 16 then .ok .nothing else .error .stackOverflow
  | pop =>
    match held with
    | [] => .error .stackUnderflow
    | a :: _ => .ok (.address a)

/-- The byte that a run of accesses gave last to an address. One that it gave none holds a byte of
the font or zero. -/
def latest (xs : List Access) (c : Nat) : UInt8 :=
  (xs.filterMap (given c)).getLastD (font[c]?.getD 0)

/-- The return addresses that a run of accesses has put on the call stack and not taken away, the
latest first. -/
def pending (xs : List Access) : List UInt16 := xs.foldl hold []

end Access

namespace Memory

variable {m : Memory} {x : Access} {t : Served}

/-- The ways of an access. -/
inductive ServeRule (m : Memory) : Access → Served → Prop
  | reset : ServeRule m .reset ⟨.ok .nothing, m.reset⟩
  | load {program : Array UInt8} {ram : Ram} : program.size ≤ 3584 →
    m.ram.load program = .ok ram → ServeRule m (.load program) ⟨.ok .nothing, { m with ram }⟩
  | tooLarge {program : Array UInt8} : 3584 < program.size →
    ServeRule m (.load program) ⟨.error (.programTooLarge program.size), m⟩
  | read {a : Nat} : a < 4096 → ServeRule m (.read a) ⟨.ok (.byte (m.ram.byte a)), m⟩
  | readPast {a : Nat} : 4096 ≤ a → ServeRule m (.read a) ⟨.error (.outOfBounds a), m⟩
  | write {a : Nat} (b : UInt8) : a < 4096 →
    ServeRule m (.write a b) ⟨.ok .nothing, { m with ram := m.ram.put a b }⟩
  | writePast {a : Nat} (b : UInt8) : 4096 ≤ a →
    ServeRule m (.write a b) ⟨.error (.outOfBounds a), m⟩
  | push {a : UInt16} {stack : CallStack} : m.stack.returns.length < 16 →
    stack.returns = a :: m.stack.returns →
    ServeRule m (.push a) ⟨.ok .nothing, { m with stack }⟩
  | full (a : UInt16) : m.stack.returns.length = 16 →
    ServeRule m (.push a) ⟨.error .stackOverflow, m⟩
  | pop {a : UInt16} {stack : CallStack} : m.stack.returns = a :: stack.returns →
    ServeRule m .pop ⟨.ok (.address a), { m with stack }⟩
  | nonePending : m.stack.returns = [] → ServeRule m .pop ⟨.error .stackUnderflow, m⟩

theorem serveRule (m : Memory) (x : Access) : m.ServeRule x (m.serve x) := by
  cases x with
  | reset => exact .reset
  | load program =>
    by_cases h : program.size ≤ 3584
    · obtain ⟨ram, hram⟩ := Ram.load_eq_ok h m.ram
      simp only [serve, Memory.load, hram]
      exact .load h hram
    · have hram : m.ram.load program = .error (.programTooLarge program.size) := if_neg h
      simp only [serve, Memory.load, hram]
      exact .tooLarge (Nat.not_le.1 h)
  | read a =>
    by_cases h : a < 4096
    · simp only [serve, Memory.read, Ram.read_eq_ok _ h]
      exact .read h
    · have hle : 4096 ≤ a := Nat.not_lt.1 h
      simp only [serve, Memory.read, Ram.read_of_le _ hle]
      exact .readPast hle
  | write a b =>
    by_cases h : a < 4096
    · simp only [serve, Memory.write, Ram.write_eq_ok _ h]
      exact .write b h
    · have hle : 4096 ≤ a := Nat.not_lt.1 h
      simp only [serve, Memory.write, Ram.write_eq_error _ hle]
      exact .writePast b hle
  | push a =>
    cases hpush : m.stack.push a with
    | ok stack =>
      have hreturns := CallStack.push_eq_ok_iff.1 hpush
      have hlength := stack.length_le
      rw [hreturns] at hlength
      simp only [serve, Memory.push, hpush]
      exact .push hlength hreturns
    | error f =>
      obtain ⟨hdepth, rfl⟩ := CallStack.push_eq_error_iff.1 hpush
      simp only [serve, Memory.push, hpush]
      exact .full a hdepth
  | pop =>
    cases hpop : m.stack.pop with
    | ok top =>
      obtain ⟨a, stack⟩ := top
      simp only [serve, Memory.pop, hpop]
      exact .pop (CallStack.pop_eq_ok_iff.1 hpop)
    | error f =>
      obtain ⟨hdepth, rfl⟩ := CallStack.pop_eq_error_iff.1 hpop
      simp only [serve, Memory.pop, hpop]
      exact .nonePending (List.length_eq_zero_iff.1 hdepth)

/-- How an access goes hangs on the bytes and the return addresses alone. -/
theorem ServeRule.answer_eq {bytes : Nat → UInt8} (h : m.ServeRule x t)
    (hbytes : ∀ a < 4096, m.ram.byte a = bytes a) :
    t.answer = x.answer bytes m.stack.returns := by
  cases h with
  | reset => rfl
  | load hsize _ => exact (if_pos hsize).symm
  | tooLarge hsize => exact (if_neg (Nat.not_le.2 hsize)).symm
  | read ha =>
    rw [hbytes _ ha]
    exact (if_pos ha).symm
  | readPast ha => exact (if_neg (Nat.not_lt.2 ha)).symm
  | write b ha => exact (if_pos ha).symm
  | writePast b ha => exact (if_neg (Nat.not_lt.2 ha)).symm
  | push hroom _ => exact (if_pos hroom).symm
  | full a hfull => exact (if_neg (Nat.not_lt.2 (Nat.le_of_eq hfull.symm))).symm
  | pop hreturns => rw [hreturns]; rfl
  | nonePending hreturns => rw [hreturns]; rfl

theorem ServeRule.byte_eq (h : m.ServeRule x t) {c : Nat} (hc : c < 4096) :
    t.memory.ram.byte c = (x.given c).getD (m.ram.byte c) := by
  cases h with
  | reset => exact Ram.byte_fresh c
  | @load program ram hsize hram =>
    by_cases hin : 0x200 ≤ c ∧ c < 0x200 + program.size
    · rw [Access.given, if_pos ⟨hsize, hin⟩]
      exact (Ram.byte_load hram c).trans (if_pos hin)
    · rw [Access.given, if_neg fun hgiven => hin hgiven.2]
      exact (Ram.byte_load hram c).trans (if_neg hin)
  | tooLarge hsize =>
    rw [Access.given, if_neg fun hgiven => Nat.not_le.2 hsize hgiven.1]
    rfl
  | @write a b ha =>
    by_cases hca : a = c
    · rw [Access.given, if_pos hca]
      exact (m.ram.byte_put a b c).trans (if_pos ⟨hca.symm, ha⟩)
    · rw [Access.given, if_neg hca]
      exact (m.ram.byte_put a b c).trans (if_neg fun hput => hca hput.1.symm)
  | @writePast a b ha =>
    have hca : a ≠ c := by omega
    rw [Access.given, if_neg hca]
    rfl
  | _ => rfl

theorem ServeRule.returns_eq (h : m.ServeRule x t) :
    t.memory.stack.returns = x.hold m.stack.returns := by
  cases h with
  | push hroom hreturns =>
    rw [Access.hold, if_pos hroom]
    exact hreturns
  | full a hfull =>
    rw [Access.hold, if_neg (Nat.not_lt.2 (Nat.le_of_eq hfull.symm))]
  | pop hreturns =>
    rw [Access.hold, hreturns]
    rfl
  | nonePending hreturns =>
    rw [Access.hold, hreturns]
    rfl
  | _ => rfl

theorem ServeRule.memory_eq (h : m.ServeRule x t) :
    t.memory =
      if x.usesStack then { m with stack := t.memory.stack } else { m with ram := t.memory.ram } := by
  cases h <;> rfl

theorem ServeRule.memory_of_error {f : Fault} (h : m.ServeRule x t) (hf : t.answer = .error f) :
    t.memory = m := by
  cases h with
  | tooLarge _ => rfl
  | readPast _ => rfl
  | writePast _ _ => rfl
  | full _ _ => rfl
  | nonePending _ => rfl
  | _ => cases hf

theorem byte_after (m : Memory) (xs : List Access) {c : Nat} (hc : c < 4096) :
    (m.after xs).ram.byte c = (xs.filterMap (Access.given c)).getLastD (m.ram.byte c) := by
  induction xs generalizing m with
  | nil => rfl
  | cons x xs ih =>
    rw [after, ih, (m.serveRule x).byte_eq hc, List.filterMap_cons]
    cases x.given c with
    | none => rfl
    | some b => exact List.getLastD_cons.symm

theorem returns_after (m : Memory) (xs : List Access) :
    (m.after xs).stack.returns = xs.foldl Access.hold m.stack.returns := by
  induction xs generalizing m with
  | nil => rfl
  | cons x xs ih => rw [after, ih, (m.serveRule x).returns_eq, List.foldl_cons]

theorem registers_serve (m : Memory) (x : Access) :
    (m.serve x).memory.registers = m.registers ∧ (m.serve x).memory.index = m.index := by
  rw [(m.serveRule x).memory_eq]
  cases x.usesStack <;> exact ⟨rfl, rfl⟩

theorem registers_after (m : Memory) (xs : List Access) :
    (m.after xs).registers = m.registers ∧ (m.after xs).index = m.index := by
  induction xs generalizing m with
  | nil => exact ⟨rfl, rfl⟩
  | cons x xs ih =>
    obtain ⟨hregisters, hindex⟩ := m.registers_serve x
    rw [after, ← hregisters, ← hindex]
    exact ih _

/-- A memory answers every access from what has been done with it since it was fresh. Each address
holds the byte that it was given last, by a write to it, by a program laid over it or by a reset;
the call stack holds the addresses that have been pushed and not popped. Programs up to the
capacity, addresses inside the memory, pushes below the depth of the stack and pops of a stack that
is not empty go through and nothing else does. What fails changes nothing, bytes and return
addresses do not bear on each other, and registers and index stay as they were. -/
theorem accesses_answer_by_history :
    (∀ xs x, ((fresh.after xs).serve x).answer =
      x.answer (Access.latest xs) (Access.pending xs)) ∧
    (∀ xs, (fresh.after xs).stack.returns = Access.pending xs ∧
      (fresh.after xs).registers = .zero ∧ (fresh.after xs).index = 0) ∧
    (∀ (m : Memory) x f, (m.serve x).answer = .error f → (m.serve x).memory = m) ∧
    ∀ (m : Memory) x, (m.serve x).memory =
      if x.usesStack then { m with stack := (m.serve x).memory.stack }
      else { m with ram := (m.serve x).memory.ram } := by
  refine ⟨fun xs x => ?_, fun xs => ⟨fresh.returns_after xs, fresh.registers_after xs⟩,
    fun m x f => (m.serveRule x).memory_of_error, fun m x => (m.serveRule x).memory_eq⟩
  have hreturns : (fresh.after xs).stack.returns = Access.pending xs := fresh.returns_after xs
  have hbytes (c : Nat) (hc : c < 4096) : (fresh.after xs).ram.byte c = Access.latest xs c := by
    have hfresh : fresh.ram.byte c = font[c]?.getD 0 := Ram.byte_fresh c
    rw [byte_after _ _ hc, hfresh]
    rfl
  rw [((fresh.after xs).serveRule x).answer_eq hbytes, hreturns]

/-- A program written over in part, a reset, and a write past the end of the memory. -/
theorem accesses_answer_by_history_overlapping :
    ((fresh.after [.load #[1, 2, 3], .write 0x201 9]).serve (.read 0x201)).answer = .ok (.byte 9) ∧
      ((fresh.after [.write 0x300 7, .push 4, .push 5, .reset, .pop]).serve (.read 0x300)).answer =
        .ok (.byte 0) ∧
      ((fresh.after [.write 0x300 7, .push 4, .push 5, .reset, .pop]).serve .pop).answer =
        .ok (.address 4) ∧
      (fresh.serve (.write 0x1000 1)).answer = .error (.outOfBounds 0x1000) ∧
      (fresh.serve (.write 0x1000 1)).memory = fresh := by
  obtain ⟨hanswer, -, hfails, -⟩ := accesses_answer_by_history
  have hpast : (fresh.serve (.write 0x1000 1)).answer = .error (.outOfBounds 0x1000) :=
    hanswer [] (.write 0x1000 1)
  refine ⟨?_, ?_, ?_, hpast, hfails _ _ _ hpast⟩
  · rw [hanswer]
    rfl
  · rw [hanswer]
    rfl
  · rw [hanswer]
    rfl

end Memory

end Chip8
