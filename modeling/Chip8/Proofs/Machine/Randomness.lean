import Chip8.Proofs.Machine.Change
import Chip8.Proofs.Machine.Interleaving

namespace Chip8

namespace ByteSource

variable (s : ByteSource)

theorem drop_drop (a b : Nat) : (s.drop a).drop b = s.drop (a + b) :=
  congrArg (ByteSource.mk s.stream) (Nat.add_assoc s.taken a b)

theorem take_add (a b : Nat) : s.take (a + b) = s.take a ++ (s.drop a).take b := by
  simp [take, drop, List.range_add, Nat.add_assoc, Function.comp_def]

/-- Sources that agree on some bytes agree on the first of them, and then on the others. -/
theorem take_add_inj {s t : ByteSource} {a b : Nat} (h : s.take (a + b) = t.take (a + b)) :
    s.take a = t.take a ∧ (s.drop a).take b = (t.drop a).take b := by
  rw [take_add, take_add] at h
  exact List.append_inj h (by simp [take])

end ByteSource

/-- Whether a word asks for a random byte. -/
def Instruction.isRandom (i : Instruction) : Bool := i.selector == 0xC

theorem Instruction.isRandom_iff {i : Instruction} :
    i.isRandom = true ↔ i.operation = .random i.x i.immediate := by
  simp [isRandom, operation_eq_iff, Operation.Encodes]

namespace Machine

/-- The instructions of a run that ask for a random byte, in order. -/
def randomWords (m : Machine) (es : List Event) : List Instruction :=
  (m.completions es).filter Instruction.isRandom

/-- The same machine with another source of random bytes. -/
def withRandom (m : Machine) (random : ByteSource) : Machine := { m with random }

variable {m : Machine} {s : ByteSource}

theorem completions_append (m : Machine) (es fs : List Event) :
    m.completions (es ++ fs) = m.completions es ++ (m.after es).completions fs := by
  rw [completions, atTicks_append, List.filterMap_append]
  rfl

theorem randomWords_cons (m : Machine) (e : Event) (es : List Event) :
    m.randomWords (e :: es) = m.randomWords [e] ++ (m.respond e).machine.randomWords es := by
  have hsplit := m.completions_append [e] es
  rw [randomWords, ← List.singleton_append, hsplit, List.filter_append]
  rfl

theorem completed_of_isRandom {i : Instruction} (h : m.dispatched = some i)
    (hi : i.isRandom = true) : m.completed = some i := by
  obtain ⟨hmode, hfetch⟩ := dispatched_eq_some_iff.1 h
  refine completed_eq_some_iff.2 ⟨hmode, hfetch, ?_⟩
  rw [Instruction.isRandom_iff.1 hi]
  exact overrun_zero _

theorem tick_of_isRandom {i : Instruction} (h : m.dispatched = some i) (hi : i.isRandom = true) :
    m.tick =
      { result := .ok .executed
        machine := (m.pass i).randomize i.x i.immediate
        log := [.fetched m.pc i] } := by
  obtain ⟨hmode, hfetch, hobstacle⟩ := completed_eq_some_iff.1 (completed_of_isRandom h hi)
  rw [tick_of_fetch hmode hfetch, hobstacle, Instruction.isRandom_iff.1 hi]
  rfl

/-- The two ways of an event with the source: it makes the machine take a byte, or it has nothing to
do with it. -/
inductive RandomRule (m : Machine) (e : Event) : Prop
  | take (i : Instruction) : e = .tick → m.dispatched = some i → i.isRandom = true →
    m.randomWords [e] = [i] → RandomRule m e
  | keep : m.randomWords [e] = [] →
    (∀ s, (m.withRandom s).respond e =
      { m.respond e with machine := (m.respond e).machine.withRandom s }) → RandomRule m e

theorem spares_of_ne_random {o : Operation} (h : ∀ x b, o ≠ .random x b)
    (f : ByteSource → ByteSource) : Change.Spares { random := f } o := by
  cases o with
  | random x b => exact absurd rfl (h x b)
  | _ => simp [Change.Spares]

theorem randomWords_tick (m : Machine) :
    m.randomWords [.tick] = m.completed.toList.filter Instruction.isRandom := by
  rw [randomWords, completions_cons]
  exact congrArg _ (List.append_nil _)

theorem randomRule (m : Machine) (e : Event) : m.RandomRule e := by
  cases e with
  | timer => exact .keep rfl fun s => rfl
  | key k => exact .keep rfl fun s => rfl
  | tick =>
    by_cases htakes : ∃ i, m.dispatched = some i ∧ i.isRandom = true
    · obtain ⟨i, hi, hrandom⟩ := htakes
      refine .take i rfl hi hrandom ?_
      simp [randomWords_tick, completed_of_isRandom hi hrandom, hrandom]
    · have hother (i : Instruction) (hi : m.dispatched = some i) : ¬ i.isRandom = true :=
        fun hrandom => htakes ⟨i, hi, hrandom⟩
      refine .keep ?_ fun s => ?_
      · rw [randomWords_tick, List.filter_eq_nil_iff]
        intro i hi
        obtain ⟨hmode, hfetch, -⟩ := completed_eq_some_iff.1 (Option.mem_toList.1 hi)
        exact hother i (dispatched_eq_some_iff.2 ⟨hmode, hfetch⟩)
      · have htick : (m.withRandom s).tick =
            { m.tick with machine := m.tick.machine.withRandom s } := by
          refine tick_change (c := { random := fun _ => s }) rfl (fun _ => rfl) fun i hi => ?_
          refine spares_of_ne_random (fun x b ho => hother i hi ?_) _
          have hselector : i.selector = 0xC := (Instruction.operation_eq_iff.1 ho).1
          exact beq_iff_eq.2 hselector
        rw [respond, htick]
        rfl

theorem random_respond (m : Machine) (e : Event) :
    (m.respond e).machine.random = m.random.drop (m.randomWords [e]).length := by
  cases m.randomRule e with
  | take i he hi hrandom hwords =>
    subst he
    rw [hwords, respond, tick_of_isRandom hi hrandom]
    rfl
  | keep hwords hkeep =>
    rw [hwords]
    exact congrArg (fun r => r.machine.random) (hkeep m.random)

/-- A run has used up as many bytes as it has carried out words that ask for one. -/
theorem random_after (m : Machine) (es : List Event) :
    (m.after es).random = m.random.drop (m.randomWords es).length := by
  induction es generalizing m with
  | nil => rfl
  | cons e es ih =>
    rw [after_cons, ih, random_respond, ByteSource.drop_drop, randomWords_cons m e es,
      List.length_append]

/-- An event that takes no other bytes from a second source than from the first goes the same
way. -/
theorem respond_withRandom {e : Event}
    (h : m.random.take (m.randomWords [e]).length = s.take (m.randomWords [e]).length) :
    (m.withRandom s).respond e =
      { m.respond e with
        machine := (m.respond e).machine.withRandom (s.drop (m.randomWords [e]).length) } := by
  cases m.randomRule e with
  | take i he hi hrandom hwords =>
    subst he
    rw [hwords] at h ⊢
    have hhead : m.random.head = s.head := List.singleton_inj.1 h
    have hi' : (m.withRandom s).dispatched = some i := hi
    have hmachine : ((m.withRandom s).pass i).randomize i.x i.immediate =
        ((m.pass i).randomize i.x i.immediate).withRandom (s.drop 1) := by
      have hsame : ((m.withRandom s).pass i).random.head = (m.pass i).random.head := hhead.symm
      rw [randomize, randomize, hsame]
      rfl
    rw [respond, respond, tick_of_isRandom hi hrandom, tick_of_isRandom hi' hrandom, hmachine]
    rfl
  | keep hwords hkeep =>
    rw [hwords]
    exact hkeep s

end Machine

/-- The same response of a machine with another source of random bytes. -/
def Response.withRandom (r : Response) (random : ByteSource) : Response :=
  { r with machine := r.machine.withRandom random }

namespace Machine

variable {m : Machine} {s : ByteSource}

/-- Two sources are not told apart before a byte is taken in which they differ. -/
theorem history_withRandom {es : List Event}
    (h : m.random.take (m.randomWords es).length = s.take (m.randomWords es).length)
    (t : ByteSource) :
    ((m.withRandom s).history es).map (·.withRandom t) = (m.history es).map (·.withRandom t) := by
  induction es generalizing m s with
  | nil => rfl
  | cons e es ih =>
    -- the first event takes its bytes from the front of both sources, the others take the rest
    rw [randomWords_cons m e es, List.length_append] at h
    obtain ⟨hfirst, hrest⟩ := ByteSource.take_add_inj h
    rw [← random_respond] at hrest
    have hrespond := respond_withRandom hfirst
    have htail := ih hrest
    rw [history, history, hrespond, List.map_cons, List.map_cons, htail]
    rfl

theorem boot_withRandom (program : Array UInt8) (d : Dialect) (source source' : ByteSource) :
    boot program d source' = (boot program d source).map (·.withRandom source') := by
  unfold boot
  cases Memory.fresh.load program <;> rfl

/-- Random bytes are taken by the instructions that ask for one and by nothing else, one each and in
order. So two machines that start with one program, under one dialect, and get the same events go
the same way, apart from their sources, as long as no byte has been taken in which their sources
differ. -/
theorem random_bytes_in_order {program : Array UInt8} {d : Dialect} {source : ByteSource}
    {m : Machine} (hm : boot program d source = .ok m) :
    (∀ es, (m.after es).random = source.drop (m.randomWords es).length) ∧
    (∀ es i, (m.after es).completed = some i → i.selector = 0xC →
      (m.after es).tick.machine =
        (((m.after es).pass i).setRegister i.x
          (source.stream (source.taken + (m.randomWords es).length) &&& i.immediate)).withRandom
            (source.drop ((m.randomWords es).length + 1))) ∧
    ∀ source' n, source.take n = source'.take n →
      boot program d source' = .ok (m.withRandom source') ∧
      ∀ es, (m.randomWords es).length ≤ n → ∀ s,
        ((m.withRandom source').history es).map (·.withRandom s) =
          (m.history es).map (·.withRandom s) := by
  have hsource : m.random = source := by
    obtain ⟨ram, -, rfl⟩ := boot_eq_ok hm
    rfl
  have hafter (es : List Event) :
      (m.after es).random = source.drop (m.randomWords es).length := by
    rw [random_after, hsource]
  refine ⟨hafter, fun es i hi hselector => ?_, fun source' n hagree => ⟨?_, fun es hes s => ?_⟩⟩
  · obtain ⟨hmode, hfetch, -⟩ := completed_eq_some_iff.1 hi
    have hrandom : i.isRandom = true := beq_iff_eq.2 hselector
    have hleft : ((m.after es).pass i).random = source.drop (m.randomWords es).length := hafter es
    rw [tick_of_isRandom (dispatched_eq_some_iff.2 ⟨hmode, hfetch⟩) hrandom, randomize, hleft,
      ByteSource.drop_drop]
    rfl
  · rw [boot_withRandom program d source, hm]
    rfl
  · obtain ⟨more, rfl⟩ := Nat.exists_eq_add_of_le hes
    refine history_withRandom ?_ s
    rw [hsource]
    exact (ByteSource.take_add_inj hagree).1

/-- A program that takes two random bytes, with sources that differ in the second. -/
theorem random_bytes_in_order_masked :
    ∃ m, boot #[0xC0, 0x0F, 0xC1, 0xFF] .compliant (.cycling #[0xAB, 0x11]) = .ok m ∧
      (m.after [.tick, .key 7]).random = ByteSource.drop (.cycling #[0xAB, 0x11]) 1 ∧
      m.tick.machine.register 0 = 0x0B ∧
      ∀ s, ((m.withRandom (.cycling #[0xAB, 0x22])).history [.tick, .key 7]).map (·.withRandom s) =
        (m.history [.tick, .key 7]).map (·.withRandom s) := by
  have hboot : ∃ m, boot #[0xC0, 0x0F, 0xC1, 0xFF] .compliant (.cycling #[0xAB, 0x11]) = .ok m :=
    exists_boot (by decide) _ _
  obtain ⟨m, hm⟩ := hboot
  have hdispatched : m.dispatched = some ⟨0xC00F⟩ :=
    dispatched_eq_some_iff.2 ⟨mode_boot hm, fetch_boot hm (by decide)⟩
  have hcompleted : m.completed = some ⟨0xC00F⟩ := completed_of_isRandom hdispatched (by decide)
  have hwords : m.randomWords [.tick, .key 7] = [⟨0xC00F⟩] := by
    rw [randomWords_cons, randomWords_tick, hcompleted]
    rfl
  obtain ⟨hafter, hstored, hagree⟩ := random_bytes_in_order hm
  have htaken := hafter [.tick, .key 7]
  have hmachine := hstored [] _ hcompleted (by decide)
  rw [hwords] at htaken
  have hlength : (m.randomWords [.tick, .key 7]).length ≤ 1 := by
    rw [hwords]
    decide
  refine ⟨m, hm, htaken, ?_, (hagree _ 1 (by decide)).2 _ hlength⟩
  have hbyte : (m.after []).tick.machine.register 0 = 0xAB &&& 0x0F := by
    rw [hmachine]
    exact Registers.get_set_self ..
  exact hbyte.trans (by decide)

end Machine

end Chip8
