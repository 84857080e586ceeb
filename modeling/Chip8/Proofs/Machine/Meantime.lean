import Chip8.Proofs.Machine.Change

namespace Chip8

/-- The key that an event sets. -/
def Event.key? : Event → Option UInt8
  | .key k => some k
  | _ => none

/-- The keys that are set in a run, in order. -/
def keysSet (es : List Event) : List UInt8 := es.filterMap Event.key?

namespace Operation

/-- The operations that look at the timer or set it. -/
def usesDelay : Operation → Bool
  | .readDelay _ | .setDelay _ => true
  | _ => false

/-- The operations that look at the key. -/
def readsKey : Operation → Bool
  | .skipIfKey _ | .skipUnlessKey _ => true
  | _ => false

theorem Encodes.of_usesDelay {i : Instruction} {o : Operation} (hi : o.Encodes i)
    (h : o.usesDelay = true) : i.selector = 0xF ∧ (i.immediate = 0x07 ∨ i.immediate = 0x15) := by
  cases o with
  | readDelay x => exact ⟨hi.1, .inl hi.2.1⟩
  | setDelay x => exact ⟨hi.1, .inr hi.2.1⟩
  | _ => cases h

theorem Encodes.of_readsKey {i : Instruction} {o : Operation} (hi : o.Encodes i)
    (h : o.readsKey = true) : i.selector = 0xE ∧ (i.immediate = 0x9E ∨ i.immediate = 0xA1) := by
  cases o with
  | skipIfKey x => exact ⟨hi.1, .inl hi.2.1⟩
  | skipUnlessKey x => exact ⟨hi.1, .inr hi.2.1⟩
  | _ => cases h

variable {f g : UInt8 → UInt8}

theorem spares_of_uses {o : Operation} (hf : o.usesDelay = true → f = id)
    (hg : o.readsKey = true → g = id) : Change.Spares { delay := f, key := g } o := by
  cases o with
  | readDelay x | setDelay x => exact hf rfl
  | skipIfKey x | skipUnlessKey x => exact hg rfl
  | clear | draw x y height | random x mask => exact rfl
  | _ => trivial

end Operation

namespace Machine

/-- A machine with another timer and another key. -/
def adjust (m : Machine) (f g : UInt8 → UInt8) : Machine :=
  { m with delay := f m.delay, key := g m.key }

/-- A machine after some timer ticks and after some keys have been set. -/
def elapse (m : Machine) (count : Nat) (keys : List UInt8) : Machine :=
  m.adjust (fun d => UInt8.ofNat (d.toNat - count)) (fun k => keys.getLastD k)

/-- Whether the next tick has to do with the timer. -/
def TouchesTimer (m : Machine) : Prop :=
  m.TakesUp fun i => i.selector = 0xF ∧ (i.immediate = 0x07 ∨ i.immediate = 0x15)

/-- Whether the next tick looks at the key. -/
def WatchesKey (m : Machine) : Prop :=
  m.isAwaitingKey = true ∨
    m.TakesUp fun i => i.selector = 0xE ∧ (i.immediate = 0x9E ∨ i.immediate = 0xA1)

variable {m : Machine} {f g : UInt8 → UInt8}

/-- A tick that has nothing to do with the timer goes the same way whatever it shows, and likewise
for the key. -/
theorem tick_adjust (hf : m.TouchesTimer → f = id) (hg : m.WatchesKey → g = id) :
    (m.adjust f g).tick = { m.tick with machine := m.tick.machine.adjust f g } := by
  refine tick_change (c := { delay := f, key := g }) rfl (fun h => hg (.inl h)) fun i hi => ?_
  refine Operation.spares_of_uses (fun h => hf ?_) (fun h => hg (.inr ?_))
  · exact ⟨i, hi, i.encodes_operation.of_usesDelay h⟩
  · exact ⟨i, hi, i.encodes_operation.of_readsKey h⟩

theorem elapse_zero_nil (m : Machine) : m.elapse 0 [] = m := by
  have hdelay : UInt8.ofNat (m.delay.toNat - 0) = m.delay := UInt8.ofNat_toNat
  exact congrArg (fun d => { m with delay := d }) hdelay

theorem elapse_elapse (m : Machine) (count count' : Nat) (keys keys' : List UInt8) :
    (m.elapse count keys).elapse count' keys' = m.elapse (count + count') (keys ++ keys') := by
  have hlt : m.delay.toNat - count < 256 := Nat.lt_of_le_of_lt (Nat.sub_le ..) m.delay.toNat_lt
  have hdelay : UInt8.ofNat ((UInt8.ofNat (m.delay.toNat - count)).toNat - count') =
      UInt8.ofNat (m.delay.toNat - (count + count')) := by
    rw [UInt8.toNat_ofNat_of_lt' hlt, Nat.sub_add_eq]
  have hkey : keys'.getLastD (keys.getLastD m.key) = (keys ++ keys').getLastD m.key := by
    simp only [List.getLastD_eq_getLast?, List.getLast?_append]
    cases keys'.getLast? <;> rfl
  unfold elapse adjust
  dsimp only
  rw [hdelay, hkey]

theorem timerTick_eq_elapse (m : Machine) : m.timerTick = m.elapse 1 [] := by
  have hsucc := m.timerTicks_succ 0
  rw [timerTicks_zero] at hsucc
  exact hsucc.symm

theorem setKey_eq_elapse (m : Machine) (k : UInt8) : m.setKey k = m.elapse 0 [k] := by
  have hdelay : UInt8.ofNat (m.delay.toNat - 0) = m.delay := UInt8.ofNat_toNat
  exact congrArg (fun d => { m with delay := d, key := k }) hdelay.symm

theorem elapse_cons_timer (m : Machine) (es : List Event) :
    m.elapse ((Event.timer :: es).count .timer) (keysSet (.timer :: es)) =
      m.timerTick.elapse (es.count .timer) (keysSet es) := by
  rw [timerTick_eq_elapse, elapse_elapse, List.count_cons_self, Nat.add_comm]
  rfl

theorem elapse_cons_key (m : Machine) (k : UInt8) (es : List Event) :
    m.elapse ((Event.key k :: es).count .timer) (keysSet (.key k :: es)) =
      (m.setKey k).elapse (es.count .timer) (keysSet es) := by
  have hcount : (Event.key k :: es).count .timer = es.count .timer :=
    List.count_cons_of_ne (by simp)
  rw [setKey_eq_elapse, elapse_elapse, hcount, Nat.zero_add]
  rfl

end Machine

end Chip8
