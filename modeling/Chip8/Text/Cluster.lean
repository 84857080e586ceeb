import Chip8.Text.Joining

namespace Chip8

/-- Characters that are read as one. -/
abbrev Cluster := List Char

namespace Cluster

/-- The clusters of a text whose first cluster has begun already. What there is of that cluster is
given from its end, with the way each of its characters is joined. -/
def splitAfter (begun : List Char) (joins : List Joining) : List Char → List Cluster
  | [] => [begun.reverse]
  | c :: rest =>
    if Joining.continues joins (joining c) then splitAfter (c :: begun) (joining c :: joins) rest
    else begun.reverse :: splitAfter [c] [joining c] rest

/-- The clusters of a text, in order. -/
def split : List Char → List Cluster
  | [] => []
  | c :: rest => splitAfter [c] [joining c] rest

theorem flatten_splitAfter (begun : List Char) (joins : List Joining) (cs : List Char) :
    (splitAfter begun joins cs).flatten = begun.reverse ++ cs := by
  induction cs generalizing begun joins with
  | nil => simp [splitAfter]
  | cons c rest ih => rw [splitAfter]; split <;> simp [ih]

/-- Clusters keep every character, and the order. -/
@[simp] theorem flatten_split (cs : List Char) : (split cs).flatten = cs := by
  cases cs with
  | nil => rfl
  | cons c rest => simp [split, flatten_splitAfter]

theorem ne_nil_of_mem_splitAfter {begun : List Char} {joins : List Joining} {cs : List Char}
    (hbegun : begun ≠ []) : ∀ cluster ∈ splitAfter begun joins cs, cluster ≠ [] := by
  induction cs generalizing begun joins with
  | nil => simp [splitAfter, hbegun]
  | cons c rest ih =>
    rw [splitAfter]
    split
    · exact ih (by simp)
    · simp only [List.mem_cons, forall_eq_or_imp]
      exact ⟨by simpa using hbegun, ih (by simp)⟩

/-- No cluster is empty. -/
theorem ne_nil_of_mem_split {cs : List Char} : ∀ cluster ∈ split cs, cluster ≠ [] := by
  cases cs with
  | nil => simp [split]
  | cons c rest => exact ne_nil_of_mem_splitAfter (by simp)

theorem splitAfter_plain {c : Char} {cs : List Char} (hcs : ∀ d ∈ cs, joining d = .plain) :
    splitAfter [c] [.plain] cs = [c] :: cs.map ([·]) := by
  induction cs generalizing c with
  | nil => rfl
  | cons d rest ih =>
    have hd : joining d = .plain := hcs d (by simp)
    rw [splitAfter, hd, Joining.continues_plain]
    simp [ih fun e he => hcs e (by simp [he])]

/-- Plain characters are clusters of their own. -/
theorem split_of_plain {cs : List Char} (hcs : ∀ c ∈ cs, joining c = .plain) :
    split cs = cs.map ([·]) := by
  cases cs with
  | nil => rfl
  | cons c rest =>
    have hc : joining c = .plain := hcs c (by simp)
    rw [split, hc, splitAfter_plain fun d hd => hcs d (by simp [hd])]
    rfl

end Cluster

end Chip8
