import Mathlib.Data.List.Induction
import Mathlib.Logic.Function.Basic

/-!
# The latest write of a key

A table that is written entry by entry holds under each key the value of the latest
write of that key, or what it held before if no write has the key.
-/

namespace LatestWrites

universe u v w
variable {ι : Type u} {κ : Type v} {ν : Type w} [DecidableEq κ] (key : ι → κ) (value : ι → ν)

/-- Take the writes in order. -/
def write (table : κ → ν) (writes : List ι) : κ → ν :=
  writes.foldl (fun table write => Function.update table (key write) (value write)) table

/-- The last write of a key. -/
def latest (writes : List ι) (entry : κ) : Option ι :=
  (writes.filter fun write => key write = entry).getLast?

theorem latest_append (writes : List ι) (last : ι) (entry : κ) :
    latest key (writes ++ [last]) entry =
      if key last = entry then some last else latest key writes entry := by
  rw [latest, List.filter_append]
  by_cases same : key last = entry
  · simp [same]
  · simp [same, latest]

/-- A key that no write has. -/
theorem latest_eq_none (writes : List ι) (entry : κ)
    (elsewhere : ∀ write ∈ writes, key write ≠ entry) : latest key writes entry = none := by
  have none : (writes.filter fun write => key write = entry) = [] := by
    rw [List.filter_eq_nil_iff]
    intro write listed
    simpa using elsewhere write listed
  rw [latest, none]
  rfl

theorem write_apply (table : κ → ν) (writes : List ι) (entry : κ) :
    write key value table writes entry =
      ((latest key writes entry).map value).getD (table entry) := by
  induction writes using List.reverseRecOn with
  | nil => rfl
  | append_singleton writes last inductionHypothesis =>
    rw [latest_append, write, List.foldl_append]
    change Function.update (write key value table writes) (key last) (value last) entry = _
    by_cases same : key last = entry
    · rw [if_pos same, ← same, Function.update_self]
      rfl
    · rw [if_neg same, Function.update_of_ne (Ne.symm same), inductionHypothesis]

end LatestWrites
