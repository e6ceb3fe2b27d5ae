import Mathlib.Data.List.Basic
import Mathlib.Order.Lattice

/-!
# The leftmost least entry of a table

A search walks a table from the left and keeps a champion among the entries it may
choose. A strict comparison replaces the champion only by a smaller entry, so the
champion is the leftmost of the least entries seen. The rules follow the search:
one for the first entry that may be chosen, one for an entry that overtakes the
champion and one for an entry that does not.
-/

namespace LeftmostLeast

universe u v
variable {β : Type u} {α : Type v} [LinearOrder α] (key : β → α) (eligible : β → Prop)

/-- The entry at the slot may be chosen, none that may be chosen has a smaller key,
and those to its left have larger ones. -/
structure Chosen (table : List β) (slot : Nat) (entry : β) : Prop where
  here : table[slot]? = some entry
  allowed : eligible entry
  least : ∀ other ∈ table, eligible other → key entry ≤ key other
  leftmost : ∀ left < slot, ∀ other, table[left]? = some other → eligible other →
    key entry < key other

/-- No entry may be chosen. -/
def Vacant (table : List β) : Prop := ∀ entry ∈ table, ¬ eligible entry

variable {key eligible} {table : List β} {slot : Nat} {entry : β}

theorem Chosen.inside (chosen : Chosen key eligible table slot entry) : slot < table.length :=
  (List.getElem?_eq_some_iff.mp chosen.here).1

theorem Chosen.member (chosen : Chosen key eligible table slot entry) : entry ∈ table :=
  List.mem_of_getElem? chosen.here

variable (key) in
/-- After entries that may not be chosen, one that may is the champion. -/
theorem chosen_first (vacant : Vacant eligible table) (candidate : β)
    (allowed : eligible candidate) :
    Chosen key eligible (table ++ [candidate]) table.length candidate := by
  constructor
  · simp
  · exact allowed
  · intro other member otherAllowed
    rcases List.mem_append.mp member with before | here
    · exact absurd otherAllowed (vacant other before)
    · rw [List.mem_singleton.mp here]
  · intro left before other there otherAllowed
    rw [List.getElem?_append_left before] at there
    exact absurd otherAllowed (vacant other (List.mem_of_getElem? there))

/-- A smaller entry becomes the champion. -/
theorem Chosen.overtaken (chosen : Chosen key eligible table slot entry) (candidate : β)
    (allowed : eligible candidate) (smaller : key candidate < key entry) :
    Chosen key eligible (table ++ [candidate]) table.length candidate := by
  constructor
  · simp
  · exact allowed
  · intro other member otherAllowed
    rcases List.mem_append.mp member with before | here
    · exact le_of_lt (lt_of_lt_of_le smaller (chosen.least other before otherAllowed))
    · rw [List.mem_singleton.mp here]
  · intro left before other there otherAllowed
    rw [List.getElem?_append_left before] at there
    exact lt_of_lt_of_le smaller
      (chosen.least other (List.mem_of_getElem? there) otherAllowed)

/-- An entry that may not be chosen, or is not smaller, leaves the champion. -/
theorem Chosen.stays (chosen : Chosen key eligible table slot entry) (candidate : β)
    (weaker : eligible candidate → key entry ≤ key candidate) :
    Chosen key eligible (table ++ [candidate]) slot entry := by
  constructor
  · rw [List.getElem?_append_left chosen.inside]
    exact chosen.here
  · exact chosen.allowed
  · intro other member otherAllowed
    rcases List.mem_append.mp member with before | here
    · exact chosen.least other before otherAllowed
    · rw [List.mem_singleton.mp here] at otherAllowed ⊢
      exact weaker otherAllowed
  · intro left before other there otherAllowed
    rw [List.getElem?_append_left (Nat.lt_trans before chosen.inside)] at there
    exact chosen.leftmost left before other there otherAllowed

theorem Vacant.extend (vacant : Vacant eligible table) (candidate : β)
    (refused : ¬ eligible candidate) : Vacant eligible (table ++ [candidate]) := by
  intro other member
  rcases List.mem_append.mp member with before | here
  · exact vacant other before
  · rw [List.mem_singleton.mp here]
    exact refused

/-- The key chosen from a table does not depend on the order of its entries. -/
theorem Chosen.key_eq_of_perm (chosen : Chosen key eligible table slot entry) {other : List β}
    (reordered : other.Perm table) {rival : Nat} {rivalEntry : β}
    (rivals : Chosen key eligible other rival rivalEntry) : key rivalEntry = key entry :=
  le_antisymm (rivals.least entry (reordered.mem_iff.mpr chosen.member) chosen.allowed)
    (chosen.least rivalEntry (reordered.mem_iff.mp rivals.member) rivals.allowed)

end LeftmostLeast
