import Mathlib.Data.List.Basic

/-!
# Doubly linked nodes in an addressed store

A store is read by a function from addresses to nodes. `Linked` says that the
nodes found at the addresses of a list of items carry the next and previous
addresses of that list: each next is the address of the following item, each
previous that of the item before. A segment has an address before its first
item and one after its last; joining two segments joins these at the seam.

What a node looks like is a parameter: `expected item next prev` is the node an
item requires with these two links. The address that ends a list is not an
address of an item, and is a parameter too.
-/

namespace LinkedNodes

universe u v w
variable {α : Type u} {γ : Type v} {ν : Type w}
variable (address : γ → α) (expected : γ → α → α → ν)

/-- The address at which a segment is entered: its first item's, or the address
that follows an empty segment. -/
def entry (items : List γ) (next : α) : α := (items.head?.map address).getD next

/-- The address a following item has as its previous one. -/
def exit (prev : α) (items : List γ) : α := (items.getLast?.map address).getD prev

@[simp] theorem entry_nil (next : α) : entry address [] next = next := rfl

@[simp] theorem entry_cons (item : γ) (rest : List γ) (next : α) :
    entry address (item :: rest) next = address item := rfl

@[simp] theorem exit_nil (prev : α) : exit address prev [] = prev := rfl

@[simp] theorem exit_cons (item : γ) (rest : List γ) (prev : α) :
    exit address prev (item :: rest) = exit address (address item) rest := by
  cases last : rest.getLast? with
  | none => simp [exit, List.getLast?_cons, last]
  | some other => simp [exit, List.getLast?_cons, last]

theorem entry_append (left right : List γ) (next : α) :
    entry address (left ++ right) next = entry address left (entry address right next) := by
  cases left <;> simp [entry]

/-- Every item's node has the links of its place in the segment. -/
def Linked (read : α → ν) : α → List γ → α → Prop
  | _, [], _ => True
  | prev, item :: rest, next =>
    read (address item) = expected item (entry address rest next) prev ∧
      Linked read (address item) rest next

/-- A segment splits at every seam into two segments linked across it. -/
theorem linked_append (read : α → ν) (left right : List γ) (prev next : α) :
    Linked address expected read prev (left ++ right) next ↔
      Linked address expected read prev left (entry address right next) ∧
        Linked address expected read (exit address prev left) right next := by
  induction left generalizing prev with
  | nil => simp [Linked]
  | cons item rest inductionHypothesis =>
    simp only [List.cons_append, Linked, inductionHypothesis, entry_append, exit_cons, and_assoc]

/-- A segment depends only on the nodes at its own addresses. -/
theorem linked_congr (read other : α → ν) (items : List γ) (prev next : α)
    (same : ∀ item ∈ items, other (address item) = read (address item))
    (linked : Linked address expected read prev items next) :
    Linked address expected other prev items next := by
  induction items generalizing prev with
  | nil => trivial
  | cons item rest inductionHypothesis =>
    obtain ⟨node, tail⟩ := linked
    refine ⟨(same item List.mem_cons_self).trans node, ?_⟩
    exact inductionHypothesis (address item)
      (fun later member => same later (List.mem_cons_of_mem item member)) tail

/-- Two stores in which a segment is linked alike agree on its nodes. -/
theorem linked_agree (read other : α → ν) (items : List γ) (prev next : α)
    (one : Linked address expected read prev items next)
    (two : Linked address expected other prev items next) (item : γ) (member : item ∈ items) :
    other (address item) = read (address item) := by
  induction items generalizing prev with
  | nil => cases member
  | cons first rest inductionHypothesis =>
    rcases List.mem_cons.mp member with rfl | later
    · exact two.1.trans one.1.symm
    · exact inductionHypothesis (address first) one.2 two.2 later

/-- A tail may be exchanged for another that is entered at the same address, when
the store keeps the nodes before it. -/
theorem linked_replace (read other : α → ν) (before old new : List γ) (prev next : α)
    (linked : Linked address expected read prev (before ++ old) next)
    (kept : ∀ item ∈ before, other (address item) = read (address item))
    (entered : entry address new next = entry address old next)
    (tail : Linked address expected other (exit address prev before) new next) :
    Linked address expected other prev (before ++ new) next := by
  have front := ((linked_append address expected read before old prev next).mp linked).1
  refine (linked_append address expected other before new prev next).mpr ⟨?_, tail⟩
  rw [entered]
  exact linked_congr address expected read other before prev _ kept front

/-- Following the links determines the list. A segment entered where a whole
list is entered is a prefix of that list, and is left where the rest is entered.

Induct over the segment: the nodes at equal addresses are equal, so they require
equal items and equal next addresses. The ending address is not an item's, which
keeps the whole list from stopping inside the segment. -/
theorem linked_prefix (read : α → ν) (stop : α)
    (determined : ∀ left right leftNext rightNext prev, address left = address right →
      expected left leftNext prev = expected right rightNext prev →
        left = right ∧ leftNext = rightNext)
    (segment whole : List γ) (prev next : α)
    (proper : ∀ item ∈ segment, address item ≠ stop)
    (partly : Linked address expected read prev segment next)
    (wholly : Linked address expected read prev whole stop)
    (entered : entry address segment next = entry address whole stop) :
    ∃ rest, whole = segment ++ rest ∧ entry address rest stop = next := by
  induction segment generalizing whole prev with
  | nil => exact ⟨whole, rfl, entered.symm⟩
  | cons item rest inductionHypothesis =>
    cases whole with
    | nil => exact absurd entered (proper item List.mem_cons_self)
    | cons other tail =>
      have place : address item = address other := entered
      have nodes := partly.1.symm.trans ((congrArg read place).trans wholly.1)
      obtain ⟨rfl, following⟩ := determined item other _ _ prev place nodes
      obtain ⟨suffix, split, left⟩ := inductionHypothesis tail (address item)
        (fun later member => proper later (List.mem_cons_of_mem item member))
        partly.2 wholly.2 following
      exact ⟨suffix, by rw [split, List.cons_append], left⟩

end LinkedNodes
