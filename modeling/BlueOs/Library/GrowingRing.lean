import Mathlib.Data.List.Chain
import Mathlib.Data.List.Nodup

/-!
# Visiting a ring that grows

Positions are numbered from zero, and a ring of some size has the positions below
it. A visit goes to the next position, modulo the size the ring has at that time;
between visits the ring may grow, by new positions after the old ones.

Between two consecutive visits of one position, the positions after it are visited
in order up to the size at which the walk turned, and then those before it. So every
other position that was there at the first visit is visited once, and a position
that came later at most once.
-/

namespace GrowingRing

/-- A visited position, with the size of the ring then. -/
structure Visit where
  position : Nat
  size : Nat
deriving DecidableEq

def Visit.Inside (visit : Visit) : Prop := visit.position < visit.size

/-- A visit that follows another one, on a ring that may have grown. -/
def Follows (visit later : Visit) : Prop :=
  visit.size ≤ later.size ∧ later.position = (visit.position + 1) % later.size

/-- The next position is in the ring, one further or zero. -/
theorem follows_cases (visit later : Visit) (inside : visit.Inside)
    (follows : Follows visit later) : later.Inside ∧
      (visit.position + 1 < later.size ∧ later.position = visit.position + 1 ∨
        visit.position + 1 = later.size ∧ later.position = 0) := by
  obtain ⟨grown, next⟩ := follows
  simp only [Visit.Inside] at inside ⊢
  rw [next]
  by_cases room : visit.position + 1 < later.size
  · rw [Nat.mod_eq_of_lt room]
    exact ⟨room, Or.inl ⟨room, rfl⟩⟩
  · have full : visit.position + 1 = later.size := by omega
    rw [full, Nat.mod_self]
    exact ⟨by omega, Or.inr ⟨rfl, rfl⟩⟩

/-- The ring never shrinks. -/
theorem sizes_grow (first last : Visit) (between : List Visit)
    (walk : (first :: between ++ [last]).IsChain Follows) : first.size ≤ last.size := by
  induction between generalizing first with
  | nil => exact (List.isChain_pair.mp walk).1
  | cons visit rest inductionHypothesis =>
    obtain ⟨follows, tail⟩ := List.isChain_cons_cons.mp walk
    exact follows.1.trans (inductionHypothesis visit tail)

/-- A walk that is still before a position of the ring goes straight to it. -/
theorem approach (target : Nat) (first last : Visit) (between : List Visit)
    (walk : (first :: between ++ [last]).IsChain Follows)
    (before : first.position < target) (inside : target < first.size)
    (reached : last.position = target) (new : ∀ visit ∈ between, visit.position ≠ target) :
    between.map Visit.position =
      List.range' (first.position + 1) (target - (first.position + 1)) := by
  induction between generalizing first with
  | nil =>
    obtain ⟨grown, next⟩ := List.isChain_pair.mp walk
    rw [Nat.mod_eq_of_lt (by omega), reached] at next
    simp [next]
  | cons visit rest inductionHypothesis =>
    obtain ⟨⟨grown, next⟩, tail⟩ := List.isChain_cons_cons.mp walk
    rw [Nat.mod_eq_of_lt (by omega)] at next
    have other : visit.position ≠ target := new visit List.mem_cons_self
    have steps : target - (first.position + 1) = target - (visit.position + 1) + 1 := by omega
    rw [List.map_cons, steps, List.range'_succ, ← next,
      inductionHypothesis visit tail (by omega) (by omega)
        (fun later member => new later (List.mem_cons_of_mem visit member))]

/-- A walk that is at a position or past it goes on to the size at which it turns,
and from zero to that position. -/
theorem lap (target : Nat) (first last : Visit) (between : List Visit)
    (walk : (first :: between ++ [last]).IsChain Follows)
    (past : target ≤ first.position) (inside : first.Inside)
    (reached : last.position = target) (new : ∀ visit ∈ between, visit.position ≠ target) :
    ∃ turn, first.size ≤ turn ∧ turn ≤ last.size ∧ between.map Visit.position =
      List.range' (first.position + 1) (turn - (first.position + 1)) ++ List.range target := by
  induction between generalizing first with
  | nil =>
    have follows := List.isChain_pair.mp walk
    obtain ⟨-, ⟨-, next⟩ | ⟨full, zero⟩⟩ := follows_cases first last inside follows
    · omega
    · have origin : target = 0 := by omega
      exact ⟨last.size, follows.1, Nat.le_refl _, by simp [full, origin]⟩
  | cons visit rest inductionHypothesis =>
    obtain ⟨follows, tail⟩ := List.isChain_cons_cons.mp walk
    have later : ∀ other ∈ rest, other.position ≠ target := fun other member =>
      new other (List.mem_cons_of_mem visit member)
    obtain ⟨visitInside, ⟨room, next⟩ | ⟨full, zero⟩⟩ := follows_cases first visit inside follows
    · obtain ⟨turn, low, high, visited⟩ :=
        inductionHypothesis visit tail (by omega) visitInside later
      have steps : turn - (first.position + 1) = turn - (visit.position + 1) + 1 := by omega
      refine ⟨turn, follows.1.trans low, high, ?_⟩
      rw [List.map_cons, visited, steps, List.range'_succ, ← next, List.cons_append]
    · -- The walk turns here; the position is still ahead of it.
      have other : visit.position ≠ target := new visit List.mem_cons_self
      have visited := approach target visit last rest tail (by omega)
        (by simp only [Visit.Inside] at inside; omega) reached later
      have ahead : target = target - (visit.position + 1) + 1 := by omega
      refine ⟨visit.size, follows.1, sizes_grow visit last rest tail, ?_⟩
      rw [List.map_cons, visited, ← full, Nat.sub_self, zero, List.range'_zero, List.nil_append,
        List.range_eq_range']
      conv_rhs => rw [ahead, zero, List.range'_succ]

/-- Between two consecutive visits of one position, every other position of the
ring at the first visit is visited once, and every later one at most once. -/
theorem visited_once (first last : Visit) (between : List Visit)
    (walk : (first :: between ++ [last]).IsChain Follows) (inside : first.Inside)
    (again : last.position = first.position)
    (new : ∀ visit ∈ between, visit.position ≠ first.position) :
    (∀ position < first.size, position ≠ first.position →
        (between.map Visit.position).count position = 1) ∧
      ∀ position, first.size ≤ position → (between.map Visit.position).count position ≤ 1 := by
  obtain ⟨turn, low, -, visited⟩ :=
    lap first.position first last between walk (Nat.le_refl _) inside again new
  have unique : (between.map Visit.position).Nodup := by
    rw [visited]
    refine List.nodup_append.mpr ⟨List.nodup_range', List.nodup_range, ?_⟩
    intro high after low before same
    have above := (List.mem_range'_1.mp after).1
    have below := List.mem_range.mp before
    omega
  constructor
  · intro position there other
    apply List.count_eq_one_of_mem unique
    rw [visited, List.mem_append, List.mem_range'_1, List.mem_range]
    omega
  · intro position _
    exact List.nodup_iff_count_le_one.mp unique position

end GrowingRing
