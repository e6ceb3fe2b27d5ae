import Mathlib.Data.Option.Basic

/-!
# Forests given by a parent function

A node knows its parent, and its depth is one more than its parent's; depths are
bounded. So a walk to parents ends, a walk to children ends, and a node has at most
one ancestor of each depth. `Choice` picks at most one child of every node, and
`bottom` follows the choices to the end.
-/

namespace ParentTree

universe u
variable {α : Type u}

structure Forest (α : Type u) where
  parent : α → Option α
  depth : α → Nat
  bound : Nat
  deeper : ∀ node above, parent node = some above → depth node = depth above + 1
  bounded : ∀ node, depth node ≤ bound

namespace Forest

variable (forest : Forest α)

/-- Going down one level leaves fewer levels below. -/
theorem levels_left (node above : α) (child : forest.parent node = some above) :
    forest.bound - forest.depth node < forest.bound - forest.depth above := by
  have deeper := forest.deeper node above child
  have bounded := forest.bounded node
  omega

/-- To prove something of every node, assume it of the children of a node. -/
theorem induction_down {motive : α → Prop}
    (step : ∀ node, (∀ child, forest.parent child = some node → motive child) → motive node)
    (node : α) : motive node := by
  induction levels : forest.bound - forest.depth node using Nat.strongRecOn generalizing node with
  | ind remaining inductionHypothesis =>
    refine step node fun child below => ?_
    exact inductionHypothesis _ (levels ▸ forest.levels_left child node below) child rfl

/-- To prove something of every node, assume it of the parent of a node. -/
theorem induction_up {motive : α → Prop}
    (step : ∀ node, (∀ above, forest.parent node = some above → motive above) → motive node)
    (node : α) : motive node := by
  induction level : forest.depth node using Nat.strongRecOn generalizing node with
  | ind remaining inductionHypothesis =>
    refine step node fun above child => ?_
    have deeper := forest.deeper node above child
    exact inductionHypothesis _ (by omega) above rfl

/-- The nodes reached from a node by going to children, itself included. -/
inductive Under (top : α) : α → Prop where
  | self : Under top top
  | child (node above : α) (below : forest.parent node = some above)
      (higher : Under top above) : Under top node

theorem Under.depth_le {forest : Forest α} {top node : α} (under : forest.Under top node) :
    forest.depth top ≤ forest.depth node := by
  induction under with
  | self => exact Nat.le_refl _
  | child node above below higher inductionHypothesis =>
    have deeper := forest.deeper node above below
    omega

theorem Under.trans {forest : Forest α} {top middle node : α} (upper : forest.Under top middle)
    (lower : forest.Under middle node) : forest.Under top node := by
  induction lower with
  | self => exact upper
  | child node above below higher inductionHypothesis =>
    exact .child node above below inductionHypothesis

/-- A node has one ancestor of each depth. -/
theorem under_unique (left right node : α) (level : forest.depth left = forest.depth right)
    (one : forest.Under left node) (other : forest.Under right node) : left = right := by
  induction one with
  | self =>
    cases other with
    | self => rfl
    | child _ above below higher =>
      have deeper := forest.deeper left above below
      have high := higher.depth_le
      omega
  | child node above below higher inductionHypothesis =>
    cases other with
    | self =>
      have deeper := forest.deeper right above below
      have high := higher.depth_le
      omega
    | child _ other belowOther higherOther =>
      rw [below] at belowOther
      cases belowOther
      exact inductionHypothesis higherOther

/-- Two children of one node have no descendant in common. -/
theorem siblings_apart (above left right node : α) (leftChild : forest.parent left = some above)
    (rightChild : forest.parent right = some above) (distinct : left ≠ right)
    (under : forest.Under left node) : ¬ forest.Under right node := by
  intro other
  have leftLevel := forest.deeper left above leftChild
  have rightLevel := forest.deeper right above rightChild
  exact distinct (forest.under_unique left right node (by omega) under other)

/-- At most one child of every node. -/
structure Choice where
  next : α → Option α
  below : ∀ node child, next node = some child → forest.parent child = some node

variable {forest}

/-- Follow the choices to the end. -/
def Choice.bottom (choice : forest.Choice) (node : α) : α :=
  match _chosen : choice.next node with
  | none => node
  | some child => choice.bottom child
termination_by forest.bound - forest.depth node
decreasing_by exact forest.levels_left child node (choice.below node child _chosen)

theorem Choice.bottom_none (choice : forest.Choice) (node : α) (ends : choice.next node = none) :
    choice.bottom node = node := by
  rw [Choice.bottom]
  split
  · rfl
  · simp_all

theorem Choice.bottom_some (choice : forest.Choice) (node child : α)
    (chosen : choice.next node = some child) : choice.bottom node = choice.bottom child := by
  rw [Choice.bottom]
  split
  · simp_all
  · simp_all

theorem Choice.bottom_under (choice : forest.Choice) (node : α) :
    forest.Under node (choice.bottom node) := by
  induction node using forest.induction_down with
  | step node inductionHypothesis =>
    cases chosen : choice.next node with
    | none =>
      rw [choice.bottom_none node chosen]
      exact .self
    | some child =>
      rw [choice.bottom_some node child chosen]
      have below := choice.below node child chosen
      exact (Under.child child node below .self).trans (inductionHypothesis child below)

end Forest

end ParentTree
