import BlueOs.HitTesting

/-!
# Where a mouse move goes

A composite passes a move to the first child at the old position and to the first
child at the new position, once if they are one child. Below either child both
positions go along, so the same choice is made at every level. As long as no widget
occurs twice in the tree, every leaf is told once at most, and the leaves that a
press at either end would reach are told.
-/

namespace BlueOs.MotionDelivery

open VideoGraphicsArray WidgetTree

/-- Widgets in memory whose children can be followed to an end. -/
structure Hierarchy where
  widget : Address → Widget
  height : Address → Nat
  lower : ∀ self child, child ∈ (widget self).children → height child < height self

/-- A press that reaches a leaf, in the frame it is told in. -/
structure Press where
  widget : Address
  x : Word
  y : Word

/-- A move that reaches a leaf. -/
structure Move where
  widget : Address
  oldx : Word
  oldy : Word
  newx : Word
  newy : Word
deriving DecidableEq

/-- A shift of both positions does not change their distance. -/
theorem frame_cancels (one other shift place : Word) :
    one - shift - (other - shift - place) = one - (other - place) := by
  bv_omega

namespace Hierarchy

variable (tree : Hierarchy)

/-- All widgets of a tree, each as often as it occurs. -/
def nodes (self : Address) : List Address :=
  self :: (tree.widget self).children.attach.flatMap fun child => nodes child.val
termination_by tree.height self
decreasing_by exact tree.lower self child.val child.property

/-- `onMouseDown`: the leaf that handles a press, if any. -/
def onMouseDown (self : Address) (x y : Word) : Option Press :=
  match _kind : (tree.widget self).kind with
  | .leaf => some ⟨self, x, y⟩
  | .composite children =>
    let this := tree.widget self
    match _found : children.find? fun child =>
        (tree.widget child).containsCoordinate (x - this.x) (y - this.y) with
    | none => none
    | some child => onMouseDown child (x - this.x) (y - this.y)
termination_by tree.height self
decreasing_by
  apply tree.lower
  simp only [Widget.children, _kind]
  exact List.mem_of_find?_eq_some _found

/-- The first child of a composite that contains a position, with its index. -/
def first (self : Address) (x y : Word) : Option (Address × Nat) :=
  (tree.widget self).children.zipIdx.find? fun (child, _) =>
    (tree.widget child).containsCoordinate (x - (tree.widget self).x) (y - (tree.widget self).y)

theorem first_mem (self child : Address) (index : Nat) (x y : Word)
    (found : tree.first self x y = some (child, index)) : child ∈ (tree.widget self).children :=
  List.fst_mem_of_mem_zipIdx (List.mem_of_find?_eq_some found)

/-- `onMouseMove`: the leaves that handle a move, in order. -/
def onMouseMove (self : Address) (oldx oldy newx newy : Word) : List Move :=
  match (tree.widget self).kind with
  | .leaf => [⟨self, oldx, oldy, newx, newy⟩]
  | .composite _ =>
    let x := (tree.widget self).x
    let y := (tree.widget self).y
    let leaving := (tree.first self oldx oldy).map Prod.snd
    (match _found : tree.first self oldx oldy with
      | none => []
      | some (child, _) => onMouseMove child (oldx - x) (oldy - y) (newx - x) (newy - y)) ++
    (match _found : tree.first self newx newy with
      | none => []
      | some (child, i) =>
        if leaving ≠ some i then onMouseMove child (oldx - x) (oldy - y) (newx - x) (newy - y)
        else [])
termination_by tree.height self
decreasing_by
  · exact tree.lower self child (tree.first_mem self child _ _ _ _found)
  · exact tree.lower self child (tree.first_mem self child _ _ _ _found)

/-- To prove something of every widget, assume it of the children of a widget. -/
theorem induction_children {motive : Address → Prop}
    (step : ∀ self, (∀ child ∈ (tree.widget self).children, motive child) → motive self)
    (self : Address) : motive self := by
  induction levels : tree.height self using Nat.strongRecOn generalizing self with
  | ind height inductionHypothesis =>
    apply step self
    intro child member
    exact inductionHypothesis _ (levels ▸ tree.lower self child member) child rfl

theorem nodes_eq (self : Address) :
    tree.nodes self = self :: (tree.widget self).children.flatMap tree.nodes := by
  rw [nodes]
  simp only [List.flatMap_subtype, List.unattach_attach]

theorem self_mem_nodes (self : Address) : self ∈ tree.nodes self := by
  rw [nodes_eq]
  exact List.mem_cons_self

theorem child_nodes (self child : Address) (member : child ∈ (tree.widget self).children) :
    tree.nodes child ⊆ tree.nodes self := by
  intro node below
  rw [nodes_eq]
  exact List.mem_cons_of_mem _ (List.mem_flatMap.mpr ⟨child, member, below⟩)

/-- Without repetitions in the tree there are none below a child, and two children at
different places have no widget in common. -/
theorem distinct_children (self : Address) (distinct : (tree.nodes self).Nodup) :
    (∀ child ∈ (tree.widget self).children, (tree.nodes child).Nodup) ∧
      (tree.widget self).children.Pairwise fun left right =>
        (tree.nodes left).Disjoint (tree.nodes right) := by
  rw [nodes_eq] at distinct
  exact List.nodup_flatMap.mp (List.nodup_cons.mp distinct).2

/-- The index found is a place of the child found. -/
theorem first_getElem? (self child : Address) (index : Nat) (x y : Word)
    (found : tree.first self x y = some (child, index)) :
    (tree.widget self).children[index]? = some child :=
  List.mem_zipIdx_iff_getElem?.mp (List.mem_of_find?_eq_some found)

/-- Two places with one index hold one child. -/
theorem first_same (self one other : Address) (index : Nat) (x y x' y' : Word)
    (found : tree.first self x y = some (one, index))
    (found' : tree.first self x' y' = some (other, index)) : one = other := by
  have here := tree.first_getElem? self one index x y found
  rw [tree.first_getElem? self other index x' y' found'] at here
  exact (Option.some.inj here).symm

/-- Children found at different indices have no widget in common. -/
theorem first_apart (self one other : Address) (i j : Nat) (x y x' y' : Word)
    (distinct : (tree.nodes self).Nodup)
    (found : tree.first self x y = some (one, i))
    (found' : tree.first self x' y' = some (other, j)) (elsewhere : i ≠ j) :
    (tree.nodes one).Disjoint (tree.nodes other) := by
  obtain ⟨_, apart⟩ := tree.distinct_children self distinct
  obtain ⟨inside, here⟩ := List.getElem?_eq_some_iff.mp
    (tree.first_getElem? self one i x y found)
  obtain ⟨inside', here'⟩ := List.getElem?_eq_some_iff.mp
    (tree.first_getElem? self other j x' y' found')
  rw [List.pairwise_iff_getElem] at apart
  rw [← here, ← here']
  rcases Nat.lt_or_gt_of_ne elsewhere with before | after
  · exact apart i j inside inside' before
  · exact (apart j i inside' inside after).symm

/-- The search of a press is the search of a move without the index. -/
theorem first_fst (self : Address) (x y : Word) :
    (tree.first self x y).map Prod.fst =
      (tree.widget self).children.find? fun child =>
        (tree.widget child).containsCoordinate (x - (tree.widget self).x)
          (y - (tree.widget self).y) := by
  rw [first, ← List.zipIdx_map_fst 0 (tree.widget self).children, List.find?_map]
  simp only [List.zipIdx_map_fst]
  rfl

theorem onMouseDown_leaf (self : Address) (x y : Word)
    (leaf : (tree.widget self).isLeaf = true) :
    tree.onMouseDown self x y = some ⟨self, x, y⟩ := by
  rw [onMouseDown]
  split
  · rfl
  · simp_all [Widget.isLeaf]

theorem onMouseDown_composite (self : Address) (x y : Word)
    (composite : (tree.widget self).isLeaf = false) :
    tree.onMouseDown self x y = (tree.first self x y).bind fun found =>
      tree.onMouseDown found.1 (x - (tree.widget self).x) (y - (tree.widget self).y) := by
  have search := tree.first_fst self x y
  rw [onMouseDown]
  split
  case h_1 kind => simp_all [Widget.isLeaf]
  case h_2 children kind =>
    simp only [Widget.children, kind] at search
    dsimp only
    split
    case h_1 missed =>
      rw [missed, Option.map_eq_none_iff] at search
      rw [search]
      rfl
    case h_2 child found =>
      rw [found, Option.map_eq_some_iff] at search
      obtain ⟨pair, picked, rfl⟩ := search
      rw [picked]
      rfl

theorem onMouseMove_leaf (self : Address) (oldx oldy newx newy : Word)
    (leaf : (tree.widget self).isLeaf = true) :
    tree.onMouseMove self oldx oldy newx newy = [⟨self, oldx, oldy, newx, newy⟩] := by
  rw [onMouseMove]
  split
  · rfl
  · simp_all [Widget.isLeaf]

/-- The children that a composite passes a move to. -/
def told (self : Address) (oldx oldy newx newy : Word) : List Address :=
  match tree.first self oldx oldy, tree.first self newx newy with
  | none, none => []
  | some (left, _), none => [left]
  | none, some (entered, _) => [entered]
  | some (left, i), some (entered, j) => if i = j then [left] else [left, entered]

theorem onMouseMove_composite (self : Address) (oldx oldy newx newy : Word)
    (composite : (tree.widget self).isLeaf = false) :
    tree.onMouseMove self oldx oldy newx newy =
      (tree.told self oldx oldy newx newy).flatMap fun child =>
        tree.onMouseMove child (oldx - (tree.widget self).x) (oldy - (tree.widget self).y)
          (newx - (tree.widget self).x) (newy - (tree.widget self).y) := by
  rw [onMouseMove]
  split
  case h_1 kind => simp_all [Widget.isLeaf]
  case h_2 children kind =>
    rw [told]
    cases leaving : tree.first self oldx oldy with
    | none =>
      cases entering : tree.first self newx newy with
      | none => rfl
      | some found => simp
    | some left =>
      cases entering : tree.first self newx newy with
      | none => simp
      | some entered =>
        by_cases same : left.2 = entered.2
        · simp [same]
        · simp [same]

theorem left_told (self child : Address) (index : Nat) (oldx oldy newx newy : Word)
    (found : tree.first self oldx oldy = some (child, index)) :
    child ∈ tree.told self oldx oldy newx newy := by
  rw [told, found]
  cases tree.first self newx newy with
  | none => exact List.mem_cons_self
  | some entered =>
    dsimp only
    split <;> exact List.mem_cons_self

theorem entered_told (self child : Address) (index : Nat) (oldx oldy newx newy : Word)
    (found : tree.first self newx newy = some (child, index)) :
    child ∈ tree.told self oldx oldy newx newy := by
  rw [told, found]
  cases leaving : tree.first self oldx oldy with
  | none => exact List.mem_cons_self
  | some left =>
    dsimp only
    split
    case isTrue same =>
      -- The child that the pointer leaves is the child it enters.
      have stays := tree.first_same self left.1 child index oldx oldy newx newy
        (by rw [leaving, ← same]) found
      rw [stays]
      exact List.mem_cons_self
    case isFalse moved => exact List.mem_cons_of_mem _ List.mem_cons_self

theorem told_children (self : Address) (oldx oldy newx newy : Word) :
    tree.told self oldx oldy newx newy ⊆ (tree.widget self).children := by
  have old := tree.first_mem self
  intro child member
  rw [told] at member
  split at member
  case h_1 => cases member
  case h_2 left i leaving _ =>
    rw [List.mem_singleton.mp member]
    exact old left i oldx oldy leaving
  case h_3 entered j _ entering =>
    rw [List.mem_singleton.mp member]
    exact old entered j newx newy entering
  case h_4 left i entered j leaving entering =>
    have among := old left i oldx oldy leaving
    split at member
    · rw [List.mem_singleton.mp member]
      exact among
    · rcases List.mem_pair.mp member with rfl | rfl
      · exact among
      · exact old child j newx newy entering

/-- Two children told have no widget in common. -/
theorem told_apart (self : Address) (oldx oldy newx newy : Word)
    (distinct : (tree.nodes self).Nodup) :
    (tree.told self oldx oldy newx newy).Pairwise fun left right =>
      (tree.nodes left).Disjoint (tree.nodes right) := by
  rw [told]
  split
  case h_1 => exact List.Pairwise.nil
  case h_2 => exact List.pairwise_singleton _ _
  case h_3 => exact List.pairwise_singleton _ _
  case h_4 left i entered j leaving entering =>
    split
    · exact List.pairwise_singleton _ _
    case isFalse moved =>
      exact List.pairwise_pair.mpr
        (tree.first_apart self left entered i j oldx oldy newx newy distinct leaving entering moved)

/-- A move stays inside the tree. -/
theorem moved_nodes (self : Address) (oldx oldy newx newy : Word) :
    ∀ move ∈ tree.onMouseMove self oldx oldy newx newy, move.widget ∈ tree.nodes self := by
  induction self using tree.induction_children generalizing oldx oldy newx newy with
  | step self inductionHypothesis =>
    intro move member
    cases leaf : (tree.widget self).isLeaf with
    | true =>
      rw [tree.onMouseMove_leaf self _ _ _ _ leaf, List.mem_singleton] at member
      rw [member]
      exact tree.self_mem_nodes self
    | false =>
      rw [tree.onMouseMove_composite self _ _ _ _ leaf, List.mem_flatMap] at member
      obtain ⟨child, passed, below⟩ := member
      have among := tree.told_children self _ _ _ _ passed
      exact tree.child_nodes self child among (inductionHypothesis child among _ _ _ _ move below)

/-- No leaf is told twice. -/
theorem moved_distinct (self : Address) (oldx oldy newx newy : Word)
    (distinct : (tree.nodes self).Nodup) :
    ((tree.onMouseMove self oldx oldy newx newy).map Move.widget).Nodup := by
  induction self using tree.induction_children generalizing oldx oldy newx newy with
  | step self inductionHypothesis =>
    cases leaf : (tree.widget self).isLeaf with
    | true =>
      rw [tree.onMouseMove_leaf self _ _ _ _ leaf]
      exact List.nodup_singleton _
    | false =>
      rw [tree.onMouseMove_composite self _ _ _ _ leaf, List.map_flatMap, List.nodup_flatMap]
      constructor
      · intro child passed
        have among := tree.told_children self _ _ _ _ passed
        exact inductionHypothesis child among _ _ _ _
          ((tree.distinct_children self distinct).1 child among)
      · apply (tree.told_apart self oldx oldy newx newy distinct).imp
        intro left right apart node atLeft atRight
        obtain ⟨one, movedLeft, rfl⟩ := List.mem_map.mp atLeft
        obtain ⟨other, movedRight, same⟩ := List.mem_map.mp atRight
        have inRight := tree.moved_nodes right _ _ _ _ other movedRight
        rw [same] at inRight
        exact apart (tree.moved_nodes left _ _ _ _ one movedLeft) inRight

/-- The leaf at the old position is told, in the frame of a press. -/
theorem left_moved (self leaf : Address) (oldx oldy newx newy x y : Word)
    (pressed : tree.onMouseDown self oldx oldy = some ⟨leaf, x, y⟩) :
    ⟨leaf, x, y, newx - (oldx - x), newy - (oldy - y)⟩ ∈
      tree.onMouseMove self oldx oldy newx newy := by
  induction self using tree.induction_children generalizing oldx oldy newx newy with
  | step self inductionHypothesis =>
    cases kind : (tree.widget self).isLeaf with
    | true =>
      rw [tree.onMouseDown_leaf self _ _ kind] at pressed
      cases pressed
      rw [tree.onMouseMove_leaf leaf _ _ _ _ kind]
      simp only [BitVec.sub_self, BitVec.sub_zero, List.mem_singleton]
    | false =>
      rw [tree.onMouseDown_composite self _ _ kind, Option.bind_eq_some_iff] at pressed
      obtain ⟨⟨child, index⟩, found, below⟩ := pressed
      rw [tree.onMouseMove_composite self _ _ _ _ kind, List.mem_flatMap]
      refine ⟨child, tree.left_told self child index _ _ _ _ found, ?_⟩
      have moved := inductionHypothesis child (tree.first_mem self child index _ _ found) _ _
        (newx - (tree.widget self).x) (newy - (tree.widget self).y) below
      rw [frame_cancels, frame_cancels] at moved
      exact moved

/-- The leaf at the new position is told, in the frame of a press. -/
theorem entered_moved (self leaf : Address) (oldx oldy newx newy x y : Word)
    (pressed : tree.onMouseDown self newx newy = some ⟨leaf, x, y⟩) :
    ⟨leaf, oldx - (newx - x), oldy - (newy - y), x, y⟩ ∈
      tree.onMouseMove self oldx oldy newx newy := by
  induction self using tree.induction_children generalizing oldx oldy newx newy with
  | step self inductionHypothesis =>
    cases kind : (tree.widget self).isLeaf with
    | true =>
      rw [tree.onMouseDown_leaf self _ _ kind] at pressed
      cases pressed
      rw [tree.onMouseMove_leaf leaf _ _ _ _ kind]
      simp only [BitVec.sub_self, BitVec.sub_zero, List.mem_singleton]
    | false =>
      rw [tree.onMouseDown_composite self _ _ kind, Option.bind_eq_some_iff] at pressed
      obtain ⟨⟨child, index⟩, found, below⟩ := pressed
      rw [tree.onMouseMove_composite self _ _ _ _ kind, List.mem_flatMap]
      refine ⟨child, tree.entered_told self child index _ _ _ _ found, ?_⟩
      have moved := inductionHypothesis child (tree.first_mem self child index _ _ found)
        (oldx - (tree.widget self).x) (oldy - (tree.widget self).y) _ _ below
      rw [frame_cancels, frame_cancels] at moved
      exact moved

end Hierarchy

/-- A move that is there, among moves to distinct leaves, is all that its leaf gets. -/
theorem filter_widget (moves : List Move) (distinct : (moves.map Move.widget).Nodup)
    (move : Move) (member : move ∈ moves) :
    (moves.filter fun other => other.widget = move.widget) = [move] := by
  induction moves with
  | nil => cases member
  | cons head rest inductionHypothesis =>
    rw [List.map_cons, List.nodup_cons] at distinct
    obtain ⟨fresh, distinct⟩ := distinct
    rcases List.mem_cons.mp member with rfl | later
    · rw [List.filter_cons_of_pos (by simp), List.filter_eq_nil_iff.mpr]
      intro other below same
      exact fresh (List.mem_map.mpr ⟨other, below, of_decide_eq_true same⟩)
    · have other : head.widget ≠ move.widget := by
        intro same
        exact fresh (List.mem_map.mpr ⟨move, later, same.symm⟩)
      rw [List.filter_cons_of_neg (by simp [other])]
      exact inductionHypothesis distinct later

/-- A move is told to every leaf at most once, and exactly once to the leaf that a
press at the old position reaches and to the one that a press at the new position
reaches; each is told both positions in the frame it would be told that press in. -/
theorem move_told_once (tree : Hierarchy) (root : Address) (oldx oldy newx newy : Word)
    (distinct : (tree.nodes root).Nodup) :
    ((tree.onMouseMove root oldx oldy newx newy).map Move.widget).Nodup ∧
      (∀ leaf x y, tree.onMouseDown root oldx oldy = some ⟨leaf, x, y⟩ →
        ((tree.onMouseMove root oldx oldy newx newy).filter fun move => move.widget = leaf) =
          [⟨leaf, x, y, newx - (oldx - x), newy - (oldy - y)⟩]) ∧
      ∀ leaf x y, tree.onMouseDown root newx newy = some ⟨leaf, x, y⟩ →
        ((tree.onMouseMove root oldx oldy newx newy).filter fun move => move.widget = leaf) =
          [⟨leaf, oldx - (newx - x), oldy - (newy - y), x, y⟩] := by
  have once := tree.moved_distinct root oldx oldy newx newy distinct
  refine ⟨once, ?_, ?_⟩
  · intro leaf x y pressed
    exact filter_widget _ once _ (tree.left_moved root leaf oldx oldy newx newy x y pressed)
  · intro leaf x y pressed
    exact filter_widget _ once _ (tree.entered_moved root leaf oldx oldy newx newy x y pressed)

/-- The widgets of a layout, followed down only. -/
def ofLayout (layout : Layout) : Hierarchy where
  widget := layout.widget
  height self := layout.bound - layout.depth self
  lower := layout.child_levels

/-- In a layout a press is handled by the leaf that it reaches. -/
theorem onMouse_reached (layout : Layout) {σ : Type} (handle : Address → Word → Word → σ → σ)
    (self : Address) (x y : Word) (state : σ) :
    layout.onMouse handle self x y state =
      match (ofLayout layout).onMouseDown self x y with
      | none => state
      | some press => handle press.widget press.x press.y state := by
  induction self using (ofLayout layout).induction_children generalizing x y with
  | step self inductionHypothesis =>
    cases leaf : (layout.widget self).isLeaf with
    | true =>
      rw [layout.onMouse_leaf handle self x y state leaf,
        (ofLayout layout).onMouseDown_leaf self x y leaf]
    | false =>
      have search := (ofLayout layout).first_fst self x y
      rw [(ofLayout layout).onMouseDown_composite self x y leaf]
      cases found : (ofLayout layout).first self x y with
      | none =>
        rw [found] at search
        exact layout.onMouse_missed handle self x y state leaf search.symm
      | some pair =>
        rw [found] at search
        rw [layout.onMouse_found handle self pair.1 x y state leaf search.symm]
        exact inductionHypothesis pair.1
          ((ofLayout layout).first_mem self pair.1 pair.2 x y found) _ _

theorem overlapping_nodes :
    (ofLayout overlapping.toLayout).nodes 0x1000 = [0x1000, 0x2000, 0x3000] := by
  have leaf (address : Address) (none : (overlappingWidget address).children = []) :
      (ofLayout overlapping.toLayout).nodes address = [address] := by
    rw [Hierarchy.nodes_eq]
    exact congrArg (fun children => address :: List.flatMap _ children) none
  rw [Hierarchy.nodes_eq]
  change 0x1000 :: List.flatMap _ [0x2000, 0x3000] = _
  rw [List.flatMap_cons, List.flatMap_cons, leaf 0x2000 rfl, leaf 0x3000 rfl]
  rfl

theorem overlapping_first (x y : Word) (index : Nat) (child : Address)
    (found : (ofLayout overlapping.toLayout).first 0x1000 x y = some (child, index))
    (leaf : (overlappingWidget child).isLeaf = true) :
    (ofLayout overlapping.toLayout).onMouseDown 0x1000 x y = some ⟨child, x, y⟩ := by
  rw [Hierarchy.onMouseDown_composite _ 0x1000 x y rfl, found]
  change (ofLayout overlapping.toLayout).onMouseDown child (x - 0#32) (y - 0#32) = _
  rw [BitVec.sub_zero, BitVec.sub_zero]
  exact Hierarchy.onMouseDown_leaf _ child x y leaf

/-- A move from the first leaf, where the second one covers it, to the second one. -/
theorem move_told_once_overlapping :
    (((ofLayout overlapping.toLayout).onMouseMove 0x1000 18 18 32 32).filter
        fun move => move.widget = 0x2000) = [⟨0x2000, 18, 18, 32, 32⟩] ∧
      (((ofLayout overlapping.toLayout).onMouseMove 0x1000 18 18 32 32).filter
        fun move => move.widget = 0x3000) = [⟨0x3000, 18, 18, 32, 32⟩] := by
  have distinct : ((ofLayout overlapping.toLayout).nodes 0x1000).Nodup := by
    rw [overlapping_nodes]
    decide
  obtain ⟨_, left, entered⟩ := move_told_once _ 0x1000 18 18 32 32 distinct
  constructor
  · exact left 0x2000 18 18 (overlapping_first 18 18 0 _ rfl rfl)
  · exact entered 0x3000 32 32 (overlapping_first 32 32 1 _ rfl rfl)

end BlueOs.MotionDelivery
