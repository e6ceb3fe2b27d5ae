import BlueOs.HitTesting

/-!
# Who receives a press or a release

A mouse button event passes through composites on its way to a leaf, and every widget
on the way receives it. The frames of the descent are those of drawing: what a widget
receives is the pointer less the screen position of its parent, and it receives it
because the rectangle it draws is the first among its siblings' to contain the
pointer. This holds as long as no coordinate of the two walks overflows.
-/

namespace BlueOs.ButtonDispatch

open WidgetTree VideoGraphicsArray

/-- A call of `onMouseDown` or `onMouseUp`. -/
structure Receipt where
  widget : Address
  x : Word
  y : Word

section layout

variable (layout : Layout)

/-- All calls that a call makes, itself included, in order. -/
def receipts (self : Address) (x y : Word) : List Receipt :=
  ⟨self, x, y⟩ ::
    match _kind : (layout.widget self).kind with
    | .leaf => []
    | .composite children =>
      let this := layout.widget self
      match _found : children.find? fun child =>
          (layout.widget child).containsCoordinate (x - this.x) (y - this.y) with
      | none => []
      | some child => receipts child (x - this.x) (y - this.y)
termination_by layout.bound - layout.depth self
decreasing_by
  apply layout.child_levels
  simp only [Widget.children, _kind]
  exact List.mem_of_find?_eq_some _found

/-- The rectangle a widget passes to `fillRectangle` contains a position of the
screen. -/
structure Contains (self : Address) (X Y : Word) : Prop where
  left : (layout.modelToScreen self 0 0).1.toInt ≤ X.toInt
  right : X.toInt < (layout.modelToScreen self 0 0).1.toInt + (layout.widget self).w.toInt
  upper : (layout.modelToScreen self 0 0).2.toInt ≤ Y.toInt
  lower : Y.toInt < (layout.modelToScreen self 0 0).2.toInt + (layout.widget self).h.toInt

/-- None of the sums and differences of the two walks overflows at a child. -/
structure Exact (child parent : Address) (X Y : Word) : Prop where
  column : (layout.modelToScreen child 0 0).1.toInt =
    (layout.modelToScreen parent 0 0).1.toInt + (layout.widget child).x.toInt
  row : (layout.modelToScreen child 0 0).2.toInt =
    (layout.modelToScreen parent 0 0).2.toInt + (layout.widget child).y.toInt
  right : ((layout.widget child).x + (layout.widget child).w).toInt =
    (layout.widget child).x.toInt + (layout.widget child).w.toInt
  lower : ((layout.widget child).y + (layout.widget child).h).toInt =
    (layout.widget child).y.toInt + (layout.widget child).h.toInt
  across : (X - (layout.modelToScreen parent 0 0).1).toInt =
    X.toInt - (layout.modelToScreen parent 0 0).1.toInt
  down : (Y - (layout.modelToScreen parent 0 0).2).toInt =
    Y.toInt - (layout.modelToScreen parent 0 0).2.toInt

/-- What is asked of a call: it is given the position in its parent's frame, its
rectangle contains the position, and those of its earlier siblings do not. -/
def Meets (X Y : Word) (receipt : Receipt) : Prop :=
  ∃ parent before after,
    (layout.widget receipt.widget).parent = some parent ∧
    receipt.x = X - (layout.modelToScreen parent 0 0).1 ∧
    receipt.y = Y - (layout.modelToScreen parent 0 0).2 ∧
    Contains layout receipt.widget X Y ∧
    (layout.widget parent).children = before ++ receipt.widget :: after ∧
    ∀ sibling ∈ before, ¬ Contains layout sibling X Y

theorem receipts_leaf (self : Address) (x y : Word) (leaf : (layout.widget self).isLeaf = true) :
    receipts layout self x y = [⟨self, x, y⟩] := by
  rw [receipts]
  split
  · rfl
  · simp_all [Widget.isLeaf]

theorem receipts_composite (self : Address) (x y : Word)
    (composite : (layout.widget self).isLeaf = false) :
    receipts layout self x y = ⟨self, x, y⟩ ::
      match (layout.widget self).children.find? fun child =>
        (layout.widget child).containsCoordinate (x - (layout.widget self).x)
          (y - (layout.widget self).y) with
      | none => []
      | some child =>
        receipts layout child (x - (layout.widget self).x) (y - (layout.widget self).y) := by
  rw [receipts]
  split
  case h_1 kind => simp_all [Widget.isLeaf]
  case h_2 children kind =>
    simp only [Widget.children, kind, List.cons.injEq, true_and]
    split
    case h_1 missed => rw [missed]
    case h_2 child found => rw [found]

/-- The leaves among the widgets that receive the event handle it. -/
theorem onMouse_receipts {σ : Type} (handle : Address → Word → Word → σ → σ) (self : Address)
    (x y : Word) (state : σ) :
    layout.onMouse handle self x y state =
      ((receipts layout self x y).filter fun receipt =>
        (layout.widget receipt.widget).isLeaf).foldl
          (fun state receipt => handle receipt.widget receipt.x receipt.y state) state := by
  induction self using layout.forest.induction_down generalizing x y with
  | step self inductionHypothesis =>
    cases leaf : (layout.widget self).isLeaf with
    | true =>
      rw [layout.onMouse_leaf handle self x y state leaf, receipts_leaf layout self x y leaf]
      simp [leaf]
    | false =>
      rw [receipts_composite layout self x y leaf, List.filter_cons_of_neg (by simp [leaf])]
      split
      case h_1 missed => rw [layout.onMouse_missed handle self x y state leaf missed]; rfl
      case h_2 child found =>
        have below := (layout.matching child self).mpr (List.mem_of_find?_eq_some found)
        rw [layout.onMouse_found handle self child x y state leaf found,
          inductionHypothesis child below]

/-- The test of a child by a composite is the test of the rectangle it draws. -/
theorem holds_iff_contains (child parent : Address) (X Y : Word)
    (exact : Exact layout child parent X Y) :
    layout.holds parent X Y child = true ↔ Contains layout child X Y := by
  have column := exact.column
  have row := exact.row
  have right := exact.right
  have lower := exact.lower
  have across := exact.across
  have down := exact.down
  simp only [Layout.holds, Widget.containsCoordinate, Layout.origin, Bool.and_eq_true,
    BitVec.sle_iff_toInt_le, BitVec.slt_iff_toInt_lt, right, lower, across, down]
  constructor
  · rintro ⟨⟨⟨left, inside⟩, upper⟩, above⟩
    exact ⟨by omega, by omega, by omega, by omega⟩
  · rintro ⟨left, inside, upper, above⟩
    exact ⟨⟨⟨by omega, by omega⟩, by omega⟩, by omega⟩

/-- The child picked is the first one whose rectangle contains the position. -/
theorem picked_first (parent child : Address) (X Y : Word)
    (exact : ∀ child, (layout.widget child).parent = some parent →
      Exact layout child parent X Y)
    (picked : (layout.front X Y).next parent = some child) :
    Contains layout child X Y ∧ ∃ before after,
      (layout.widget parent).children = before ++ child :: after ∧
      ∀ sibling ∈ before, ¬ Contains layout sibling X Y := by
  obtain ⟨held, before, after, split, earlier⟩ := List.find?_eq_some_iff_append.mp picked
  have among (sibling : Address) (member : sibling ∈ (layout.widget parent).children) :
      layout.holds parent X Y sibling = true ↔ Contains layout sibling X Y :=
    holds_iff_contains layout sibling parent X Y
      (exact sibling ((layout.matching sibling parent).mpr member))
  constructor
  · apply (among child _).mp held
    rw [split]
    simp
  · refine ⟨before, after, split, ?_⟩
    intro sibling member contained
    have refused := earlier sibling member
    rw [(among sibling (by rw [split]; simp [member])).mpr contained] at refused
    cases refused

/-- Below a widget that received the position in its parent's frame, every other
widget meets what is asked of it. -/
theorem receipts_meet (top self : Address) (X Y : Word)
    (exact : ∀ parent child, layout.forest.Under top parent →
      (layout.widget child).parent = some parent → Exact layout child parent X Y)
    (under : layout.forest.Under top self) :
    ∀ receipt ∈ receipts layout self (layout.received self X Y).1 (layout.received self X Y).2,
      receipt = ⟨self, (layout.received self X Y).1, (layout.received self X Y).2⟩ ∨
        Meets layout X Y receipt := by
  induction self using layout.forest.induction_down with
  | step self inductionHypothesis =>
    intro receipt member
    cases leaf : (layout.widget self).isLeaf with
    | true =>
      rw [receipts_leaf layout self _ _ leaf] at member
      exact Or.inl (List.mem_singleton.mp member)
    | false =>
      obtain ⟨column, row⟩ := layout.received_sub self X Y
      rw [receipts_composite layout self _ _ leaf, column, row, List.mem_cons] at member
      rcases member with here | later
      · exact Or.inl here
      · right
        split at later
        case h_1 => cases later
        case h_2 child found =>
          have picked : (layout.front X Y).next self = some child := found
          have below := (layout.front X Y).below self child picked
          have frame := layout.received_child child self X Y below
          have passed := inductionHypothesis child below (.child child self below under) receipt
          rw [frame] at passed
          rcases passed later with rfl | meets
          · obtain ⟨contained, before, after, split, earlier⟩ :=
              picked_first layout self child X Y (exact self · under) picked
            exact ⟨self, before, after, below, rfl, rfl, contained, split, earlier⟩
          · exact meets

end layout

/-- No coordinate overflows between the desktop and the widgets on it. -/
def NoOverflow (desktop : Desktop) (X Y : Word) : Prop :=
  ∀ parent child, desktop.forest.Under desktop.root parent →
    (desktop.widget child).parent = some parent → Exact desktop.toLayout child parent X Y

/-- Apart from the desktop itself, which is given the pointer as it is, whoever
receives a press or a release is the first of its siblings whose drawn rectangle
contains the pointer, and is told where the pointer is in its parent's frame. -/
theorem receipts_drawn (desktop : Desktop) (event : Button) (X Y : Word) (button : Byte)
    (state : State desktop.toLayout) (exact : NoOverflow desktop X Y) :
    desktop.onMouse event X Y button state =
        ((receipts desktop.toLayout desktop.root X Y).filter fun receipt =>
          (desktop.widget receipt.widget).isLeaf).foldl
            (fun state receipt =>
              leafMouse event button receipt.widget receipt.x receipt.y state) state ∧
      ∀ receipt ∈ receipts desktop.toLayout desktop.root X Y,
        receipt = ⟨desktop.root, X, Y⟩ ∨ Meets desktop.toLayout X Y receipt := by
  constructor
  · exact onMouse_receipts desktop.toLayout (leafMouse event button) desktop.root X Y state
  · have passed := receipts_meet desktop.toLayout desktop.root desktop.root X Y exact .self
    rw [desktop.received_root X Y] at passed
    exact passed

theorem overlapping_origin (child : Address) (member : child = 0x2000 ∨ child = 0x3000) :
    overlapping.modelToScreen child 0 0 =
      ((overlappingWidget child).x, (overlappingWidget child).y) := by
  have below := (overlappingWidget_parent child 0x1000).mpr ⟨member, rfl⟩
  have origin := overlapping.toLayout.origin_child child 0x1000 below
  rw [Layout.origin] at origin
  rw [origin, show overlapping.toLayout.origin 0x1000 = (0, 0) from overlapping.origin_root]
  simp only [BitVec.ofNat_eq_ofNat, BitVec.zero_add]
  rfl

/-- A press at (12, 12) on the two leaves. -/
theorem receipts_drawn_overlapping :
    overlapping.onMouse .down 12 12 1 ⟨Focus.construct _, []⟩ =
        ((receipts overlapping.toLayout overlapping.root 12 12).filter fun receipt =>
          (overlapping.widget receipt.widget).isLeaf).foldl
            (fun state receipt =>
              leafMouse .down 1 receipt.widget receipt.x receipt.y state)
            ⟨Focus.construct _, []⟩ ∧
      ∀ receipt ∈ receipts overlapping.toLayout overlapping.root 12 12,
        receipt = ⟨overlapping.root, 12, 12⟩ ∨ Meets overlapping.toLayout 12 12 receipt := by
  apply receipts_drawn overlapping .down 12 12 1
  intro parent child _ below
  obtain ⟨member, rfl⟩ := (overlappingWidget_parent child parent).mp below
  have frame : overlapping.modelToScreen 0x1000 0 0 = (0, 0) := overlapping.origin_root
  have corner := overlapping_origin child member
  constructor
  · rw [corner, frame]
    exact (Int.zero_add _).symm
  · rw [corner, frame]
    exact (Int.zero_add _).symm
  · rcases member with rfl | rfl <;> decide
  · rcases member with rfl | rfl <;> decide
  · rw [frame]
    decide
  · rw [frame]
    decide

end BlueOs.ButtonDispatch
