import BlueOs.Library.ParentTree
import BlueOs.VideoGraphicsArray
import Mathlib.Logic.Function.Basic

/-!
# Widgets

A widget holds a pointer to its parent, a rectangle in its parent's frame and a
colour; a composite widget also holds the children added to it. A layout is the
heap of all widgets after construction: every parent pointer leads to the composite
that the widget was added to, and depths certify that the pointers form a tree. No
event changes it. What events change is which child of a composite has the focus;
that pointer always leads to one of its children.

The event functions are the virtual functions of the source, dispatched on the kind
of a widget. Every event that reaches a leaf is recorded, newest first.
-/

namespace BlueOs.WidgetTree

open VideoGraphicsArray

abbrev Address := BitVec 32

/-- What the class of a widget adds to its rectangle. -/
inductive Kind where
  | leaf
  | composite (children : List Address)
deriving DecidableEq

structure Widget where
  parent : Option Address
  x : Word
  y : Word
  w : Word
  h : Word
  r : Byte
  g : Byte
  b : Byte
  focusable : Bool
  kind : Kind

namespace Widget

/-- The widgets added with `addChild`, in order. -/
def children (widget : Widget) : List Address :=
  match widget.kind with
  | .leaf => []
  | .composite children => children

def isLeaf (widget : Widget) : Bool := widget.kind = .leaf

def containsCoordinate (widget : Widget) (x y : Word) : Bool :=
  widget.x.sle x && x.slt (widget.x + widget.w) && widget.y.sle y && y.slt (widget.y + widget.h)

end Widget

/-- A tree of widgets in memory. -/
structure Layout where
  widget : Address → Widget
  depth : Address → Nat
  bound : Nat
  deeper : ∀ child parent, (widget child).parent = some parent → depth child = depth parent + 1
  bounded : ∀ widget, depth widget ≤ bound
  matching : ∀ child parent,
    (widget child).parent = some parent ↔ child ∈ (widget parent).children

namespace Layout

variable (layout : Layout)

/-- The forest of the parent pointers. -/
def forest : ParentTree.Forest Address where
  parent child := (layout.widget child).parent
  depth := layout.depth
  bound := layout.bound
  deeper := layout.deeper
  bounded := layout.bounded

/-- A child lies one level deeper than the composite that holds it. -/
theorem child_levels (parent child : Address) (member : child ∈ (layout.widget parent).children) :
    layout.bound - layout.depth child < layout.bound - layout.depth parent :=
  layout.forest.levels_left child parent ((layout.matching child parent).mpr member)

/-- The screen position of a widget's corner, added to the given one. -/
def modelToScreen (self : Address) (x y : Word) : Word × Word :=
  match _above : (layout.widget self).parent with
  | none => (x + (layout.widget self).x, y + (layout.widget self).y)
  | some parent =>
    let (x, y) := modelToScreen parent x y
    (x + (layout.widget self).x, y + (layout.widget self).y)
termination_by layout.depth self
decreasing_by
  have deeper := layout.deeper self parent _above
  omega

/-- A call of `fillRectangle` and the widget that makes it. -/
structure Fill where
  widget : Address
  pixels : List Pixel

/-- `Widget::draw` -/
def fill (self : Address) : Fill where
  widget := self
  pixels :=
    let (X, Y) := layout.modelToScreen self 0 0
    let this := layout.widget self
    fillRectangle X Y this.w this.h this.r this.g this.b

/-- A composite draws itself, then its children in order. -/
def draw (self : Address) : List Fill :=
  match _kind : (layout.widget self).kind with
  | .leaf => [layout.fill self]
  | .composite children =>
    layout.fill self :: children.attach.flatMap fun child => draw child.val
termination_by layout.bound - layout.depth self
decreasing_by
  apply layout.child_levels
  simp only [Widget.children, _kind]
  exact child.property

/-- A mouse button event goes down to the first child that contains it, in the
frame of the composite that holds the child; a leaf handles it. -/
def onMouse {σ : Type} (handle : Address → Word → Word → σ → σ) (self : Address) (x y : Word)
    (state : σ) : σ :=
  match _kind : (layout.widget self).kind with
  | .leaf => handle self x y state
  | .composite children =>
    let this := layout.widget self
    match _found : children.find? fun child =>
        (layout.widget child).containsCoordinate (x - this.x) (y - this.y) with
    | none => state
    | some child => onMouse handle child (x - this.x) (y - this.y) state
termination_by layout.bound - layout.depth self
decreasing_by
  apply layout.child_levels
  simp only [Widget.children, _kind]
  exact List.mem_of_find?_eq_some _found

theorem modelToScreen_root (self : Address) (x y : Word)
    (top : (layout.widget self).parent = none) :
    layout.modelToScreen self x y = (x + (layout.widget self).x, y + (layout.widget self).y) := by
  rw [modelToScreen]
  split
  · rfl
  · simp_all

theorem modelToScreen_child (self parent : Address) (x y : Word)
    (below : (layout.widget self).parent = some parent) :
    layout.modelToScreen self x y =
      ((layout.modelToScreen parent x y).1 + (layout.widget self).x,
        (layout.modelToScreen parent x y).2 + (layout.widget self).y) := by
  rw [modelToScreen]
  split
  · simp_all
  · simp_all

theorem leaf_children (self : Address) (leaf : (layout.widget self).isLeaf = true) :
    (layout.widget self).children = [] := by
  have kind : (layout.widget self).kind = .leaf := of_decide_eq_true leaf
  rw [Widget.children, kind]

/-- A leaf is a composite without children as far as drawing goes. -/
theorem draw_eq (self : Address) :
    layout.draw self = layout.fill self :: (layout.widget self).children.flatMap layout.draw := by
  rw [draw]
  split
  case h_1 kind => simp only [Widget.children, kind, List.flatMap_nil]
  case h_2 children kind =>
    simp only [Widget.children, kind, List.flatMap_subtype, List.unattach_attach]

theorem onMouse_leaf {σ : Type} (handle : Address → Word → Word → σ → σ) (self : Address)
    (x y : Word) (state : σ) (leaf : (layout.widget self).isLeaf = true) :
    layout.onMouse handle self x y state = handle self x y state := by
  rw [onMouse]
  split
  · rfl
  · simp_all [Widget.isLeaf]

theorem onMouse_missed {σ : Type} (handle : Address → Word → Word → σ → σ) (self : Address)
    (x y : Word) (state : σ) (composite : (layout.widget self).isLeaf = false)
    (missed : ((layout.widget self).children.find? fun child =>
      (layout.widget child).containsCoordinate (x - (layout.widget self).x)
        (y - (layout.widget self).y)) = none) :
    layout.onMouse handle self x y state = state := by
  rw [onMouse]
  split
  case h_1 kind => simp_all [Widget.isLeaf]
  case h_2 children kind =>
    simp only [Widget.children, kind] at missed
    dsimp only
    split
    · rfl
    · simp_all

theorem onMouse_found {σ : Type} (handle : Address → Word → Word → σ → σ) (self child : Address)
    (x y : Word) (state : σ) (composite : (layout.widget self).isLeaf = false)
    (found : ((layout.widget self).children.find? fun child =>
      (layout.widget child).containsCoordinate (x - (layout.widget self).x)
        (y - (layout.widget self).y)) = some child) :
    layout.onMouse handle self x y state =
      layout.onMouse handle child (x - (layout.widget self).x) (y - (layout.widget self).y)
        state := by
  rw [onMouse]
  split
  case h_1 kind => simp_all [Widget.isLeaf]
  case h_2 children kind =>
    simp only [Widget.children, kind] at found
    dsimp only
    split
    case h_1 missed => simp_all
    case h_2 other picked =>
      rw [found] at picked
      cases picked
      rfl

end Layout

/-- Which child of each composite has the focus. -/
structure Focus (layout : Layout) where
  focussedChild : Address → Option Address
  belongs : ∀ parent child, focussedChild parent = some child →
    (layout.widget child).parent = some parent

namespace Focus

variable {layout : Layout}

/-- The constructors leave every composite without focus. -/
def construct (layout : Layout) : Focus layout where
  focussedChild _ := none
  belongs _ _ none := by cases none

/-- `focussedChild = widget` -/
def assign (focus : Focus layout) (self child : Address)
    (held : (layout.widget child).parent = some self) : Focus layout where
  focussedChild := Function.update focus.focussedChild self (some child)
  belongs parent other focussed := by
    by_cases same : parent = self
    · subst same
      rw [Function.update_self] at focussed
      cases focussed
      exact held
    · rw [Function.update_of_ne same] at focussed
      exact focus.belongs parent other focussed

/-- `CompositeWidget::getFocus`: every composite up to the root gives the focus to
the child that the event came from. -/
def getFocus (focus : Focus layout) (self child : Address)
    (held : (layout.widget child).parent = some self) : Focus layout :=
  match _above : (layout.widget self).parent with
  | none => focus.assign self child held
  | some parent => (focus.assign self child held).getFocus parent self _above
termination_by layout.depth self
decreasing_by
  have deeper := layout.deeper self parent _above
  omega

/-- `Widget::onMouseDown` of a leaf. -/
def leafMouseDown (focus : Focus layout) (self : Address) : Focus layout :=
  if (layout.widget self).focusable then
    match _above : (layout.widget self).parent with
    | none => focus
    | some parent => focus.getFocus parent self _above
  else focus

/-- A key event goes down to the focussed child of each composite; the leaf that
handles it, if any. -/
def onKey (focus : Focus layout) (self : Address) : Option Address :=
  match (layout.widget self).kind with
  | .leaf => some self
  | .composite _ =>
    match _focussed : focus.focussedChild self with
    | none => none
    | some child => focus.onKey child
termination_by layout.bound - layout.depth self
decreasing_by exact layout.forest.levels_left child self (focus.belongs self child _focussed)

theorem assign_self (focus : Focus layout) (self child : Address)
    (held : (layout.widget child).parent = some self) :
    (focus.assign self child held).focussedChild self = some child := by
  simp only [assign, Function.update_self]

theorem assign_other (focus : Focus layout) (self child other : Address)
    (held : (layout.widget child).parent = some self) (elsewhere : other ≠ self) :
    (focus.assign self child held).focussedChild other = focus.focussedChild other := by
  simp only [assign, Function.update_of_ne elsewhere]

theorem getFocus_root (focus : Focus layout) (self child : Address)
    (held : (layout.widget child).parent = some self) (top : (layout.widget self).parent = none) :
    focus.getFocus self child held = focus.assign self child held := by
  rw [getFocus]
  split
  · rfl
  · simp_all

theorem getFocus_child (focus : Focus layout) (self child parent : Address)
    (held : (layout.widget child).parent = some self)
    (below : (layout.widget self).parent = some parent) :
    focus.getFocus self child held = (focus.assign self child held).getFocus parent self below := by
  rw [getFocus]
  split
  · simp_all
  case h_2 other above =>
    rw [below] at above
    cases above
    rfl

theorem leafMouseDown_focusable (focus : Focus layout) (self parent : Address)
    (focusable : (layout.widget self).focusable = true)
    (below : (layout.widget self).parent = some parent) :
    focus.leafMouseDown self = focus.getFocus parent self below := by
  rw [leafMouseDown, if_pos focusable]
  split
  · simp_all
  case h_2 other above =>
    rw [below] at above
    cases above
    rfl

theorem leafMouseDown_not_focusable (focus : Focus layout) (self : Address)
    (unfocusable : ¬ (layout.widget self).focusable = true) : focus.leafMouseDown self = focus := by
  rw [leafMouseDown, if_neg unfocusable]

theorem onKey_leaf (focus : Focus layout) (self : Address)
    (leaf : (layout.widget self).isLeaf = true) : focus.onKey self = some self := by
  rw [onKey]
  split
  · rfl
  · simp_all [Widget.isLeaf]

theorem onKey_composite (focus : Focus layout) (self : Address)
    (composite : (layout.widget self).isLeaf = false) :
    focus.onKey self = (focus.focussedChild self).bind focus.onKey := by
  rw [onKey]
  split
  · simp_all [Widget.isLeaf]
  · split <;> simp_all

end Focus

/-- The two mouse button events. -/
inductive Button where
  | down
  | up
deriving DecidableEq

/-- The three key events. -/
inductive Key where
  | left
  | right
  | press
deriving DecidableEq

/-- An event as a leaf receives it. -/
inductive Received where
  | mouse (event : Button) (widget : Address) (x y : Word) (button : Byte)
  | key (event : Key) (widget : Address) (character : Byte)
deriving DecidableEq

structure State (layout : Layout) where
  focus : Focus layout
  received : List Received

/-- What a leaf does with a mouse button event: only a press asks for the focus. -/
def leafMouse {layout : Layout} (event : Button) (button : Byte) (self : Address) (x y : Word)
    (state : State layout) : State layout where
  focus :=
    match event with
    | .down => state.focus.leafMouseDown self
    | .up => state.focus
  received := .mouse event self x y button :: state.received

@[simp] theorem leafMouse_received {layout : Layout} (event : Button) (button : Byte)
    (self : Address) (x y : Word) (state : State layout) :
    (leafMouse event button self x y state).received =
      .mouse event self x y button :: state.received := rfl

/-- The desktop: a composite at the origin without a parent, which gives the mouse
events the position of the pointer. -/
structure Desktop extends Layout where
  root : Address
  top : (widget root).parent = none
  composite : (widget root).isLeaf = false
  left : (widget root).x = 0
  upper : (widget root).y = 0

namespace Desktop

variable (desktop : Desktop)

/-- `Desktop::onMouseDown` and `Desktop::onMouseUp` -/
def onMouse (event : Button) (mouseX mouseY : Word) (button : Byte)
    (state : State desktop.toLayout) : State desktop.toLayout :=
  desktop.toLayout.onMouse (leafMouse event button) desktop.root mouseX mouseY state

/-- `onKeyLeft`, `onKeyRight` and `onKeyPress` -/
def onKey (event : Key) (character : Byte) (state : State desktop.toLayout) :
    State desktop.toLayout :=
  match state.focus.onKey desktop.root with
  | none => state
  | some leaf => { state with received := .key event leaf character :: state.received }

/-- `Desktop::draw` up to the pointer's crosshair. -/
def draw : List Layout.Fill := desktop.toLayout.draw desktop.root

end Desktop

end BlueOs.WidgetTree
