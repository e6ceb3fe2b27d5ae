import BlueOs.Library.Runs
import BlueOs.WidgetTree
import Mathlib.Data.List.Nodup

/-!
# Construction of the widgets

A widget is constructed with the pointer to its parent, and then added to the children of
this parent. A composite takes 100 children and refuses all others, but what it refused
keeps its pointer. So the widgets form a tree exactly when no composite was to hold more
than 100 of them.
-/

namespace BlueOs.WidgetConstruction

open VideoGraphicsArray WidgetTree

/-- `Widget::Widget` -/
def construct (parent : Option Address) (x y w h : Word) (r g b : Byte) : Widget where
  parent := parent
  x := x
  y := y
  w := w
  h := h
  r := r
  g := g
  b := b
  focusable := true
  kind := .leaf

/-- `CompositeWidget::CompositeWidget` -/
def constructComposite (parent : Option Address) (x y w h : Word) (r g b : Byte) : Widget :=
  { construct parent x y w h r g b with kind := .composite [] }

/-- `Desktop::Desktop`, without the position of the pointer. -/
def constructDesktop (w h : Word) (r g b : Byte) : Widget := constructComposite none 0 0 w h r g b

/-- `CompositeWidget::addChild` -/
def addChild (self : Widget) (child : Address) : Bool × Widget :=
  if 100 ≤ self.children.length then (false, self)
  else (true, { self with kind := .composite (self.children ++ [child]) })

/-- A constructor call: where the object lies, its arguments and its class. -/
structure Construction where
  this : Address
  parent : Address
  x : Word
  y : Word
  w : Word
  h : Word
  r : Byte
  g : Byte
  b : Byte
  composite : Bool

def Construction.widget (new : Construction) : Widget :=
  if new.composite then
    constructComposite (some new.parent) new.x new.y new.w new.h new.r new.g new.b
  else construct (some new.parent) new.x new.y new.w new.h new.r new.g new.b

/-- The widgets in memory, and where they lie, the newest first. Memory without a widget
reads as one that is connected to nothing. -/
structure Heap where
  widget : Address → Widget
  objects : List Address

/-- A desktop alone. -/
def start (root : Address) (w h : Word) (r g b : Byte) : Heap where
  widget := Function.update (fun _ => construct none 0 0 0 0 0 0 0) root
    (constructDesktop w h r g b)
  objects := [root]

/-- Construct a widget in fresh memory, with a composite as its parent, and add it to the
composite. -/
def step (heap : Heap) (new : Construction) : Option Heap :=
  if new.this ∈ heap.objects ∨ new.parent ∉ heap.objects ∨ (heap.widget new.parent).isLeaf then
    none
  else
    let constructed := Function.update heap.widget new.this new.widget
    some
      { widget := Function.update constructed new.parent
          (addChild (constructed new.parent) new.this).2
        objects := new.this :: heap.objects }

/-- The widgets that were constructed for a parent, in order. -/
def given (built : List Construction) (parent : Address) : List Address :=
  (built.filter fun new => new.parent = parent).map Construction.this

/-- How far a widget is from the desktop. -/
def level (built : List Construction) : Address → Nat :=
  built.foldl (fun level new => Function.update level new.this (level new.parent + 1)) fun _ => 0

/-- The heap after constructions: what points up, what points down, and how deep. -/
structure Grown (root : Address) (built : List Construction) (heap : Heap) : Prop where
  objects : heap.objects = (built.map Construction.this).reverse ++ [root]
  distinct : heap.objects.Nodup
  placed : ∀ new ∈ built, new.parent ∈ heap.objects
  parent : ∀ child above, (heap.widget child).parent = some above ↔
    ∃ new ∈ built, new.this = child ∧ new.parent = above
  children : ∀ above, (heap.widget above).children = (given built above).take 100
  deeper : ∀ child above, (heap.widget child).parent = some above →
    level built child = level built above + 1
  bounded : ∀ widget, level built widget ≤ built.length
  composite : (heap.widget root).isLeaf = false
  left : (heap.widget root).x = 0
  upper : (heap.widget root).y = 0

/-- What a step finds: fresh memory and a composite as the parent. -/
structure Allowed (heap : Heap) (new : Construction) : Prop where
  fresh : new.this ∉ heap.objects
  live : new.parent ∈ heap.objects
  composite : (heap.widget new.parent).isLeaf = false

theorem step_allowed (heap next : Heap) (new : Construction) (taken : step heap new = some next) :
    Allowed heap new := by
  rw [step] at taken
  split at taken
  · cases taken
  case isFalse found =>
    simp only [not_or, not_not, Bool.not_eq_true] at found
    exact ⟨found.1, found.2.1, found.2.2⟩

theorem Allowed.apart {heap : Heap} {new : Construction} (allowed : Allowed heap new) :
    new.parent ≠ new.this := by
  intro same
  exact allowed.fresh (same ▸ allowed.live)

theorem step_eq (heap next : Heap) (new : Construction) (taken : step heap new = some next) :
    next.objects = new.this :: heap.objects ∧
      next.widget = Function.update (Function.update heap.widget new.this new.widget) new.parent
        (addChild (heap.widget new.parent) new.this).2 := by
  have allowed := step_allowed heap next new taken
  rw [step] at taken
  split at taken
  · cases taken
  · cases taken
    refine ⟨rfl, ?_⟩
    simp only [Function.update_of_ne allowed.apart]

/-- A composite that gets or refuses a child keeps everything else. -/
theorem addChild_fields (self : Widget) (child : Address) :
    (addChild self child).2.parent = self.parent ∧ (addChild self child).2.x = self.x ∧
      (addChild self child).2.y = self.y := by
  rw [addChild]
  split
  · exact ⟨rfl, rfl, rfl⟩
  · exact ⟨rfl, rfl, rfl⟩

theorem addChild_isLeaf (self : Widget) (child : Address) (composite : self.isLeaf = false) :
    (addChild self child).2.isLeaf = false := by
  rw [addChild]
  split
  · exact composite
  · rfl

theorem addChild_children (self : Widget) (child : Address) (wanted : List Address)
    (held : self.children = wanted.take 100) :
    (addChild self child).2.children = (wanted ++ [child]).take 100 := by
  rw [addChild]
  split
  case isTrue full =>
    rw [held, List.length_take] at full
    rw [List.take_append_of_le_length (by omega)]
    exact held
  case isFalse room =>
    rw [held, List.length_take] at room
    have short : wanted.length < 100 := by omega
    rw [List.take_of_length_le (by rw [List.length_append, List.length_singleton]; omega)]
    change self.children ++ [child] = _
    rw [held, List.take_of_length_le (by omega)]

theorem widget_parent (new : Construction) : new.widget.parent = some new.parent := by
  rw [Construction.widget]
  split <;> rfl

theorem widget_children (new : Construction) : new.widget.children = [] := by
  rw [Construction.widget]
  split <;> rfl

theorem given_snoc (built : List Construction) (new : Construction) (above : Address) :
    given (built ++ [new]) above =
      given built above ++ if new.parent = above then [new.this] else [] := by
  rw [given, given, List.filter_append, List.map_append]
  congr 1
  split
  case isTrue same => simp only [same, decide_true, List.filter_cons_of_pos, List.filter_nil,
    List.map_cons, List.map_nil]
  case isFalse other => simp [other]

theorem level_snoc (built : List Construction) (new : Construction) :
    level (built ++ [new]) =
      Function.update (level built) new.this (level built new.parent + 1) := by
  simp only [level, List.foldl_append, List.foldl_cons, List.foldl_nil]

section step

variable {root : Address} {built : List Construction} {heap next : Heap} {new : Construction}

/-- No widget was constructed for an address without an object. -/
theorem given_fresh (grown : Grown root built heap) (address : Address)
    (fresh : address ∉ heap.objects) : given built address = [] := by
  rw [given, List.map_eq_nil_iff, List.filter_eq_nil_iff]
  intro earlier member same
  have placed := grown.placed earlier member
  rw [of_decide_eq_true same] at placed
  exact fresh placed

/-- A step sets the pointer of the new widget and no other. -/
theorem parent_after (taken : step heap new = some next) (child : Address) :
    (next.widget child).parent =
      if child = new.this then some new.parent else (heap.widget child).parent := by
  have allowed := step_allowed heap next new taken
  rw [(step_eq heap next new taken).2]
  by_cases above : child = new.parent
  · rw [above, Function.update_self, (addChild_fields _ _).1, if_neg allowed.apart]
  · rw [Function.update_of_ne above]
    split
    case isTrue same => rw [same, Function.update_self, widget_parent]
    case isFalse other => rw [Function.update_of_ne other]

theorem children_after (grown : Grown root built heap) (taken : step heap new = some next)
    (above : Address) :
    (next.widget above).children = (given (built ++ [new]) above).take 100 := by
  have allowed := step_allowed heap next new taken
  rw [(step_eq heap next new taken).2, given_snoc]
  by_cases parent : above = new.parent
  · rw [parent, Function.update_self, if_pos rfl]
    exact addChild_children _ _ _ (grown.children new.parent)
  · rw [Function.update_of_ne parent, if_neg (Ne.symm parent), List.append_nil]
    by_cases this : above = new.this
    · rw [this, Function.update_self, widget_children, given_fresh grown _ allowed.fresh]
      rfl
    · rw [Function.update_of_ne this]
      exact grown.children above

/-- The new widget is one level below its parent, all others stay where they are. -/
theorem deeper_after (grown : Grown root built heap) (taken : step heap new = some next)
    (child above : Address) (below : (next.widget child).parent = some above) :
    level (built ++ [new]) child = level (built ++ [new]) above + 1 := by
  have allowed := step_allowed heap next new taken
  rw [parent_after taken] at below
  rw [level_snoc]
  split at below
  case isTrue same =>
    cases below
    rw [same, Function.update_self, Function.update_of_ne allowed.apart]
  case isFalse other =>
    have old : above ≠ new.this := by
      rintro rfl
      obtain ⟨earlier, member, -, same⟩ := (grown.parent child _).mp below
      exact allowed.fresh (same ▸ grown.placed earlier member)
    rw [Function.update_of_ne other, Function.update_of_ne old]
    exact grown.deeper child above below

theorem bounded_after (grown : Grown root built heap) (widget : Address) :
    level (built ++ [new]) widget ≤ (built ++ [new]).length := by
  rw [level_snoc, List.length_append, List.length_singleton]
  by_cases same : widget = new.this
  · have bounded := grown.bounded new.parent
    rw [same, Function.update_self]
    omega
  · have bounded := grown.bounded widget
    rw [Function.update_of_ne same]
    omega

/-- The desktop is not constructed again, and stays a composite at the origin. -/
theorem root_after (grown : Grown root built heap) (taken : step heap new = some next) :
    (next.widget root).isLeaf = false ∧ (next.widget root).x = 0 ∧ (next.widget root).y = 0 := by
  have allowed := step_allowed heap next new taken
  have other : root ≠ new.this := by
    rintro rfl
    apply allowed.fresh
    rw [grown.objects]
    exact List.mem_append_right _ (List.mem_singleton_self _)
  rw [(step_eq heap next new taken).2]
  by_cases parent : root = new.parent
  · obtain ⟨-, left, upper⟩ := addChild_fields (heap.widget new.parent) new.this
    have origin := And.intro grown.left grown.upper
    rw [parent] at origin
    rw [parent, Function.update_self, left, upper]
    exact ⟨addChild_isLeaf _ _ allowed.composite, origin⟩
  · rw [Function.update_of_ne parent, Function.update_of_ne other]
    exact ⟨grown.composite, grown.left, grown.upper⟩

theorem step_grown (grown : Grown root built heap) (taken : step heap new = some next) :
    Grown root (built ++ [new]) next := by
  have allowed := step_allowed heap next new taken
  have objects := (step_eq heap next new taken).1
  obtain ⟨composite, left, upper⟩ := root_after grown taken
  constructor
  · rw [objects, grown.objects, List.map_append, List.reverse_append]
    rfl
  · rw [objects]
    exact List.nodup_cons.mpr ⟨allowed.fresh, grown.distinct⟩
  · intro member among
    rw [objects]
    rcases List.mem_append.mp among with earlier | last
    · exact List.mem_cons_of_mem _ (grown.placed member earlier)
    · rw [List.mem_singleton.mp last]
      exact List.mem_cons_of_mem _ allowed.live
  · intro child above
    rw [parent_after taken]
    simp only [List.mem_append, List.mem_singleton, or_and_right, exists_or, exists_eq_left]
    split
    case isTrue same =>
      -- an earlier construction lies in memory that is not fresh
      have first : ¬ ∃ earlier ∈ built, earlier.this = new.this ∧ earlier.parent = above := by
        rintro ⟨earlier, member, this, -⟩
        apply allowed.fresh
        rw [grown.objects, ← this]
        exact List.mem_append_left _ (List.mem_reverse.mpr (List.mem_map_of_mem member))
      simp only [same, first, false_or, true_and, Option.some.injEq]
    case isFalse other =>
      have later : ¬ (new.this = child ∧ new.parent = above) := fun same => other same.1.symm
      rw [grown.parent child above]
      simp only [later, or_false]
  · exact children_after grown taken
  · exact deeper_after grown taken
  · exact bounded_after grown
  · exact composite
  · exact left
  · exact upper

theorem run_grown (later : List Construction) (final : Heap) (grown : Grown root built heap)
    (completed : Runs.run step later heap = some final) : Grown root (built ++ later) final := by
  induction later generalizing built heap with
  | nil =>
    cases completed
    rw [List.append_nil]
    exact grown
  | cons new rest inductionHypothesis =>
    rw [Runs.run_cons] at completed
    obtain ⟨middle, taken, following⟩ := Option.bind_eq_some_iff.mp completed
    rw [List.append_cons]
    exact inductionHypothesis (step_grown grown taken) following

end step

theorem start_widget (root address : Address) (w h : Word) (r g b : Byte) :
    ((start root w h r g b).widget address).parent = none ∧
      ((start root w h r g b).widget address).children = [] := by
  dsimp only [start]
  by_cases same : address = root
  · rw [same, Function.update_self]
    exact ⟨rfl, rfl⟩
  · rw [Function.update_of_ne same]
    exact ⟨rfl, rfl⟩

theorem start_grown (root : Address) (w h : Word) (r g b : Byte) :
    Grown root [] (start root w h r g b) := by
  have desktop : (start root w h r g b).widget root = constructDesktop w h r g b := by
    dsimp only [start]
    rw [Function.update_self]
  constructor
  · rfl
  · exact List.nodup_singleton root
  · intro new none
    cases none
  · intro child above
    simp [(start_widget root child w h r g b).1]
  · intro above
    exact (start_widget root above w h r g b).2
  · intro child above below
    rw [(start_widget root child w h r g b).1] at below
    cases below
  · intro widget
    exact Nat.le_refl _
  · rw [desktop]
    rfl
  · rw [desktop]
    rfl
  · rw [desktop]
    rfl

section grown

variable {root : Address} {built : List Construction} {heap : Heap}

theorem mem_given (grown : Grown root built heap) (child above : Address) :
    (heap.widget child).parent = some above ↔ child ∈ given built above := by
  rw [grown.parent child above, given, List.mem_map]
  constructor
  · rintro ⟨new, member, this, parent⟩
    exact ⟨new, List.mem_filter.mpr ⟨member, decide_eq_true parent⟩, this⟩
  · rintro ⟨new, member, this⟩
    obtain ⟨member, parent⟩ := List.mem_filter.mp member
    exact ⟨new, member, this, of_decide_eq_true parent⟩

theorem given_nodup (grown : Grown root built heap) (above : Address) :
    (given built above).Nodup := by
  have objects := grown.distinct
  rw [grown.objects] at objects
  have built := List.nodup_reverse.mp (List.nodup_append.mp objects).1
  exact built.sublist (List.filter_sublist.map Construction.this)

/-- The desktop was never given a parent. -/
theorem root_top (grown : Grown root built heap) : (heap.widget root).parent = none := by
  cases below : (heap.widget root).parent with
  | none => rfl
  | some above =>
    obtain ⟨new, member, same, -⟩ := (grown.parent root above).mp below
    have objects := grown.distinct
    rw [grown.objects] at objects
    have apart := (List.nodup_append.mp objects).2.2 new.this
      (List.mem_reverse.mpr (List.mem_map_of_mem member)) root (List.mem_singleton_self _)
    exact absurd same apart

/-- The tree, if every composite has room. -/
def desktop (grown : Grown root built heap)
    (room : ∀ parent, (given built parent).length ≤ 100) : Desktop where
  widget := heap.widget
  depth := level built
  bound := built.length
  deeper := grown.deeper
  bounded := grown.bounded
  matching child parent := by
    rw [grown.children, List.take_of_length_le (room parent)]
    exact mem_given grown child parent
  root := root
  top := root_top grown
  composite := grown.composite
  left := grown.left
  upper := grown.upper

/-- A widget that was refused points to a parent that does not hold it. -/
theorem room_of_matching (grown : Grown root built heap)
    (matching : ∀ child parent,
      (heap.widget child).parent = some parent ↔ child ∈ (heap.widget parent).children)
    (parent : Address) : (given built parent).length ≤ 100 := by
  by_contra full
  have refused : (given built parent).drop 100 ≠ [] := by
    rw [Ne, List.drop_eq_nil_iff]
    exact full
  obtain ⟨child, member⟩ := List.exists_mem_of_ne_nil _ refused
  have points := (mem_given grown child parent).mpr (List.mem_of_mem_drop member)
  have held := (matching child parent).mp points
  rw [grown.children] at held
  exact List.disjoint_take_drop (given_nodup grown parent) (Nat.le_refl 100) held member

end grown

/-- After any constructions every composite holds the first 100 widgets that were
constructed for it, in order; and what was constructed is the tree of a desktop exactly
when no composite was to hold more than these. -/
theorem tree_iff_room (root : Address) (w h : Word) (r g b : Byte) (built : List Construction)
    (final : Heap) (completed : Runs.run step built (start root w h r g b) = some final) :
    (∀ parent, (final.widget parent).children = (given built parent).take 100) ∧
      ((∃ desktop : Desktop, desktop.widget = final.widget ∧ desktop.root = root) ↔
        ∀ parent, (given built parent).length ≤ 100) := by
  have grown : Grown root ([] ++ built) final :=
    run_grown built final (start_grown root w h r g b) completed
  rw [List.nil_append] at grown
  refine ⟨grown.children, ?_, fun room => ⟨desktop grown room, rfl, rfl⟩⟩
  rintro ⟨tree, widgets, -⟩
  apply room_of_matching grown
  intro child parent
  rw [← widgets]
  exact tree.matching child parent

/-- A window on the desktop and a button in the window. -/
def window : List Construction :=
  [⟨0x9000, 0x8000, 10, 10, 100, 80, 0xA8, 0, 0, true⟩,
    ⟨0xA000, 0x9000, 5, 5, 20, 10, 0, 0xA8, 0, false⟩]

theorem tree_iff_room_window :
    ∃ desktop : Desktop, desktop.root = 0x8000 ∧
      (desktop.widget 0x9000).children = [0xA000] := by
  have taken : (Runs.run step window (start 0x8000 320 200 0 0 0xA8)).isSome = true := by decide
  obtain ⟨final, completed⟩ := Option.isSome_iff_exists.mp taken
  obtain ⟨children, tree⟩ := tree_iff_room 0x8000 320 200 0 0 0xA8 window final completed
  have room : ∀ parent, (given window parent).length ≤ 100 := fun parent => by
    rw [given, List.length_map]
    exact Nat.le_trans (List.length_filter_le _ window) (by decide)
  obtain ⟨desktop, widgets, root⟩ := tree.mpr room
  refine ⟨desktop, root, ?_⟩
  rw [widgets, children]
  decide

end BlueOs.WidgetConstruction
