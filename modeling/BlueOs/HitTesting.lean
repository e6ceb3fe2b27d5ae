import BlueOs.WidgetTree

/-!
# What is seen and what is clicked

Drawing and hit testing are two walks over one tree. Hit testing goes down to the
first child that contains the pointer; the last widget that paints a pixel is found
by going down to the last such child. With children inside their parents both walks
agree with the geometry of the screen, and so they end at the same leaf exactly when
they do not part at overlapping siblings on the way to a leaf.
-/

namespace BlueOs.WidgetTree

open VideoGraphicsArray

/-- One side of a rectangle that lies on the screen: the signed test in the parent's
frame is the unsigned test of the drawing loops in the screen's frame. -/
theorem side_contains (frame corner size position : Word)
    (fits : frame.toNat + corner.toNat + size.toNat ≤ 320) (onScreen : position.toNat < 320) :
    (corner.sle (position - frame) && (position - frame).slt (corner + size)) = true ↔
      frame + corner ≤ position ∧ position < frame + corner + size := by
  simp only [Bool.and_eq_true, BitVec.sle_iff_toInt_le, BitVec.slt_iff_toInt_lt,
    BitVec.toInt_eq_toNat_cond]
  bv_omega

theorem toNat_of_nonneg (value : Word) (nonneg : 0 ≤ value.toInt) :
    value.toInt = value.toNat := by
  rw [BitVec.toInt_eq_toNat_cond] at nonneg ⊢
  split
  · rfl
  · have bound := value.isLt
    omega

namespace Widget

/-- The rectangle of a child lies inside the rectangle of its parent. -/
structure Inside (child parent : Widget) : Prop where
  left : 0 ≤ child.x.toInt
  width : 0 ≤ child.w.toInt
  right : child.x.toInt + child.w.toInt ≤ parent.w.toInt
  upper : 0 ≤ child.y.toInt
  height : 0 ≤ child.h.toInt
  lower : child.y.toInt + child.h.toInt ≤ parent.h.toInt

/-- The same without signs. -/
theorem Inside.fits {child parent : Widget} (inside : child.Inside parent)
    (wide : 0 ≤ parent.w.toInt) (high : 0 ≤ parent.h.toInt) :
    child.x.toNat + child.w.toNat ≤ parent.w.toNat ∧
      child.y.toNat + child.h.toNat ≤ parent.h.toNat := by
  have left := toNat_of_nonneg _ inside.left
  have width := toNat_of_nonneg _ inside.width
  have upper := toNat_of_nonneg _ inside.upper
  have height := toNat_of_nonneg _ inside.height
  have parentWidth := toNat_of_nonneg _ wide
  have parentHeight := toNat_of_nonneg _ high
  have right := inside.right
  have lower := inside.lower
  omega

end Widget

namespace Layout

variable (layout : Layout)

/-- The screen position of a widget's corner. -/
def origin (self : Address) : Word × Word := layout.modelToScreen self 0 0

theorem origin_child (child parent : Address) (below : (layout.widget child).parent = some parent) :
    layout.origin child = ((layout.origin parent).1 + (layout.widget child).x,
      (layout.origin parent).2 + (layout.widget child).y) :=
  layout.modelToScreen_child child parent 0 0 below

/-- The rectangle of a widget lies on the screen. -/
structure OnScreen (node : Address) : Prop where
  width : (layout.origin node).1.toNat + (layout.widget node).w.toNat ≤ 320
  height : (layout.origin node).2.toNat + (layout.widget node).h.toNat ≤ 200
  wide : 0 ≤ (layout.widget node).w.toInt
  high : 0 ≤ (layout.widget node).h.toInt

/-- The child of a widget on the screen, in the numbers of the screen. -/
theorem child_fits (child parent : Address)
    (inside : (layout.widget child).Inside (layout.widget parent))
    (onScreen : layout.OnScreen parent) :
    (layout.origin parent).1.toNat + (layout.widget child).x.toNat +
        (layout.widget child).w.toNat ≤ 320 ∧
      (layout.origin parent).2.toNat + (layout.widget child).y.toNat +
        (layout.widget child).h.toNat ≤ 200 := by
  obtain ⟨right, lower⟩ := inside.fits onScreen.wide onScreen.high
  have across := onScreen.width
  have down := onScreen.height
  omega

theorem onScreen_child (child parent : Address)
    (below : (layout.widget child).parent = some parent)
    (inside : (layout.widget child).Inside (layout.widget parent))
    (onScreen : layout.OnScreen parent) : layout.OnScreen child := by
  obtain ⟨across, down⟩ := layout.child_fits child parent inside onScreen
  have origin := layout.origin_child child parent below
  refine ⟨?_, ?_, inside.width, inside.height⟩
  · rw [origin]
    bv_omega
  · rw [origin]
    bv_omega

/-- Whether a child of a widget contains a position of the screen, as hit testing
asks it. -/
def holds (parent : Address) (x y : Word) (child : Address) : Bool :=
  (layout.widget child).containsCoordinate (x - (layout.origin parent).1)
    (y - (layout.origin parent).2)

/-- Whether a call stores the pixel at a position. -/
def Fill.covers (fill : Fill) (x y : Word) : Bool :=
  fill.pixels.any fun pixel => pixel.x = x && pixel.y = y

/-- The widget whose call stores the pixel last. -/
def lastPainter (fills : List Fill) (x y : Word) : Option Address :=
  (fills.reverse.find? fun fill => fill.covers x y).map Fill.widget

theorem fill_covers (self : Address) (x y : Word) :
    (layout.fill self).covers x y = true ↔
      (layout.origin self).1 ≤ x ∧ x < (layout.origin self).1 + (layout.widget self).w ∧
      (layout.origin self).2 ≤ y ∧ y < (layout.origin self).2 + (layout.widget self).h ∧
      x < 320 ∧ y < 200 := by
  rw [← fillRectangle_stores _ _ _ _ x y (layout.widget self).r (layout.widget self).g
    (layout.widget self).b]
  simp only [Fill.covers, fill, origin, List.any_eq_true, Bool.and_eq_true, decide_eq_true_eq]

/-- Hit testing and drawing have the same idea of a child's rectangle. -/
theorem holds_iff_covers (child parent : Address) (x y : Word)
    (below : (layout.widget child).parent = some parent)
    (inside : (layout.widget child).Inside (layout.widget parent))
    (onScreen : layout.OnScreen parent) (across : x < 320) (down : y < 200) :
    layout.holds parent x y child = true ↔ (layout.fill child).covers x y = true := by
  obtain ⟨wide, high⟩ := layout.child_fits child parent inside onScreen
  have column := side_contains (layout.origin parent).1 (layout.widget child).x
    (layout.widget child).w x wide (by bv_omega)
  have row := side_contains (layout.origin parent).2 (layout.widget child).y
    (layout.widget child).h y (by omega) (by bv_omega)
  rw [layout.fill_covers, layout.origin_child child parent below, holds,
    Widget.containsCoordinate, Bool.and_assoc, Bool.and_eq_true, column, row]
  tauto

/-- A child paints inside its parent only. -/
theorem covers_parent (child parent : Address) (x y : Word)
    (below : (layout.widget child).parent = some parent)
    (inside : (layout.widget child).Inside (layout.widget parent))
    (onScreen : layout.OnScreen parent)
    (covers : (layout.fill child).covers x y = true) :
    (layout.fill parent).covers x y = true := by
  obtain ⟨right, lower⟩ := inside.fits onScreen.wide onScreen.high
  have parentAcross := onScreen.width
  have parentDown := onScreen.height
  rw [layout.fill_covers, layout.origin_child child parent below] at covers
  rw [layout.fill_covers]
  obtain ⟨fromLeft, toRight, fromTop, toBottom, across, down⟩ := covers
  refine ⟨?_, ?_, ?_, ?_, across, down⟩ <;> bv_omega

/-- The first child that contains the position, at every composite. -/
def front (x y : Word) : layout.forest.Choice where
  next self := (layout.widget self).children.find? (layout.holds self x y)
  below self child found := (layout.matching child self).mpr (List.mem_of_find?_eq_some found)

/-- The last child that contains the position, at every composite. -/
def back (x y : Word) : layout.forest.Choice where
  next self := (layout.widget self).children.reverse.find? (layout.holds self x y)
  below self child found :=
    (layout.matching child self).mpr (List.mem_reverse.mp (List.mem_of_find?_eq_some found))

/-- A position of the screen as the event functions of a widget receive it: in the
frame of its parent. -/
def received (self : Address) (x y : Word) : Word × Word :=
  (x - ((layout.origin self).1 - (layout.widget self).x),
    y - ((layout.origin self).2 - (layout.widget self).y))

theorem received_child (child parent : Address) (x y : Word)
    (below : (layout.widget child).parent = some parent) :
    layout.received child x y = (x - (layout.origin parent).1, y - (layout.origin parent).2) := by
  rw [received, layout.origin_child child parent below, BitVec.add_sub_cancel,
    BitVec.add_sub_cancel]

theorem received_sub (self : Address) (x y : Word) :
    (layout.received self x y).1 - (layout.widget self).x = x - (layout.origin self).1 ∧
      (layout.received self x y).2 - (layout.widget self).y = y - (layout.origin self).2 := by
  simp only [received]
  constructor <;> bv_omega

/-- A press or a release is handled at the end of the front walk, if that is a leaf. -/
theorem onMouse_eq {σ : Type} (handle : Address → Word → Word → σ → σ) (x y : Word) (state : σ)
    (self : Address) :
    layout.onMouse handle self (layout.received self x y).1 (layout.received self x y).2 state =
      if (layout.widget ((layout.front x y).bottom self)).isLeaf = true then
        handle ((layout.front x y).bottom self)
          (layout.received ((layout.front x y).bottom self) x y).1
          (layout.received ((layout.front x y).bottom self) x y).2 state
      else state := by
  induction self using layout.forest.induction_down with
  | step self inductionHypothesis =>
    by_cases leaf : (layout.widget self).isLeaf = true
    · have ends : (layout.front x y).next self = none := by
        simp only [front, layout.leaf_children self leaf, List.find?_nil]
      rw [layout.onMouse_leaf handle self _ _ state leaf,
        (layout.front x y).bottom_none self ends, if_pos leaf]
    · obtain ⟨column, row⟩ := layout.received_sub self x y
      have composite := Bool.eq_false_iff.mpr leaf
      cases found : (layout.front x y).next self with
      | none =>
        rw [(layout.front x y).bottom_none self found, if_neg leaf]
        apply layout.onMouse_missed handle self _ _ state composite
        rw [column, row]
        exact found
      | some child =>
        have below := (layout.front x y).below self child found
        have handled := inductionHypothesis child below
        rw [layout.received_child child self x y below] at handled
        rw [(layout.front x y).bottom_some self child found, ← handled, ← column, ← row]
        apply layout.onMouse_found handle self child _ _ state composite
        rw [column, row]
        exact found

/-- A walk over a list that answers at the elements with a property answers at the
first of them. -/
theorem findSome?_eq_map_find? {α β : Type} (list : List α) (walk : α → Option β)
    (holds : α → Bool) (answer : α → β)
    (exactly : ∀ element ∈ list,
      walk element = if holds element then some (answer element) else none) :
    list.findSome? walk = (list.find? holds).map answer := by
  induction list with
  | nil => rfl
  | cons element rest inductionHypothesis =>
    have following := inductionHypothesis fun other member =>
      exactly other (List.mem_cons_of_mem element member)
    have first := exactly element List.mem_cons_self
    by_cases held : holds element = true
    · rw [List.find?_cons_of_pos held, List.findSome?_cons, first, if_pos held, Option.map_some]
    · rw [List.find?_cons_of_neg held, List.findSome?_cons, first, if_neg held, following]

/-- The last painter of a composite's picture: one of its children's, or itself. -/
theorem lastPainter_draw (self : Address) (x y : Word) :
    lastPainter (layout.draw self) x y =
      ((layout.widget self).children.reverse.findSome? fun child =>
          lastPainter (layout.draw child) x y).or
        (if (layout.fill self).covers x y then some self else none) := by
  rw [lastPainter, layout.draw_eq, List.reverse_cons, List.find?_append, Option.map_or,
    List.reverse_flatMap, List.find?_flatMap, List.map_findSome?, List.find?_singleton]
  congr 1
  split <;> rfl

/-- With children inside their parents, the last painter of a pixel is the end of the
back walk. -/
theorem lastPainter_eq (top : Address) (x y : Word) (across : x < 320) (down : y < 200)
    (nested : ∀ parent child, layout.forest.Under top parent →
      (layout.widget child).parent = some parent →
      (layout.widget child).Inside (layout.widget parent))
    (self : Address) (under : layout.forest.Under top self) (onScreen : layout.OnScreen self) :
    lastPainter (layout.draw self) x y =
      if (layout.fill self).covers x y then some ((layout.back x y).bottom self) else none := by
  induction self using layout.forest.induction_down with
  | step self inductionHypothesis =>
    have painters : ((layout.widget self).children.reverse.findSome? fun child =>
        lastPainter (layout.draw child) x y) =
          ((layout.back x y).next self).map (layout.back x y).bottom := by
      refine findSome?_eq_map_find? _ _ _ _ fun child member => ?_
      have below := (layout.matching child self).mpr (List.mem_reverse.mp member)
      have inside := nested self child under below
      rw [inductionHypothesis child below (.child child self below under)
        (layout.onScreen_child child self below inside onScreen)]
      have same := layout.holds_iff_covers child self x y below inside onScreen across down
      exact if_congr same.symm rfl rfl
    rw [layout.lastPainter_draw, painters]
    cases found : (layout.back x y).next self with
    | none => rw [(layout.back x y).bottom_none self found, Option.map_none, Option.none_or]
    | some child =>
      have below := (layout.back x y).below self child found
      have inside := nested self child under below
      have held : layout.holds self x y child = true := List.find?_some found
      have covers := layout.covers_parent child self x y below inside onScreen
        ((layout.holds_iff_covers child self x y below inside onScreen across down).mp held)
      rw [(layout.back x y).bottom_some self child found, Option.map_some, Option.some_or,
        if_pos covers]

/-- No overlap comes between the eye and the hand: as long as the first and the last
child that contain the position are one child, the walk goes on in it; where they
differ, neither the front walk nor the back walk from there ends at a leaf. -/
def Unobstructed (x y : Word) (self : Address) : Prop :=
  match _first : (layout.front x y).next self, (layout.back x y).next self with
  | some first, some last =>
    if first = last then Unobstructed x y first
    else (layout.widget ((layout.front x y).bottom first)).isLeaf = false ∧
      (layout.widget ((layout.back x y).bottom last)).isLeaf = false
  | _, _ => True
termination_by layout.bound - layout.depth self
decreasing_by
  exact layout.forest.levels_left first self ((layout.front x y).below self first _first)

/-- If no child contains the position, there is neither a first nor a last one. -/
theorem front_none_iff (x y : Word) (self : Address) :
    (layout.front x y).next self = none ↔ (layout.back x y).next self = none := by
  simp only [front, back, List.find?_eq_none, List.mem_reverse]

theorem unobstructed_none (x y : Word) (self : Address)
    (ends : (layout.front x y).next self = none) : layout.Unobstructed x y self := by
  rw [Unobstructed]
  split
  · simp_all
  · trivial

theorem unobstructed_some (x y : Word) (self first last : Address)
    (foremost : (layout.front x y).next self = some first)
    (hindmost : (layout.back x y).next self = some last) :
    layout.Unobstructed x y self ↔
      if first = last then layout.Unobstructed x y first
      else (layout.widget ((layout.front x y).bottom first)).isLeaf = false ∧
        (layout.widget ((layout.back x y).bottom last)).isLeaf = false := by
  rw [Unobstructed]
  split
  · simp_all
  · simp_all

/-- The two walks end at the same widget as soon as one of them ends at a leaf. -/
def Agree (x y : Word) (self : Address) : Prop :=
  ((layout.widget ((layout.front x y).bottom self)).isLeaf = true ∨
      (layout.widget ((layout.back x y).bottom self)).isLeaf = true) →
    (layout.front x y).bottom self = (layout.back x y).bottom self

/-- Walks that part at siblings never meet again. -/
theorem agree_iff_unobstructed (x y : Word) (self : Address) :
    layout.Agree x y self ↔ layout.Unobstructed x y self := by
  induction self using layout.forest.induction_down with
  | step self inductionHypothesis =>
    cases foremost : (layout.front x y).next self with
    | none =>
      have hindmost := (layout.front_none_iff x y self).mp foremost
      have agree : layout.Agree x y self := by
        intro _
        rw [(layout.front x y).bottom_none self foremost,
          (layout.back x y).bottom_none self hindmost]
      exact iff_of_true agree (layout.unobstructed_none x y self foremost)
    | some first =>
      cases hindmost : (layout.back x y).next self with
      | none =>
        rw [(layout.front_none_iff x y self).mpr hindmost] at foremost
        cases foremost
      | some last =>
        have frontChild := (layout.front x y).below self first foremost
        have backChild := (layout.back x y).below self last hindmost
        rw [layout.unobstructed_some x y self first last foremost hindmost, Agree,
          (layout.front x y).bottom_some self first foremost,
          (layout.back x y).bottom_some self last hindmost]
        by_cases same : first = last
        · subst same
          rw [if_pos rfl]
          exact inductionHypothesis first frontChild
        · have apart : (layout.front x y).bottom first ≠ (layout.back x y).bottom last := by
            intro meet
            have under := (layout.front x y).bottom_under first
            rw [meet] at under
            exact layout.forest.siblings_apart self first last _ frontChild backChild same under
              ((layout.back x y).bottom_under last)
          rw [if_neg same, imp_iff_not apart, not_or, Bool.not_eq_true, Bool.not_eq_true]

end Layout

namespace Desktop

variable (desktop : Desktop)

/-- A desktop that fits on the screen, with every widget inside its parent. -/
structure Fits : Prop where
  width : (desktop.widget desktop.root).w.toInt ≤ 320
  height : (desktop.widget desktop.root).h.toInt ≤ 200
  nested : ∀ parent child, desktop.forest.Under desktop.root parent →
    (desktop.widget child).parent = some parent →
    (desktop.widget child).Inside (desktop.widget parent)

/-- The pointer is inside the desktop. -/
structure Points (x y : Word) : Prop where
  left : 0 ≤ x.toInt
  right : x.toInt < (desktop.widget desktop.root).w.toInt
  upper : 0 ≤ y.toInt
  lower : y.toInt < (desktop.widget desktop.root).h.toInt

/-- What is seen is what is clicked. -/
def SeenIsClicked (event : Button) (x y : Word) (button : Byte)
    (state : State desktop.toLayout) : Prop :=
  (∀ leaf localX localY, (desktop.onMouse event x y button state).received =
      .mouse event leaf localX localY button :: state.received →
    Layout.lastPainter desktop.draw x y = some leaf) ∧
  (∀ leaf, Layout.lastPainter desktop.draw x y = some leaf →
    (desktop.widget leaf).isLeaf = true →
    ∃ localX localY, (desktop.onMouse event x y button state).received =
      .mouse event leaf localX localY button :: state.received)

theorem origin_root : desktop.origin desktop.root = (0, 0) := by
  rw [Layout.origin, desktop.modelToScreen_root _ _ _ desktop.top, desktop.left, desktop.upper]
  rfl

theorem received_root (x y : Word) : desktop.toLayout.received desktop.root x y = (x, y) := by
  rw [Layout.received, desktop.origin_root, desktop.left, desktop.upper]
  simp only [BitVec.sub_zero, BitVec.ofNat_eq_ofNat]

theorem onScreen_root (fits : desktop.Fits) {x y : Word} (points : desktop.Points x y) :
    desktop.OnScreen desktop.root := by
  obtain ⟨left, right, upper, lower⟩ := points
  have wide : 0 ≤ (desktop.widget desktop.root).w.toInt := by omega
  have high : 0 ≤ (desktop.widget desktop.root).h.toInt := by omega
  have width := toNat_of_nonneg _ wide
  have height := toNat_of_nonneg _ high
  have across := fits.width
  have down := fits.height
  refine ⟨?_, ?_, wide, high⟩
  · rw [desktop.origin_root]
    change 0 + _ ≤ 320
    omega
  · rw [desktop.origin_root]
    change 0 + _ ≤ 200
    omega

/-- The leaf at the end of the front walk handles the event. -/
theorem onMouse_eq (event : Button) (x y : Word) (button : Byte) (state : State desktop.toLayout) :
    desktop.onMouse event x y button state =
      if (desktop.widget ((desktop.front x y).bottom desktop.root)).isLeaf = true then
        leafMouse event button ((desktop.front x y).bottom desktop.root)
          (desktop.toLayout.received ((desktop.front x y).bottom desktop.root) x y).1
          (desktop.toLayout.received ((desktop.front x y).bottom desktop.root) x y).2 state
      else state := by
  have handled := desktop.toLayout.onMouse_eq (leafMouse event button) x y state desktop.root
  rw [desktop.received_root] at handled
  exact handled

/-- The end of the back walk paints the pixel last. -/
theorem lastPainter_draw (fits : desktop.Fits) (x y : Word) (points : desktop.Points x y) :
    Layout.lastPainter desktop.draw x y = some ((desktop.back x y).bottom desktop.root) := by
  have onScreen := desktop.onScreen_root fits points
  obtain ⟨left, right, upper, lower⟩ := points
  have width := toNat_of_nonneg _ onScreen.wide
  have height := toNat_of_nonneg _ onScreen.high
  have column := toNat_of_nonneg _ left
  have row := toNat_of_nonneg _ upper
  have wide := fits.width
  have high := fits.height
  have across : x < 320 := by bv_omega
  have down : y < 200 := by bv_omega
  have covers : (desktop.fill desktop.root).covers x y = true := by
    rw [desktop.fill_covers, desktop.origin_root]
    refine ⟨?_, ?_, ?_, ?_, across, down⟩ <;> bv_omega
  rw [draw, desktop.lastPainter_eq desktop.root x y across down fits.nested desktop.root .self
    onScreen, if_pos covers]

theorem seen_iff_agree (fits : desktop.Fits) (event : Button) (x y : Word)
    (points : desktop.Points x y) (button : Byte) (state : State desktop.toLayout) :
    desktop.SeenIsClicked event x y button state ↔ desktop.Agree x y desktop.root := by
  have painter := desktop.lastPainter_draw fits x y points
  rw [SeenIsClicked, painter, desktop.onMouse_eq, Layout.Agree]
  by_cases leaf : (desktop.widget ((desktop.front x y).bottom desktop.root)).isLeaf = true
  · rw [if_pos leaf]
    constructor
    · rintro ⟨seen, _⟩ _
      exact (Option.some.inj (seen _ _ _ rfl)).symm
    · intro agree
      rw [← agree (.inl leaf)]
      constructor
      · intro clicked localX localY delivered
        rw [leafMouse_received, List.cons.injEq, Received.mouse.injEq] at delivered
        rw [delivered.1.2.1]
      · intro painter painted _
        cases painted
        exact ⟨_, _, rfl⟩
  · rw [if_neg leaf]
    constructor
    · rintro ⟨_, clicked⟩ (frontLeaf | backLeaf)
      · exact absurd frontLeaf leaf
      · obtain ⟨localX, localY, delivered⟩ := clicked _ rfl backLeaf
        exact absurd delivered List.ne_cons_self
    · intro agree
      constructor
      · intro clicked localX localY delivered
        exact absurd delivered List.ne_cons_self
      · intro painter painted backLeaf
        cases painted
        rw [agree (.inr backLeaf)] at leaf
        exact absurd backLeaf leaf

/-- What is seen is what is clicked exactly when no overlap comes between. -/
theorem seen_is_clicked_iff (fits : desktop.Fits) (event : Button) (x y : Word)
    (points : desktop.Points x y) (button : Byte) (state : State desktop.toLayout) :
    desktop.SeenIsClicked event x y button state ↔ desktop.Unobstructed x y desktop.root :=
  (desktop.seen_iff_agree fits event x y points button state).trans
    (desktop.agree_iff_unobstructed x y desktop.root)

theorem holds_root (x y : Word) : desktop.holds desktop.root x y =
    fun child => (desktop.widget child).containsCoordinate x y := by
  funext child
  rw [Layout.holds, desktop.origin_root]
  simp only [BitVec.ofNat_eq_ofNat, BitVec.sub_zero]

theorem front_root (x y : Word) : (desktop.front x y).next desktop.root =
    (desktop.widget desktop.root).children.find? fun child =>
      (desktop.widget child).containsCoordinate x y := by
  change (desktop.widget desktop.root).children.find? (desktop.holds desktop.root x y) = _
  rw [holds_root]

theorem back_root (x y : Word) : (desktop.back x y).next desktop.root =
    (desktop.widget desktop.root).children.reverse.find? fun child =>
      (desktop.widget child).containsCoordinate x y := by
  change (desktop.widget desktop.root).children.reverse.find? (desktop.holds desktop.root x y) = _
  rw [holds_root]

end Desktop

/-- A full screen with two leaves; the second one covers a corner of the first. -/
def overlappingWidget (address : Address) : Widget :=
  if address = 0x1000 then
    { parent := none, x := 0, y := 0, w := 320, h := 200, r := 0x00, g := 0x00, b := 0xA8,
      focusable := true, kind := .composite [0x2000, 0x3000] }
  else if address = 0x2000 then
    { parent := some 0x1000, x := 10, y := 10, w := 20, h := 20, r := 0xA8, g := 0x00, b := 0x00,
      focusable := true, kind := .leaf }
  else if address = 0x3000 then
    { parent := some 0x1000, x := 15, y := 15, w := 20, h := 20, r := 0x00, g := 0xA8, b := 0x00,
      focusable := true, kind := .leaf }
  else
    { parent := none, x := 0, y := 0, w := 0, h := 0, r := 0, g := 0, b := 0, focusable := true,
      kind := .leaf }

theorem overlappingWidget_parent (child parent : Address) :
    (overlappingWidget child).parent = some parent ↔
      (child = 0x2000 ∨ child = 0x3000) ∧ parent = 0x1000 := by
  simp only [overlappingWidget]
  split
  · simp_all
  · split
    · simp_all [eq_comm]
    · split
      · simp_all [eq_comm]
      · simp_all

theorem overlappingWidget_children (parent child : Address) :
    child ∈ (overlappingWidget parent).children ↔
      (child = 0x2000 ∨ child = 0x3000) ∧ parent = 0x1000 := by
  simp only [overlappingWidget]
  split
  · simp_all [Widget.children]
  · split
    · simp_all [Widget.children]
    · split <;> simp_all [Widget.children]

def overlapping : Desktop where
  widget := overlappingWidget
  depth address := if address = 0x2000 ∨ address = 0x3000 then 1 else 0
  bound := 1
  deeper child parent below := by
    obtain ⟨member, rfl⟩ := (overlappingWidget_parent child parent).mp below
    rw [if_pos member]
    rfl
  bounded address := by split <;> omega
  matching child parent :=
    (overlappingWidget_parent child parent).trans (overlappingWidget_children parent child).symm
  root := 0x1000
  top := rfl
  composite := rfl
  left := rfl
  upper := rfl

theorem overlapping_fits : overlapping.Fits where
  width := by decide
  height := by decide
  nested parent child _ below := by
    obtain ⟨rfl | rfl, rfl⟩ := (overlappingWidget_parent child parent).mp below
    · constructor <;> decide
    · constructor <;> decide

/-- At (12, 12) there is only the first leaf. -/
theorem seen_is_clicked_iff_apart :
    overlapping.SeenIsClicked .down 12 12 1 ⟨Focus.construct _, []⟩ := by
  have points : overlapping.Points 12 12 := by constructor <;> decide
  have foremost : (overlapping.front 12 12).next overlapping.root = some 0x2000 := by
    rw [overlapping.front_root]
    rfl
  have hindmost : (overlapping.back 12 12).next overlapping.root = some 0x2000 := by
    rw [overlapping.back_root]
    rfl
  have unobstructed : overlapping.Unobstructed 12 12 overlapping.root := by
    rw [overlapping.unobstructed_some 12 12 _ _ _ foremost hindmost, if_pos rfl]
    exact overlapping.unobstructed_none 12 12 _ rfl
  exact (overlapping.seen_is_clicked_iff overlapping_fits .down 12 12 points 1 _).mpr unobstructed

/-- At (18, 18) the second leaf is seen and the first one clicked. -/
theorem covered_leaf_clicked : overlapping.Fits ∧ overlapping.Points 18 18 ∧
    ¬ overlapping.SeenIsClicked .down 18 18 1 ⟨Focus.construct _, []⟩ := by
  have points : overlapping.Points 18 18 := by constructor <;> decide
  have foremost : (overlapping.front 18 18).next overlapping.root = some 0x2000 := by
    rw [overlapping.front_root]
    rfl
  have hindmost : (overlapping.back 18 18).next overlapping.root = some 0x3000 := by
    rw [overlapping.back_root]
    rfl
  refine ⟨overlapping_fits, points, ?_⟩
  rw [overlapping.seen_iff_agree overlapping_fits .down 18 18 points 1, Layout.Agree,
    (overlapping.front 18 18).bottom_some _ _ foremost,
    (overlapping.back 18 18).bottom_some _ _ hindmost,
    (overlapping.front 18 18).bottom_none _ rfl, (overlapping.back 18 18).bottom_none _ rfl]
  decide

end BlueOs.WidgetTree
