import BlueOs.HitTesting

/-!
# Keyboard focus follows the last click

A click gives the focus to the clicked leaf at every composite on the way up to the
desktop, so the way down that a key event takes ends at that leaf. Pointers left over
in other subtrees lie off this way: a composite above them points elsewhere.
-/

namespace BlueOs.WidgetTree

open VideoGraphicsArray

namespace Focus

variable {layout : Layout}

/-- Only composites have children. -/
theorem composite_of_child (child parent : Address)
    (below : (layout.widget child).parent = some parent) :
    (layout.widget parent).isLeaf = false := by
  have member := (layout.matching child parent).mp below
  rw [Bool.eq_false_iff]
  intro leaf
  rw [layout.leaf_children parent leaf] at member
  cases member

theorem onKey_isLeaf (focus : Focus layout) (self leaf : Address)
    (received : focus.onKey self = some leaf) : (layout.widget leaf).isLeaf = true := by
  induction self using layout.forest.induction_down with
  | step self inductionHypothesis =>
    by_cases kind : (layout.widget self).isLeaf = true
    · rw [focus.onKey_leaf self kind] at received
      cases received
      exact kind
    · rw [focus.onKey_composite self (Bool.eq_false_iff.mpr kind)] at received
      obtain ⟨child, focussed, passed⟩ := Option.bind_eq_some_iff.mp received
      exact inductionHypothesis child (focus.belongs self child focussed) passed

/-- The way of a key event depends on the composites from its start down. -/
theorem onKey_congr (one other : Focus layout) (self : Address)
    (same : ∀ node, layout.depth self ≤ layout.depth node →
      one.focussedChild node = other.focussedChild node) :
    one.onKey self = other.onKey self := by
  induction self using layout.forest.induction_down with
  | step self inductionHypothesis =>
    by_cases leaf : (layout.widget self).isLeaf = true
    · rw [one.onKey_leaf self leaf, other.onKey_leaf self leaf]
    · have composite := Bool.eq_false_iff.mpr leaf
      rw [one.onKey_composite self composite, other.onKey_composite self composite,
        same self (Nat.le_refl _)]
      cases focussed : other.focussedChild self with
      | none => rfl
      | some child =>
        have below := other.belongs self child focussed
        have deeper := layout.deeper child self below
        exact inductionHypothesis child below fun node lower => same node (by omega)

/-- A key event to a composite that just focussed a child goes to the child. -/
theorem onKey_assign (focus : Focus layout) (self child : Address)
    (held : (layout.widget child).parent = some self) :
    (focus.assign self child held).onKey self = focus.onKey child := by
  rw [onKey_composite _ self (composite_of_child child self held), assign_self, Option.bind_some]
  apply onKey_congr
  intro node lower
  have deeper := layout.deeper child self held
  have elsewhere : node ≠ self := by
    rintro rfl
    omega
  exact focus.assign_other self child node held elsewhere

/-- A composite that asks for the focus on behalf of a child gets every key event of
the root, and passes it to the child. -/
theorem onKey_getFocus (focus : Focus layout) (root self child : Address)
    (top : (layout.widget root).parent = none) (under : layout.forest.Under root self)
    (held : (layout.widget child).parent = some self) :
    (focus.getFocus self child held).onKey root = focus.onKey child := by
  induction self using layout.forest.induction_up generalizing focus child with
  | step self inductionHypothesis =>
    cases under with
    | self => rw [focus.getFocus_root root child held top, onKey_assign]
    | child _ parent below higher =>
      rw [focus.getFocus_child self child parent held below,
        inductionHypothesis parent below _ self higher below, onKey_assign]

end Focus

/-- The events of the desktop that leaves handle. -/
inductive Event where
  | mouse (event : Button) (x y : Word) (button : Byte)
  | key (event : Key) (character : Byte)

/-- The focusable leaf that received the most recent press, if there is one. -/
def lastClicked (layout : Layout) : List Received → Option Address
  | [] => none
  | .mouse .down widget _ _ _ :: earlier =>
    if (layout.widget widget).focusable then some widget else lastClicked layout earlier
  | _ :: earlier => lastClicked layout earlier

theorem lastClicked_focusable (layout : Layout) (leaf : Address) (received : List Received)
    (clicked : lastClicked layout received = some leaf) :
    (layout.widget leaf).focusable = true := by
  fun_induction lastClicked layout received with
  | case1 => cases clicked
  | case2 widget x y button earlier focusable =>
    cases clicked
    exact focusable
  | case3 widget x y button earlier unfocusable inductionHypothesis =>
    exact inductionHypothesis clicked
  | case4 other earlier notPress inductionHypothesis => exact inductionHypothesis clicked

namespace Desktop

variable (desktop : Desktop)

def handle (state : State desktop.toLayout) : Event → State desktop.toLayout
  | .mouse event x y button => desktop.onMouse event x y button state
  | .key event character => desktop.onKey event character state

/-- The desktop as constructed, before any event. -/
def start : State desktop.toLayout where
  focus := Focus.construct desktop.toLayout
  received := []

/-- The state after a history of events. -/
def after (history : List Event) : State desktop.toLayout :=
  history.foldl desktop.handle desktop.start

/-- The focus leads to the last clicked leaf. -/
def Follows (state : State desktop.toLayout) : Prop :=
  state.focus.onKey desktop.root = lastClicked desktop.toLayout state.received

theorem start_follows : desktop.Follows desktop.start := by
  rw [Follows, Focus.onKey_composite _ desktop.root desktop.composite]
  rfl

theorem leafMouse_follows (event : Button) (button : Byte) (leaf : Address) (x y : Word)
    (state : State desktop.toLayout) (isLeaf : (desktop.widget leaf).isLeaf = true)
    (under : desktop.forest.Under desktop.root leaf) (follows : desktop.Follows state) :
    desktop.Follows (leafMouse event button leaf x y state) := by
  cases event with
  | up => exact follows
  | down =>
    by_cases focusable : (desktop.widget leaf).focusable = true
    · cases under with
      | self =>
        rw [desktop.composite] at isLeaf
        cases isLeaf
      | child _ parent below higher =>
        have held : (desktop.widget leaf).parent = some parent := below
        have clicked : lastClicked desktop.toLayout
            (leafMouse .down button leaf x y state).received = some leaf := by
          rw [leafMouse_received, lastClicked, if_pos focusable]
        rw [Follows, clicked]
        change (state.focus.leafMouseDown leaf).onKey desktop.root = some leaf
        rw [state.focus.leafMouseDown_focusable leaf parent focusable held,
          Focus.onKey_getFocus _ _ _ _ desktop.top higher, Focus.onKey_leaf _ leaf isLeaf]
    · have unchanged : lastClicked desktop.toLayout
          (leafMouse .down button leaf x y state).received =
            lastClicked desktop.toLayout state.received := by
        rw [leafMouse_received, lastClicked, if_neg focusable]
      rw [Follows, unchanged]
      change (state.focus.leafMouseDown leaf).onKey desktop.root = _
      rw [state.focus.leafMouseDown_not_focusable leaf focusable]
      exact follows

theorem handle_follows (event : Event) (state : State desktop.toLayout)
    (follows : desktop.Follows state) : desktop.Follows (desktop.handle state event) := by
  cases event with
  | mouse event x y button =>
    rw [handle, desktop.onMouse_eq]
    split
    case isTrue isLeaf =>
      exact desktop.leafMouse_follows event button _ _ _ state isLeaf
        ((desktop.front x y).bottom_under desktop.root) follows
    case isFalse => exact follows
  | key event character =>
    rw [handle, onKey]
    split
    · exact follows
    · exact follows

theorem after_follows (history : List Event) : desktop.Follows (desktop.after history) := by
  rw [after]
  induction history using List.reverseRecOn with
  | nil => exact desktop.start_follows
  | append_singleton earlier event inductionHypothesis =>
    rw [List.foldl_append]
    exact desktop.handle_follows event _ inductionHypothesis

theorem onKey_received (event : Key) (character : Byte) (state : State desktop.toLayout) :
    (desktop.onKey event character state).received =
      ((state.focus.onKey desktop.root).map fun leaf => .key event leaf character).toList ++
        state.received := by
  rw [onKey]
  split
  case h_1 none => rw [none, Option.map_none, Option.toList_none, List.nil_append]
  case h_2 leaf reached =>
    rw [reached, Option.map_some, Option.toList_some, List.singleton_append]

/-- A press that no focusable leaf receives moves no focus. -/
theorem press_unfocussed (x y : Word) (button : Byte) (state : State desktop.toLayout)
    (missed : ∀ leaf localX localY, (desktop.onMouse .down x y button state).received =
        .mouse .down leaf localX localY button :: state.received →
      (desktop.widget leaf).focusable = false) :
    (desktop.onMouse .down x y button state).focus = state.focus := by
  rw [desktop.onMouse_eq] at missed ⊢
  split at missed
  case isTrue isLeaf =>
    rw [if_pos isLeaf]
    change state.focus.leafMouseDown _ = state.focus
    exact Focus.leafMouseDown_not_focusable _ _ (Bool.eq_false_iff.mp (missed _ _ _ rfl))
  case isFalse composite => rw [if_neg composite]

/-- After any history a key event is received by the focusable leaf that was pressed
last and by nobody else, and by no leaf if there is none; a press that no focusable
leaf receives leaves the receiver as it is. -/
theorem key_follows_click (history : List Event) (event : Key) (character : Byte) :
    (∀ leaf, lastClicked desktop.toLayout (desktop.after history).received = some leaf →
      (desktop.widget leaf).isLeaf = true ∧ (desktop.widget leaf).focusable = true ∧
      (desktop.onKey event character (desktop.after history)).received =
        .key event leaf character :: (desktop.after history).received) ∧
    (lastClicked desktop.toLayout (desktop.after history).received = none →
      (desktop.onKey event character (desktop.after history)).received =
        (desktop.after history).received) ∧
    (∀ x y button, (∀ leaf localX localY,
        (desktop.onMouse .down x y button (desktop.after history)).received =
          .mouse .down leaf localX localY button :: (desktop.after history).received →
        (desktop.widget leaf).focusable = false) →
      (desktop.onMouse .down x y button (desktop.after history)).focus.onKey desktop.root =
        (desktop.after history).focus.onKey desktop.root) := by
  have follows := desktop.after_follows history
  rw [Follows] at follows
  refine ⟨fun leaf clicked => ?_, fun unclicked => ?_, fun x y button missed => ?_⟩
  · rw [clicked] at follows
    refine ⟨Focus.onKey_isLeaf _ _ leaf follows, lastClicked_focusable _ leaf _ clicked, ?_⟩
    rw [desktop.onKey_received, follows]
    rfl
  · rw [desktop.onKey_received, follows, unclicked]
    rfl
  · rw [desktop.press_unfocussed x y button _ missed]

/-- A press on one of the two leaves. -/
theorem overlapping_press (leaf : Address) (x y : Word) (state : State overlapping.toLayout)
    (found : (overlappingWidget 0x1000).children.find?
      (fun child => (overlappingWidget child).containsCoordinate x y) = some leaf)
    (isLeaf : (overlappingWidget leaf).isLeaf = true) :
    overlapping.handle state (.mouse .down x y 1) = leafMouse .down 1 leaf x y state := by
  have across : x - (overlapping.widget overlapping.root).x = x := BitVec.sub_zero x
  have down : y - (overlapping.widget overlapping.root).y = y := BitVec.sub_zero y
  have passed := overlapping.toLayout.onMouse_found (leafMouse .down 1) overlapping.root leaf x y
    state rfl (by rw [across, down]; exact found)
  rw [across, down, overlapping.toLayout.onMouse_leaf _ leaf x y state isLeaf] at passed
  exact passed

/-- A press on the first leaf, one on the second and one beside both: the key goes to the
second. -/
theorem key_follows_click_overlapping :
    (overlapping.onKey .press 0x41 (overlapping.after
        [.mouse .down 12 12 1, .mouse .down 33 33 1, .mouse .down 300 190 1])).received =
      [.key .press 0x3000 0x41, .mouse .down 0x3000 33 33 1, .mouse .down 0x2000 12 12 1] := by
  have history : (overlapping.after
      [.mouse .down 12 12 1, .mouse .down 33 33 1, .mouse .down 300 190 1]).received =
        [.mouse .down 0x3000 33 33 1, .mouse .down 0x2000 12 12 1] := by
    have missed := overlapping.toLayout.onMouse_missed (leafMouse .down 1) overlapping.root 300 190
      (overlapping.after [.mouse .down 12 12 1, .mouse .down 33 33 1]) rfl (by decide)
    rw [after, List.foldl_cons, List.foldl_cons,
      overlapping_press 0x2000 12 12 _ (by decide) (by decide),
      overlapping_press 0x3000 33 33 _ (by decide) (by decide)] at missed
    rw [after, List.foldl_cons, List.foldl_cons,
      overlapping_press 0x2000 12 12 _ (by decide) (by decide),
      overlapping_press 0x3000 33 33 _ (by decide) (by decide)]
    exact congrArg State.received missed
  have clicked := (overlapping.key_follows_click
    [.mouse .down 12 12 1, .mouse .down 33 33 1, .mouse .down 300 190 1] .press 0x41).1 0x3000
    (by rw [history]; rfl)
  rw [clicked.2.2, history]

end Desktop

end BlueOs.WidgetTree
