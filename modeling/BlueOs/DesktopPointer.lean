import BlueOs.HitTesting
import BlueOs.Library.Runs

/-!
# The pointer of the desktop

The position of the pointer is unsigned, the motion and the size of the desktop are
signed. A quarter of the motion is added without a sign, and the sum is bounded with
one: first at the near edge, then at the far one. Whatever the sum was, the pointer
ends on the desktop; and if the desktop is not too large for the sum to overflow, it
ends at the bounded sum. The old position that the widgets are told is the one they
were told last.
-/

namespace BlueOs.DesktopPointer

open VideoGraphicsArray

/-- A call of `onMouseMove`, with the positions it passes to the widgets. -/
structure Call where
  x : Word
  y : Word
  oldx : Word
  oldy : Word
  newx : Word
  newy : Word

/-- The pointer, and all calls so far, the newest first. -/
structure State where
  mouseX : Word
  mouseY : Word
  calls : List Call

/-- One coordinate of the new position. -/
def newMouse (size mouse motion : Word) : Word :=
  let reduced := motion.sdiv 4
  let newMouse := mouse + reduced
  let newMouse := if newMouse.slt 0 then 0 else newMouse
  if size.sle newMouse then size - 1 else newMouse

section desktop

variable (w h : Word)

def construct : State where
  mouseX := w.sdiv 2
  mouseY := h.sdiv 2
  calls := []

def onMouseMove (state : State) (motion : Word × Word) : Option State :=
  let (x, y) := motion
  let newMouseX := newMouse w state.mouseX x
  let newMouseY := newMouse h state.mouseY y
  some
    { mouseX := newMouseX
      mouseY := newMouseY
      calls := ⟨x, y, state.mouseX, state.mouseY, newMouseX, newMouseY⟩ :: state.calls }

/-- A quarter of the motion, rounded towards zero, added and kept on the desktop. -/
def Bounded (size : Word) (old motion new : Word) : Prop :=
  (new.toNat : Int) = max 0 (min (old.toNat + motion.toInt.tdiv 4) (size.toInt - 1))

/-- A position on the desktop. -/
structure Inside (x y : Word) : Prop where
  column : (x.toNat : Int) < w.toInt
  row : (y.toNat : Int) < h.toInt

/-- After some motions: the pointer is on the desktop, and the widgets were told of each
motion once and in order, along an unbroken path on the desktop from its middle to the
pointer. On a desktop that is not too large each step of the path is the bounded sum
of the old position and a quarter of its motion. -/
structure Tracks (motions : List (Word × Word)) (state : State) : Prop where
  inside : Inside w h state.mouseX state.mouseY
  told : state.calls.reverse.map (fun call => (call.x, call.y)) = motions
  starts : ∀ call ∈ state.calls.getLast?, call.oldx = w.sdiv 2 ∧ call.oldy = h.sdiv 2
  unbroken : state.calls.IsChain fun later earlier =>
    later.oldx = earlier.newx ∧ later.oldy = earlier.newy
  ends : ∀ call ∈ state.calls.head?, call.newx = state.mouseX ∧ call.newy = state.mouseY
  unmoved : state.calls = [] → state.mouseX = w.sdiv 2 ∧ state.mouseY = h.sdiv 2
  within : ∀ call ∈ state.calls, Inside w h call.newx call.newy
  bounded : w.toInt ≤ 2 ^ 30 → h.toInt ≤ 2 ^ 30 → ∀ call ∈ state.calls,
    Bounded w call.oldx call.x call.newx ∧ Bounded h call.oldy call.y call.newy

end desktop

/-- The bound at the far edge keeps a coordinate that is not negative on the desktop. -/
theorem far_inside (size moved : Word) (positive : 1 ≤ size.toInt) (near : 0 ≤ moved.toInt) :
    ((if size.sle moved then size - 1 else moved).toNat : Int) < size.toInt := by
  have extent := WidgetTree.toNat_of_nonneg size (by omega)
  have same := WidgetTree.toNat_of_nonneg moved near
  split
  case isTrue far => bv_omega
  case isFalse inside =>
    rw [BitVec.sle_iff_toInt_le] at inside
    omega

/-- The pointer stays on the desktop whatever the sum was. -/
theorem newMouse_inside (size mouse motion : Word) (positive : 1 ≤ size.toInt) :
    ((newMouse size mouse motion).toNat : Int) < size.toInt := by
  apply far_inside size _ positive
  split
  case isTrue negative => decide
  case isFalse nonneg =>
    rw [BitVec.slt_iff_toInt_lt] at nonneg
    exact Int.not_lt.mp nonneg

/-- The quarter of a motion. -/
theorem reduced_toInt (motion : Word) :
    (motion.sdiv 4).toInt = motion.toInt.tdiv 4 ∧
      -2 ^ 29 ≤ motion.toInt.tdiv 4 ∧ motion.toInt.tdiv 4 ≤ 2 ^ 29 := by
  have least := motion.le_toInt
  have greatest := motion.toInt_lt
  have rounded := @Int.tdiv_eq_ediv motion.toInt 4
  have sign : Int.sign 4 = 1 := rfl
  rw [sign] at rounded
  refine ⟨BitVec.toInt_sdiv_of_ne_or_ne motion 4 (Or.inr (by decide)), ?_, ?_⟩
  · split at rounded <;> omega
  · split at rounded <;> omega

/-- On a desktop that is not too large the sum does not overflow. -/
theorem newMouse_bounded (size mouse motion : Word) (positive : 1 ≤ size.toInt)
    (small : size.toInt ≤ 2 ^ 30) (inside : (mouse.toNat : Int) < size.toInt) :
    Bounded size mouse motion (newMouse size mouse motion) := by
  obtain ⟨reduced, least, greatest⟩ := reduced_toInt motion
  have sum : (mouse + motion.sdiv 4).toInt = mouse.toNat + motion.toInt.tdiv 4 := by
    have position : mouse.toInt = mouse.toNat := by
      rw [BitVec.toInt_eq_toNat_cond]
      split <;> omega
    rw [BitVec.toInt_add, position, reduced, Int.bmod_eq_of_le] <;> omega
  have extent := WidgetTree.toNat_of_nonneg size (by omega)
  simp only [Bounded, newMouse, BitVec.slt_iff_toInt_lt, BitVec.sle_iff_toInt_le, sum]
  have zero : (0 : Word).toInt = 0 := by decide
  rw [zero]
  split
  case isTrue negative =>
    rw [if_neg (by rw [zero]; omega)]
    change (0 : Int) = _
    omega
  case isFalse nonneg =>
    have same := WidgetTree.toNat_of_nonneg (mouse + motion.sdiv 4) (by omega)
    rw [sum] at same ⊢
    split
    · bv_omega
    · omega

/-- The pointer starts in the middle. -/
theorem middle_inside (size : Word) (positive : 1 ≤ size.toInt) :
    ((size.sdiv 2).toNat : Int) < size.toInt := by
  have half : (size.sdiv 2).toInt = size.toInt.tdiv 2 :=
    BitVec.toInt_sdiv_of_ne_or_ne size 2 (Or.inr (by decide))
  rw [Int.tdiv_eq_ediv_of_nonneg (by omega)] at half
  have same := WidgetTree.toNat_of_nonneg (size.sdiv 2) (by omega)
  omega

theorem construct_tracks (w h : Word) (wide : 1 ≤ w.toInt) (high : 1 ≤ h.toInt) :
    Tracks w h [] (construct w h) where
  inside := ⟨middle_inside w wide, middle_inside h high⟩
  told := rfl
  starts _ none := by cases none
  unbroken := List.IsChain.nil
  ends _ none := by cases none
  unmoved _ := ⟨rfl, rfl⟩
  within _ none := by cases none
  bounded _ _ _ none := by cases none

/-- The new position is on the desktop, whatever the motion. -/
theorem moved_inside (w h : Word) (wide : 1 ≤ w.toInt) (high : 1 ≤ h.toInt) (state : State)
    (motion : Word × Word) :
    Inside w h (newMouse w state.mouseX motion.1) (newMouse h state.mouseY motion.2) :=
  ⟨newMouse_inside w state.mouseX motion.1 wide, newMouse_inside h state.mouseY motion.2 high⟩

/-- A motion adds one step to the path. -/
theorem onMouseMove_tracks (w h : Word) (wide : 1 ≤ w.toInt) (high : 1 ≤ h.toInt)
    (motions : List (Word × Word)) (motion : Word × Word) (state : State)
    (tracks : Tracks w h motions state) :
    ∃ next, onMouseMove w h state motion = some next ∧ Tracks w h (motions ++ [motion]) next := by
  refine ⟨_, rfl, ?_⟩
  constructor
  · exact moved_inside w h wide high state motion
  · rw [List.reverse_cons, List.map_append, tracks.told]
    rfl
  · -- The first step leaves the middle, where the pointer still is.
    intro call first
    cases calls : state.calls with
    | nil =>
      rw [calls] at first
      cases first
      exact tracks.unmoved calls
    | cons last earlier =>
      rw [calls, List.getLast?_cons_cons, ← calls] at first
      exact tracks.starts call first
  · have ends := tracks.ends
    have unbroken := tracks.unbroken
    cases calls : state.calls with
    | nil => exact List.IsChain.singleton _
    | cons last earlier =>
      rw [calls] at ends unbroken
      obtain ⟨column, row⟩ := ends last rfl
      exact List.IsChain.cons_cons ⟨column.symm, row.symm⟩ unbroken
  · rintro call ⟨⟩
    exact ⟨rfl, rfl⟩
  · intro none
    cases none
  · intro call member
    rcases List.mem_cons.mp member with rfl | earlier
    · exact moved_inside w h wide high state motion
    · exact tracks.within call earlier
  · intro narrow low call member
    rcases List.mem_cons.mp member with rfl | earlier
    · constructor
      · exact newMouse_bounded w state.mouseX motion.1 wide narrow tracks.inside.column
      · exact newMouse_bounded h state.mouseY motion.2 high low tracks.inside.row
    · exact tracks.bounded narrow low call earlier

/-- On every desktop that is not empty, after any motions: the pointer is on the desktop,
and the widgets were told of each motion once, along an unbroken path to the pointer
whose steps, on a desktop that is not too large, are bounded sums. -/
theorem pointer_tracked (w h : Word) (wide : 1 ≤ w.toInt) (high : 1 ≤ h.toInt)
    (motions : List (Word × Word)) :
    ∃ state, Runs.run (onMouseMove w h) motions (construct w h) = some state ∧
      Tracks w h motions state :=
  Runs.run_history (onMouseMove w h) (Tracks w h) (onMouseMove_tracks w h wide high) [] motions
    (construct w h) (construct_tracks w h wide high)

/-- The largest motions on the screen of the adapter. -/
theorem pointer_tracked_screen :
    ∃ state, Runs.run (onMouseMove 320 200)
        [(0x7FFFFFFF, 0x80000000), (0x80000000, 0x7FFFFFFF), (5, 0xFFFFFFFB)]
        (construct 320 200) = some state ∧
      Tracks 320 200 [(0x7FFFFFFF, 0x80000000), (0x80000000, 0x7FFFFFFF), (5, 0xFFFFFFFB)] state :=
  pointer_tracked 320 200 (by decide) (by decide) _

end BlueOs.DesktopPointer
