import BlueOs.FrameBuffer
import BlueOs.HitTesting

/-!
# Rectangles that reach past an edge

A widget that reaches past the left or the upper edge passes a negative corner to
`fillRectangle`. The loops compare their counters without a sign, so a negative first
value is far above a limit that is not negative, and the loop has no turn. The check
of `PutPixel` that skips what is outside the screen is not reached: the visible part
of the rectangle is not painted either. Past the right and the lower edge that check
clips.
-/

namespace BlueOs.Clipping

open ModeSetting FrameBuffer
open VideoGraphicsArray (getColorIndex counter mem_counter fillRectangle_stores)

/-- The memory after stores, the newest first. -/
def storedBytes (memory : Word → Byte) (stores : List Store) : Word → Byte :=
  stores.foldr (fun store memory => Function.update memory store.address store.value) memory

/-- A pixel of the screen in a rectangle, in the numbers of the integers. -/
structure Visible (x y w h px py : Word) : Prop where
  column : px < 320
  row : py < 200
  left : x.toInt ≤ px.toNat
  right : px.toNat < x.toInt + w.toNat
  upper : y.toInt ≤ py.toNat
  lower : py.toNat < y.toInt + h.toNat

/-- The byte of a pixel in graphics memory. -/
def pixelAddress (px py : Word) : Word := 0xA0000 + 320 * py + px

/-- The visible pixels of the rectangle have been set to the colour, and no other byte
has changed. -/
structure Clips (x y w h : Word) (colorIndex : Byte) (before after : Word → Byte) : Prop where
  painted : ∀ px py, Visible x y w h px py → after (pixelAddress px py) = colorIndex
  unchanged : ∀ address, (∀ px py, Visible x y w h px py → address ≠ pixelAddress px py) →
    after address = before address

/-- The memory after one call of `fillRectangle`. -/
def filled (adapter : Adapter) (memory : Word → Byte) (x y w h : Word) (r g b : Byte) :
    Word → Byte :=
  storedBytes memory (fillRectangle adapterBus construct x y w h r g b ⟨adapter, []⟩).stores

/-- If all stores have one value, a byte has it exactly if it has been stored. -/
theorem storedBytes_apply (memory : Word → Byte) (stores : List Store) (value : Byte)
    (same : ∀ store ∈ stores, store.value = value) (address : Word) :
    storedBytes memory stores address =
      if ∃ store ∈ stores, store.address = address then value else memory address := by
  induction stores with
  | nil => simp [storedBytes]
  | cons store earlier inductionHypothesis =>
    rw [List.forall_mem_cons] at same
    have before := inductionHypothesis same.2
    change Function.update (storedBytes memory earlier) store.address store.value address = _
    by_cases here : store.address = address
    · subst here
      rw [Function.update_self, if_pos ⟨store, List.mem_cons_self, rfl⟩, same.1]
    · rw [Function.update_of_ne (Ne.symm here), before]
      simp only [List.mem_cons, exists_eq_or_imp, here, false_or]

/-- All pixels of a rectangle have one colour. -/
theorem fillRectangle_colour (x y w h : Word) (r g b : Byte) :
    ∀ pixel ∈ VideoGraphicsArray.fillRectangle x y w h r g b,
      pixel.colorIndex = getColorIndex r g b := by
  intro pixel member
  simp only [VideoGraphicsArray.fillRectangle, List.mem_flatMap, List.mem_filterMap] at member
  obtain ⟨Y, _, X, _, stored⟩ := member
  rw [VideoGraphicsArray.putPixel] at stored
  split at stored
  · cases stored
  · cases stored
    rfl

/-- The pixels that the two loops pass and the check lets through. -/
structure Drawn (x y w h px py : Word) : Prop where
  left : x ≤ px
  right : px < x + w
  upper : y ≤ py
  lower : py < y + h
  column : px < 320
  row : py < 200

/-- Without overflow, what is drawn is what is visible, if both coordinates of the
corner are on the screen's side of its edges, and nothing otherwise. -/
theorem drawn_iff (x y w h px py : Word) (across : x.toInt + w.toNat < 2 ^ 31)
    (down : y.toInt + h.toNat < 2 ^ 31) :
    Drawn x y w h px py ↔ (0 ≤ x.toInt ∧ 0 ≤ y.toInt) ∧ Visible x y w h px py := by
  have column := BitVec.toInt_eq_toNat_cond x
  have row := BitVec.toInt_eq_toNat_cond y
  constructor
  · rintro ⟨left, right, upper, lower, width, height⟩
    have inside : 0 ≤ x.toInt := by split at column <;> bv_omega
    have below : 0 ≤ y.toInt := by split at row <;> bv_omega
    have sameColumn := WidgetTree.toNat_of_nonneg x inside
    have sameRow := WidgetTree.toNat_of_nonneg y below
    refine ⟨⟨inside, below⟩, width, height, ?_, ?_, ?_, ?_⟩ <;> bv_omega
  · rintro ⟨⟨inside, below⟩, width, height, left, right, upper, lower⟩
    have sameColumn := WidgetTree.toNat_of_nonneg x inside
    have sameRow := WidgetTree.toNat_of_nonneg y below
    refine ⟨?_, ?_, ?_, ?_, width, height⟩ <;> bv_omega

open Classical in
/-- One byte after a call: the colour if it belongs to a pixel that was drawn. -/
theorem filled_apply (adapter : Adapter) (programmed : Programmed adapter)
    (memory : Word → Byte) (x y w h : Word) (r g b : Byte) (address : Word) :
    filled adapter memory x y w h r g b address =
      if ∃ px py, Drawn x y w h px py ∧ pixelAddress px py = address then getColorIndex r g b
      else memory address := by
  have confined : Confined (fillRectangle adapterBus construct x y w h r g b ⟨adapter, []⟩) :=
    fillRectangle_confined x y w h r g b ⟨adapter, []⟩ ⟨programmed, fun store none => by cases none⟩
  have pixels := draws_fillRectangle adapterBus construct x y w h r g b ⟨adapter, []⟩
  rw [List.map_nil, List.append_nil] at pixels
  have among (store : Store)
      (member : store ∈ (fillRectangle adapterBus construct x y w h r g b ⟨adapter, []⟩).stores) :
      store.pixel ∈ VideoGraphicsArray.fillRectangle x y w h r g b := by
    rw [← List.mem_reverse, ← pixels]
    exact List.mem_map_of_mem member
  rw [filled, storedBytes_apply memory _ (getColorIndex r g b)
    (fun store member => fillRectangle_colour x y w h r g b _ (among store member)) address]
  apply if_congr _ rfl rfl
  constructor
  · rintro ⟨store, member, here⟩
    obtain ⟨left, right, upper, lower, column, row⟩ :=
      (fillRectangle_stores x y w h store.x store.y r g b).mp
        ⟨store.pixel, among store member, rfl, rfl⟩
    have address := (confined.inside store member).address
    exact ⟨store.x, store.y, ⟨left, right, upper, lower, column, row⟩, address.symm.trans here⟩
  · rintro ⟨px, py, ⟨left, right, upper, lower, column, row⟩, here⟩
    obtain ⟨pixel, drawn, rfl, rfl⟩ :=
      (fillRectangle_stores x y w h px py r g b).mpr ⟨left, right, upper, lower, column, row⟩
    rw [← List.mem_reverse, ← pixels] at drawn
    obtain ⟨store, member, rfl⟩ := List.mem_map.mp drawn
    exact ⟨store, member, (confined.inside store member).address.trans here⟩

/-- The corner is not past the left or the upper edge, or every visible pixel, if
there is one, has the colour already. -/
def Clippable (x y w h : Word) (colorIndex : Byte) (memory : Word → Byte) : Prop :=
  (0 ≤ x.toInt ∧ 0 ≤ y.toInt) ∨
    ∀ px py, Visible x y w h px py → memory (pixelAddress px py) = colorIndex

/-- After the mode is set, a rectangle without overflow is clipped to the screen exactly
if its corner is not past the left or the upper edge, or there is nothing to paint. -/
theorem clips_iff_clippable (adapter : Adapter) (programmed : Programmed adapter)
    (memory : Word → Byte) (x y w h : Word) (r g b : Byte)
    (across : x.toInt + w.toNat < 2 ^ 31) (down : y.toInt + h.toNat < 2 ^ 31) :
    Clips x y w h (getColorIndex r g b) memory (filled adapter memory x y w h r g b) ↔
      Clippable x y w h (getColorIndex r g b) memory := by
  have value := filled_apply adapter programmed memory x y w h r g b
  have drawn (px py : Word) := drawn_iff x y w h px py across down
  have unchanged (address : Word)
      (outside : ∀ px py, Visible x y w h px py → address ≠ pixelAddress px py) :
      filled adapter memory x y w h r g b address = memory address := by
    rw [value, if_neg]
    rintro ⟨px, py, passed, here⟩
    exact outside px py ((drawn px py).mp passed).2 here.symm
  constructor
  · intro clips
    by_cases onScreen : 0 ≤ x.toInt ∧ 0 ≤ y.toInt
    · exact Or.inl onScreen
    · right
      intro px py visible
      have painted := clips.painted px py visible
      rw [value, if_neg] at painted
      · exact painted
      · rintro ⟨px, py, passed, _⟩
        exact onScreen ((drawn px py).mp passed).1
  · rintro (onScreen | already)
    · constructor
      · intro px py visible
        have passed := (drawn px py).mpr ⟨onScreen, visible⟩
        rw [value, if_pos ⟨px, py, passed, rfl⟩]
      · exact unchanged
    · constructor
      · intro px py visible
        rw [value, already px py visible, ite_self]
      · exact unchanged

/-- An adapter with all registers clear, after the mode is set. -/
def graphics : Adapter :=
  (setMode adapterBus construct 320 200 8
    { misc := 0, sequencer := ⟨0, fun _ => 0⟩, crtc := ⟨0, fun _ => 0⟩,
      graphicsController := ⟨0, fun _ => 0⟩, attributeController := ⟨0, fun _ => 0⟩,
      indexNext := false }).2

theorem graphics_programmed : Programmed graphics := (setMode_programmed _).2

/-- A rectangle in the lower right corner is clipped. -/
theorem clips_iff_clippable_corner :
    Clips 310 190 20 20 (getColorIndex 0xFF 0xFF 0xFF) (fun _ => 0)
        (filled graphics (fun _ => 0) 310 190 20 20 0xFF 0xFF 0xFF) ↔
      Clippable 310 190 20 20 (getColorIndex 0xFF 0xFF 0xFF) (fun _ => 0) :=
  clips_iff_clippable graphics graphics_programmed (fun _ => 0) 310 190 20 20 0xFF 0xFF 0xFF
    (by decide) (by decide)

/-- Ten columns past the left edge, the ten visible columns stay black. -/
theorem past_left_vanishes :
    Programmed graphics ∧
      (0xFFFFFFF6 : Word).toInt + (20 : Word).toNat < 2 ^ 31 ∧
      (0 : Word).toInt + (10 : Word).toNat < 2 ^ 31 ∧
      ¬ Clips 0xFFFFFFF6 0 20 10 (getColorIndex 0xFF 0xFF 0xFF) (fun _ => 0)
        (filled graphics (fun _ => 0) 0xFFFFFFF6 0 20 10 0xFF 0xFF 0xFF) := by
  have across : (0xFFFFFFF6 : Word).toInt + (20 : Word).toNat < 2 ^ 31 := by decide
  have down : (0 : Word).toInt + (10 : Word).toNat < 2 ^ 31 := by decide
  refine ⟨graphics_programmed, across, down, ?_⟩
  intro clips
  have corner : Visible 0xFFFFFFF6 0 20 10 0 0 := by constructor <;> decide
  have painted := clips.painted 0 0 corner
  rw [filled_apply graphics graphics_programmed, if_neg] at painted
  · exact absurd painted (by decide)
  · rintro ⟨px, py, passed, -⟩
    have onScreen := ((drawn_iff 0xFFFFFFF6 0 20 10 px py across down).mp passed).1.1
    exact absurd onScreen (by decide)

end BlueOs.Clipping
