import BlueOs.Clipping

/-!
# The picture of a desktop

`Desktop::draw` draws its tree of widgets and then the pointer. In graphics memory
every pixel shows the pointer, or else the widget that painted it last, or else what
was there before; no other byte changes. What is shown does not depend on the memory
before, so drawing again changes nothing.
-/

namespace BlueOs.Picture

open ModeSetting FrameBuffer
open Clipping (storedBytes pixelAddress fillRectangle_colour)
open VideoGraphicsArray (getColorIndex Pixel)
open WidgetTree (Address Desktop Layout)
open WidgetTree.Layout (lastPainter findSome?_eq_map_find?)

/-- The four pixels of a turn of the loop that draws the pointer. -/
def arms (mouseX mouseY : Word) (passed : Nat) : List (Word × Word) :=
  let i := BitVec.ofNat 32 passed
  [(mouseX - i, mouseY), (mouseX + i, mouseY), (mouseX, mouseY - i), (mouseX, mouseY + i)]

/-- The pointer on the screen. -/
def crosshairPixels (mouseX mouseY : Word) : List Pixel :=
  (List.range 4).flatMap fun passed => (arms mouseX mouseY passed).flatMap fun place =>
    (VideoGraphicsArray.putPixel place.1 place.2 (getColorIndex 0xFF 0xFF 0xFF)).toList

/-- A desktop with its pointer. -/
def desktopScene (desktop : Desktop) (mouseX mouseY : Word) : Scene :=
  { FrameBuffer.scene desktop.toLayout with
    pointer := fun self => if self = desktop.root then some (mouseX, mouseY) else none }

/-- The colour of a widget. -/
def colour (layout : Layout) (self : Address) : Byte :=
  getColorIndex (layout.widget self).r (layout.widget self).g (layout.widget self).b

/-- The pointer covers a position. -/
def Pointed (mouseX mouseY px py : Word) : Prop :=
  ∃ passed ∈ List.range 4, (px, py) ∈ arms mouseX mouseY passed

instance (mouseX mouseY px py : Word) : Decidable (Pointed mouseX mouseY px py) :=
  inferInstanceAs (Decidable (∃ passed ∈ List.range 4, _))

/-- What a pixel shows after `Desktop::draw`. -/
def shown (desktop : Desktop) (mouseX mouseY : Word) (memory : Word → Byte) (px py : Word) : Byte :=
  if Pointed mouseX mouseY px py then getColorIndex 0xFF 0xFF 0xFF
  else
    match lastPainter desktop.draw px py with
    | some widget => colour desktop.toLayout widget
    | none => memory (pixelAddress px py)

section pixels

variable {δ : Type} (bus : Port.Bus δ) (vga : Driver) (desktop : Desktop) (mouseX mouseY : Word)

theorem draws_crosshair :
    Draws (crosshair bus vga mouseX mouseY) (crosshairPixels mouseX mouseY) := by
  refine draws_foldl _ _ _ fun passed _ => ?_
  exact draws_foldl (arms mouseX mouseY passed)
    (fun (screen : Screen δ) place =>
      putPixelRgb bus vga place.1 place.2 0xFF 0xFF 0xFF screen) _
    fun place _ => draws_putPixel bus vga place.1 place.2 _

/-- Positions depend on the widgets alone. -/
theorem desktopScene_modelToScreen (self : Address) (x y : Word) :
    (desktopScene desktop mouseX mouseY).modelToScreen self x y =
      desktop.modelToScreen self x y := by
  induction self using desktop.forest.induction_up with
  | step self inductionHypothesis =>
    cases above : (desktop.widget self).parent with
    | none =>
      rw [Scene.modelToScreen_root _ self x y above, desktop.modelToScreen_root self x y above]
      rfl
    | some parent =>
      rw [Scene.modelToScreen_child _ self parent x y above,
        desktop.modelToScreen_child self parent x y above, inductionHypothesis parent above]
      rfl

/-- A widget draws its fills, and the desktop its pointer after them. -/
theorem draws_desktopScene (self : Address) :
    Draws ((desktopScene desktop mouseX mouseY).draw bus vga self)
      ((desktop.toLayout.draw self).flatMap Layout.Fill.pixels ++
        if self = desktop.root then crosshairPixels mouseX mouseY else []) := by
  induction self using desktop.forest.induction_down with
  | step self inductionHypothesis =>
    have own : Draws ((desktopScene desktop mouseX mouseY).drawWidget bus vga self)
        (desktop.fill self).pixels := by
      intro screen
      simp only [Scene.drawWidget, Layout.fill, desktopScene_modelToScreen]
      exact draws_fillRectangle bus vga _ _ _ _ _ _ _ screen
    rw [desktop.toLayout.draw_eq, List.flatMap_cons, List.flatMap_assoc]
    intro screen
    cases kind : (desktop.widget self).kind with
    | leaf =>
      have inner : self ≠ desktop.root := by
        rintro rfl
        have composite := desktop.composite
        simp [WidgetTree.Widget.isLeaf, kind] at composite
      rw [Scene.draw_leaf _ bus vga self screen kind, own, WidgetTree.Widget.children, kind,
        if_neg inner]
      simp
    | composite children =>
      have each : ∀ child ∈ children,
          Draws ((desktopScene desktop mouseX mouseY).draw bus vga child)
            ((desktop.toLayout.draw child).flatMap Layout.Fill.pixels) := by
        intro child member
        have held : child ∈ (desktop.widget self).children := by
          rwa [WidgetTree.Widget.children, kind]
        have below := (desktop.matching child self).mpr held
        have inner : child ≠ desktop.root := by
          rintro rfl
          rw [desktop.top] at below
          cases below
        have drawn := inductionHypothesis child below
        rwa [if_neg inner, List.append_nil] at drawn
      have below := draws_foldl children
        (fun screen child => (desktopScene desktop mouseX mouseY).draw bus vga child screen) _ each
      have drawn := below ((desktopScene desktop mouseX mouseY).drawWidget bus vga self screen)
      dsimp only at drawn
      rw [Scene.draw_composite _ bus vga self children screen kind, WidgetTree.Widget.children, kind]
      by_cases top : self = desktop.root
      · have pointer : (desktopScene desktop mouseX mouseY).pointer self = some (mouseX, mouseY) :=
          if_pos top
        rw [pointer, if_pos top]
        dsimp only
        rw [draws_crosshair, drawn, own]
        simp
      · have pointer : (desktopScene desktop mouseX mouseY).pointer self = none := if_neg top
        rw [pointer, if_neg top]
        dsimp only
        rw [drawn, own]
        simp

end pixels

/-- Whether a pixel lies at a position. -/
def lies (px py : Word) (pixel : Pixel) : Bool := pixel.x = px && pixel.y = py

theorem lies_iff (px py : Word) (pixel : Pixel) :
    lies px py pixel = true ↔ pixel.x = px ∧ pixel.y = py := by
  simp [lies]

theorem pixelAddress_toNat (px py : Word) (column : px < 320) (row : py < 200) :
    (pixelAddress px py).toNat = 0xA0000 + 320 * py.toNat + px.toNat := by
  rw [pixelAddress]
  bv_omega

/-- Pixels have addresses of their own. -/
theorem pixelAddress_injective (px py qx qy : Word) (column : px < 320) (row : py < 200)
    (otherColumn : qx < 320) (otherRow : qy < 200)
    (same : pixelAddress px py = pixelAddress qx qy) : px = qx ∧ py = qy := by
  have address := congrArg BitVec.toNat same
  rw [pixelAddress_toNat px py column row, pixelAddress_toNat qx qy otherColumn otherRow] at address
  constructor
  · bv_omega
  · bv_omega

/-- The last pixel at a position, if all have one colour. -/
theorem find_uniform (pixels : List Pixel) (value : Byte)
    (uniform : ∀ pixel ∈ pixels, pixel.colorIndex = value) (px py : Word) :
    (pixels.reverse.find? (lies px py)).map Pixel.colorIndex =
      if pixels.any (lies px py) then some value else none := by
  cases found : pixels.reverse.find? (lies px py) with
  | none =>
    have missed : ¬ pixels.any (lies px py) = true := by
      rw [List.find?_eq_none] at found
      simpa using found
    rw [if_neg missed]
    rfl
  | some pixel =>
    have member := List.mem_reverse.mp (List.mem_of_find?_eq_some found)
    have here : pixels.any (lies px py) = true :=
      List.any_eq_true.mpr ⟨pixel, member, List.find?_some found⟩
    rw [if_pos here, Option.map_some, uniform pixel member]

/-- The byte of a pixel is the value of the newest store to it. -/
theorem storedBytes_pixel (memory : Word → Byte) (stores : List Store)
    (inside : ∀ store ∈ stores, Inside store) (px py : Word) (column : px < 320) (row : py < 200) :
    storedBytes memory stores (pixelAddress px py) =
      (((stores.map Store.pixel).find? (lies px py)).map Pixel.colorIndex).getD
        (memory (pixelAddress px py)) := by
  induction stores with
  | nil => rfl
  | cons store earlier inductionHypothesis =>
    rw [List.forall_mem_cons] at inside
    obtain ⟨first, rest⟩ := inside
    have before := inductionHypothesis rest
    have address : store.address = pixelAddress store.x store.y := first.address
    change Function.update (storedBytes memory earlier) store.address store.value _ = _
    rw [List.map_cons, address]
    by_cases here : lies px py store.pixel = true
    · obtain ⟨rfl, rfl⟩ : store.x = px ∧ store.y = py := (lies_iff px py store.pixel).mp here
      rw [Function.update_self, List.find?_cons_of_pos here]
      rfl
    · have apart : pixelAddress px py ≠ pixelAddress store.x store.y := by
        intro same
        obtain ⟨rfl, rfl⟩ :=
          pixelAddress_injective px py store.x store.y column row first.column first.row same
        exact here ((lies_iff _ _ store.pixel).mpr ⟨rfl, rfl⟩)
      rw [Function.update_of_ne apart, List.find?_cons_of_neg here, before]

/-- A byte that belongs to no pixel is not stored. -/
theorem storedBytes_outside (memory : Word → Byte) (stores : List Store)
    (inside : ∀ store ∈ stores, Inside store) (address : Word)
    (outside : ∀ px py, px < 320 → py < 200 → address ≠ pixelAddress px py) :
    storedBytes memory stores address = memory address := by
  induction stores with
  | nil => rfl
  | cons store earlier inductionHypothesis =>
    rw [List.forall_mem_cons] at inside
    have place : store.address = pixelAddress store.x store.y := inside.1.address
    change Function.update (storedBytes memory earlier) store.address store.value address = _
    rw [place, Function.update_of_ne (outside _ _ inside.1.column inside.1.row),
      inductionHypothesis inside.2]

section fills

variable (layout : Layout)

/-- The calls of `fillRectangle` are those of widgets. -/
theorem draw_fills (self : Address) :
    ∀ fill ∈ layout.draw self, fill = layout.fill fill.widget := by
  induction self using layout.forest.induction_down with
  | step self inductionHypothesis =>
    rw [layout.draw_eq, List.forall_mem_cons]
    refine ⟨rfl, fun fill member => ?_⟩
    obtain ⟨child, held, drawn⟩ := List.mem_flatMap.mp member
    exact inductionHypothesis child ((layout.matching child self).mpr held) fill drawn

/-- A call of `fillRectangle` leaves the colour of its widget where it covers. -/
theorem fill_last (self : Address) (px py : Word) :
    ((layout.fill self).pixels.reverse.find? (lies px py)).map Pixel.colorIndex =
      if (layout.fill self).covers px py then some (colour layout self) else none := by
  exact find_uniform _ _ (fillRectangle_colour _ _ _ _ _ _ _) px py

/-- Where widgets paint, the last painter's colour stays. -/
theorem fills_last (self : Address) (px py : Word) :
    (((layout.draw self).flatMap Layout.Fill.pixels).reverse.find? (lies px py)).map
        Pixel.colorIndex =
      (lastPainter (layout.draw self) px py).map (colour layout) := by
  rw [List.reverse_flatMap, List.find?_flatMap, List.map_findSome?, lastPainter, Option.map_map]
  apply findSome?_eq_map_find?
  intro fill member
  have own := draw_fills layout self fill (List.mem_reverse.mp member)
  rw [own]
  exact fill_last layout fill.widget px py

end fills

/-- The pointer covers the pixels of its arms. -/
theorem crosshair_last (mouseX mouseY px py : Word) (column : px < 320) (row : py < 200) :
    ((crosshairPixels mouseX mouseY).reverse.find? (lies px py)).map Pixel.colorIndex =
      if Pointed mouseX mouseY px py then some (getColorIndex 0xFF 0xFF 0xFF) else none := by
  have stored (pixel : Pixel) : pixel ∈ crosshairPixels mouseX mouseY ↔
      ∃ passed ∈ List.range 4, ∃ place ∈ arms mouseX mouseY passed,
        VideoGraphicsArray.putPixel place.1 place.2 (getColorIndex 0xFF 0xFF 0xFF) = some pixel := by
    simp only [crosshairPixels, List.mem_flatMap, Option.mem_toList]
  have white : ∀ pixel ∈ crosshairPixels mouseX mouseY,
      pixel.colorIndex = getColorIndex 0xFF 0xFF 0xFF := by
    intro pixel member
    obtain ⟨passed, turn, place, arm, put⟩ := (stored pixel).mp member
    rw [VideoGraphicsArray.putPixel] at put
    split at put
    · cases put
    · cases put
      rfl
  have onScreen : ¬ (320 ≤ px ∨ 200 ≤ py) := by
    rw [not_or, BitVec.not_le, BitVec.not_le]
    exact ⟨column, row⟩
  rw [find_uniform _ _ white]
  refine if_congr ?_ rfl rfl
  rw [List.any_eq_true]
  constructor
  · rintro ⟨pixel, member, here⟩
    obtain ⟨passed, turn, place, arm, put⟩ := (stored pixel).mp member
    obtain ⟨rfl, rfl⟩ := (lies_iff px py pixel).mp here
    rw [VideoGraphicsArray.putPixel] at put
    split at put
    · cases put
    · cases put
      exact ⟨passed, turn, arm⟩
  · rintro ⟨passed, turn, arm⟩
    refine ⟨⟨px, py, getColorIndex 0xFF 0xFF 0xFF⟩, (stored _).mpr ⟨passed, turn, _, arm, ?_⟩, ?_⟩
    · rw [VideoGraphicsArray.putPixel, if_neg onScreen]
    · exact (lies_iff px py _).mpr ⟨rfl, rfl⟩

section memory

variable (desktop : Desktop) (mouseX mouseY : Word) (adapter : Adapter)

/-- `Desktop::draw` on an adapter, with an empty record of stores. -/
def drawn : Screen Adapter :=
  (desktopScene desktop mouseX mouseY).draw adapterBus construct desktop.root ⟨adapter, []⟩

/-- The memory after `Desktop::draw`. -/
def pictured (memory : Word → Byte) : Word → Byte :=
  storedBytes memory (drawn desktop mouseX mouseY adapter).stores

theorem drawn_confined (programmed : Programmed adapter) :
    Confined (drawn desktop mouseX mouseY adapter) :=
  draw_confined _ _ _ ⟨programmed, fun store none => by cases none⟩

theorem pictured_pixel (programmed : Programmed adapter) (memory : Word → Byte) (px py : Word)
    (column : px < 320) (row : py < 200) :
    pictured desktop mouseX mouseY adapter memory (pixelAddress px py) =
      shown desktop mouseX mouseY memory px py := by
  have confined := drawn_confined desktop mouseX mouseY adapter programmed
  have pixels : (drawn desktop mouseX mouseY adapter).stores.map Store.pixel = _ :=
    draws_desktopScene adapterBus construct desktop mouseX mouseY desktop.root ⟨adapter, []⟩
  rw [if_pos rfl, List.map_nil, List.append_nil, List.reverse_append] at pixels
  rw [pictured, storedBytes_pixel memory _ confined.inside px py column row, pixels,
    List.find?_append, Option.map_or, crosshair_last mouseX mouseY px py column row,
    fills_last desktop.toLayout, shown]
  split
  · rfl
  · rw [Option.none_or]
    cases painter : lastPainter (desktop.toLayout.draw desktop.root) px py with
    | none => rw [Desktop.draw, painter]; rfl
    | some widget => rw [Desktop.draw, painter]; rfl

theorem pictured_outside (programmed : Programmed adapter) (memory : Word → Byte) (address : Word)
    (outside : ∀ px py, px < 320 → py < 200 → address ≠ pixelAddress px py) :
    pictured desktop mouseX mouseY adapter memory address = memory address :=
  storedBytes_outside memory _
    (drawn_confined desktop mouseX mouseY adapter programmed).inside address outside

/-- In mode 320 by 200, set on any adapter, `Desktop::draw` leaves the mode set, gives
every pixel of the screen the pointer's white, or the colour of the widget that painted it
last, or leaves it, and changes no other byte. -/
theorem draw_pictures (memory : Word → Byte) :
    Programmed (drawn desktop mouseX mouseY
        (setMode adapterBus construct 320 200 8 adapter).2).devices ∧
      (∀ px py, px < 320 → py < 200 →
        pictured desktop mouseX mouseY (setMode adapterBus construct 320 200 8 adapter).2 memory
            (pixelAddress px py) =
          shown desktop mouseX mouseY memory px py) ∧
      ∀ address, (∀ px py, px < 320 → py < 200 → address ≠ pixelAddress px py) →
        pictured desktop mouseX mouseY (setMode adapterBus construct 320 200 8 adapter).2 memory
            address =
          memory address := by
  have programmed := (setMode_programmed adapter).2
  refine ⟨(drawn_confined desktop mouseX mouseY _ programmed).programmed, ?_, ?_⟩
  · exact pictured_pixel desktop mouseX mouseY _ programmed memory
  · exact pictured_outside desktop mouseX mouseY _ programmed memory

/-- What a pixel shows once it has been drawn does not depend on the memory. -/
theorem shown_again (memory again : Word → Byte) (px py : Word)
    (left : again (pixelAddress px py) = shown desktop mouseX mouseY memory px py) :
    shown desktop mouseX mouseY again px py = shown desktop mouseX mouseY memory px py := by
  rw [shown]
  split
  case isTrue pointed => rw [shown, if_pos pointed]
  case isFalse beside =>
    cases painter : lastPainter desktop.draw px py with
    | none => exact left
    | some widget => rw [shown, if_neg beside, painter]

/-- Drawing a desktop a second time changes no byte. -/
theorem draw_again (memory : Word → Byte) :
    pictured desktop mouseX mouseY
        (drawn desktop mouseX mouseY (setMode adapterBus construct 320 200 8 adapter).2).devices
        (pictured desktop mouseX mouseY (setMode adapterBus construct 320 200 8 adapter).2
          memory) =
      pictured desktop mouseX mouseY (setMode adapterBus construct 320 200 8 adapter).2
        memory := by
  have programmed := (setMode_programmed adapter).2
  have still := (drawn_confined desktop mouseX mouseY _ programmed).programmed
  funext address
  by_cases pixel : ∃ px py, px < 320 ∧ py < 200 ∧ address = pixelAddress px py
  · obtain ⟨px, py, column, row, rfl⟩ := pixel
    have first := pictured_pixel desktop mouseX mouseY _ programmed memory px py column row
    rw [pictured_pixel desktop mouseX mouseY _ still _ px py column row, first]
    exact shown_again desktop mouseX mouseY memory _ px py first
  · apply pictured_outside desktop mouseX mouseY _ still
    intro px py column row same
    exact pixel ⟨px, py, column, row, same⟩

/-- Drawing a desktop after its pointer has moved leaves nothing of the old pointer,
whatever the memory was, exactly when the new pointer or a widget covers every pixel of
the screen that the old one did. -/
theorem draw_moved_iff (movedX movedY : Word) :
    (∀ memory, pictured desktop movedX movedY
          (drawn desktop mouseX mouseY (setMode adapterBus construct 320 200 8 adapter).2).devices
          (pictured desktop mouseX mouseY (setMode adapterBus construct 320 200 8 adapter).2
            memory) =
        pictured desktop movedX movedY (setMode adapterBus construct 320 200 8 adapter).2
          memory) ↔
      ∀ px py, px < 320 → py < 200 → Pointed mouseX mouseY px py →
        Pointed movedX movedY px py ∨ ∃ widget, lastPainter desktop.draw px py = some widget := by
  have programmed := (setMode_programmed adapter).2
  have still := (drawn_confined desktop mouseX mouseY _ programmed).programmed
  constructor
  · intro erased px py column row pointed
    by_contra uncovered
    rw [not_or, not_exists] at uncovered
    obtain ⟨beside, unpainted⟩ := uncovered
    have none : lastPainter desktop.draw px py = none := Option.eq_none_iff_forall_ne_some.mpr unpainted
    -- On black memory the white of the old pointer stays.
    have same := congrFun (erased fun _ => 0x00) (pixelAddress px py)
    rw [pictured_pixel desktop movedX movedY _ still _ px py column row,
      pictured_pixel desktop movedX movedY _ programmed _ px py column row, shown, shown,
      if_neg beside, none] at same
    dsimp only at same
    rw [if_neg beside, pictured_pixel desktop mouseX mouseY _ programmed _ px py column row, shown,
      if_pos pointed] at same
    exact absurd same (by decide)
  · intro covered memory
    funext address
    by_cases pixel : ∃ px py, px < 320 ∧ py < 200 ∧ address = pixelAddress px py
    · obtain ⟨px, py, column, row, rfl⟩ := pixel
      rw [pictured_pixel desktop movedX movedY _ still _ px py column row,
        pictured_pixel desktop movedX movedY _ programmed _ px py column row]
      have first := pictured_pixel desktop mouseX mouseY _ programmed memory px py column row
      by_cases beside : Pointed movedX movedY px py
      · rw [shown, if_pos beside, shown, if_pos beside]
      · rw [shown, if_neg beside, shown, if_neg beside]
        cases painter : lastPainter desktop.draw px py with
        | some widget => rfl
        | none =>
          have unpointed : ¬ Pointed mouseX mouseY px py := by
            intro pointed
            rcases covered px py column row pointed with now | ⟨widget, painted⟩
            · exact beside now
            · rw [painter] at painted
              cases painted
          dsimp only
          rw [first, shown, if_neg unpointed, painter]
    · have outside : ∀ px py, px < 320 → py < 200 → address ≠ pixelAddress px py :=
        fun px py column row same => pixel ⟨px, py, column, row, same⟩
      rw [pictured_outside desktop movedX movedY _ still _ address outside,
        pictured_outside desktop mouseX mouseY _ programmed _ address outside,
        pictured_outside desktop movedX movedY _ programmed _ address outside]

end memory

end BlueOs.Picture
