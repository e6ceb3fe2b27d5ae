import BlueOs.ModeSetting
import BlueOs.WidgetTree

/-!
# Drawing into the frame buffer

Each pixel asks the adapter for its memory segment and then stores one byte; every
store is recorded with its address, the newest first. `PutPixel` has the only bounds
check, and it is unsigned: a coordinate of a widget or of the pointer that wrapped
below zero is far to the right of the screen or below it.

A scene is any widgets in memory whose parents and whose children can be followed to
an end; a child need not point back to the composite that draws it.
-/

namespace BlueOs.FrameBuffer

open Port ModeSetting
open VideoGraphicsArray (getColorIndex counter Pixel)
open WidgetTree (Address Widget Layout)

/-- A byte stored for a pixel. -/
structure Store where
  x : Word
  y : Word
  address : Word
  value : Byte

structure Screen (δ : Type) where
  devices : δ
  stores : List Store

section drawing

variable {δ : Type} (bus : Bus δ) (vga : Driver)

def putPixel (x y : Word) (colorIndex : Byte) (screen : Screen δ) : Screen δ :=
  if 320 ≤ x ∨ 200 ≤ y then screen
  else
    let (base, devices) := getFrameBufferSegment bus vga screen.devices
    { devices := devices
      stores := ⟨x, y, base + 320 * y + x, colorIndex⟩ :: screen.stores }

/-- `PutPixel` with an RGB triplet. -/
def putPixelRgb (x y : Word) (r g b : Byte) (screen : Screen δ) : Screen δ :=
  putPixel bus vga x y (getColorIndex r g b) screen

def fillRectangle (x y w h : Word) (r g b : Byte) (screen : Screen δ) : Screen δ :=
  (counter y (y + h)).foldl (fun screen Y =>
    (counter x (x + w)).foldl (fun screen X => putPixelRgb bus vga X Y r g b screen) screen) screen

/-- The pointer of `Desktop::draw`. -/
def crosshair (mouseX mouseY : Word) (screen : Screen δ) : Screen δ :=
  (List.range 4).foldl (fun screen passed =>
    let i := BitVec.ofNat 32 passed
    let screen := putPixelRgb bus vga (mouseX - i) mouseY 0xFF 0xFF 0xFF screen
    let screen := putPixelRgb bus vga (mouseX + i) mouseY 0xFF 0xFF 0xFF screen
    let screen := putPixelRgb bus vga mouseX (mouseY - i) 0xFF 0xFF 0xFF screen
    putPixelRgb bus vga mouseX (mouseY + i) 0xFF 0xFF 0xFF screen) screen

end drawing

/-- Widgets in memory, with the pointer of those that are desktops. -/
structure Scene where
  widget : Address → Widget
  pointer : Address → Option (Word × Word)
  height : Address → Nat
  size : Address → Nat
  upward : ∀ self parent, (widget self).parent = some parent → height parent < height self
  downward : ∀ self child, child ∈ (widget self).children → size child < size self

namespace Scene

variable (scene : Scene)

def modelToScreen (self : Address) (x y : Word) : Word × Word :=
  match _above : (scene.widget self).parent with
  | none => (x + (scene.widget self).x, y + (scene.widget self).y)
  | some parent =>
    let (x, y) := modelToScreen parent x y
    (x + (scene.widget self).x, y + (scene.widget self).y)
termination_by scene.height self
decreasing_by exact scene.upward self parent _above

theorem modelToScreen_root (self : Address) (x y : Word)
    (top : (scene.widget self).parent = none) :
    scene.modelToScreen self x y = (x + (scene.widget self).x, y + (scene.widget self).y) := by
  rw [modelToScreen]
  split
  · rfl
  · simp_all

theorem modelToScreen_child (self parent : Address) (x y : Word)
    (below : (scene.widget self).parent = some parent) :
    scene.modelToScreen self x y =
      ((scene.modelToScreen parent x y).1 + (scene.widget self).x,
        (scene.modelToScreen parent x y).2 + (scene.widget self).y) := by
  rw [modelToScreen]
  split
  · simp_all
  · simp_all

variable {δ : Type} (bus : Bus δ) (vga : Driver)

/-- `Widget::draw` -/
def drawWidget (self : Address) (screen : Screen δ) : Screen δ :=
  let (X, Y) := scene.modelToScreen self 0 0
  let this := scene.widget self
  fillRectangle bus vga X Y this.w this.h this.r this.g this.b screen

/-- `draw` by the class of the widget: a composite also draws its children in order,
and a desktop its pointer after them. -/
def draw (self : Address) (screen : Screen δ) : Screen δ :=
  match _kind : (scene.widget self).kind with
  | .leaf => scene.drawWidget bus vga self screen
  | .composite children =>
    let screen := children.attach.foldl (fun screen child => draw child.val screen)
      (scene.drawWidget bus vga self screen)
    match scene.pointer self with
    | none => screen
    | some (mouseX, mouseY) => crosshair bus vga mouseX mouseY screen
termination_by scene.size self
decreasing_by
  apply scene.downward
  simp only [Widget.children, _kind]
  exact child.property

theorem draw_leaf (self : Address) (screen : Screen δ) (kind : (scene.widget self).kind = .leaf) :
    scene.draw bus vga self screen = scene.drawWidget bus vga self screen := by
  rw [draw]
  split
  · rfl
  · simp_all

theorem draw_composite (self : Address) (children : List Address) (screen : Screen δ)
    (kind : (scene.widget self).kind = .composite children) :
    scene.draw bus vga self screen =
      let drawn := children.foldl (fun screen child => scene.draw bus vga child screen)
        (scene.drawWidget bus vga self screen)
      match scene.pointer self with
      | none => drawn
      | some (mouseX, mouseY) => crosshair bus vga mouseX mouseY drawn := by
  rw [draw]
  split
  case h_1 leaf => simp_all
  case h_2 others composite =>
    rw [kind] at composite
    cases composite
    simp only [List.foldl_subtype, List.unattach_attach]

end Scene

/-- A drawing call. -/
inductive Call where
  | putPixel (x y : Word) (colorIndex : Byte)
  | putPixelRgb (x y : Word) (r g b : Byte)
  | fillRectangle (x y w h : Word) (r g b : Byte)
  | draw (scene : Scene) (self : Address)

def Call.perform {δ : Type} (bus : Bus δ) (vga : Driver) (screen : Screen δ) : Call → Screen δ
  | putPixel x y colorIndex => FrameBuffer.putPixel bus vga x y colorIndex screen
  | putPixelRgb x y r g b => FrameBuffer.putPixelRgb bus vga x y r g b screen
  | fillRectangle x y w h r g b => FrameBuffer.fillRectangle bus vga x y w h r g b screen
  | draw scene self => scene.draw bus vga self screen

/-- The store is to the byte of a pixel of the screen in graphics memory. -/
structure Inside (store : Store) : Prop where
  column : store.x < 320
  row : store.y < 200
  address : store.address = 0xA0000 + 320 * store.y + store.x

/-- The mode is set, and every store so far was inside. -/
structure Confined (screen : Screen Adapter) : Prop where
  programmed : Programmed screen.devices
  inside : ∀ store ∈ screen.stores, Inside store

/-- The bounds check absorbs every coordinate. -/
theorem putPixel_confined (x y : Word) (colorIndex : Byte) (screen : Screen Adapter)
    (confined : Confined screen) :
    Confined (putPixel adapterBus construct x y colorIndex screen) := by
  rw [putPixel]
  split
  · exact confined
  case isFalse inside =>
    obtain ⟨selected, programmed⟩ :=
      getFrameBufferSegment_programmed screen.devices confined.programmed
    refine ⟨programmed, ?_⟩
    rw [not_or, BitVec.not_le, BitVec.not_le] at inside
    rintro store (_ | ⟨_, earlier⟩)
    · exact ⟨inside.1, inside.2, congrArg (fun base => base + 320 * y + x) selected⟩
    · exact confined.inside store earlier

theorem putPixelRgb_confined (x y : Word) (r g b : Byte) (screen : Screen Adapter)
    (confined : Confined screen) :
    Confined (putPixelRgb adapterBus construct x y r g b screen) :=
  putPixel_confined x y (getColorIndex r g b) screen confined

theorem fillRectangle_confined (x y w h : Word) (r g b : Byte) (screen : Screen Adapter)
    (confined : Confined screen) :
    Confined (fillRectangle adapterBus construct x y w h r g b screen) := by
  refine List.foldlRecOn _ _ confined fun screen confined Y _ => ?_
  refine List.foldlRecOn _ _ confined fun screen confined X _ => ?_
  exact putPixelRgb_confined X Y r g b screen confined

theorem crosshair_confined (mouseX mouseY : Word) (screen : Screen Adapter)
    (confined : Confined screen) :
    Confined (crosshair adapterBus construct mouseX mouseY screen) := by
  refine List.foldlRecOn _ _ confined fun screen confined passed _ => ?_
  have left := putPixelRgb_confined (mouseX - BitVec.ofNat 32 passed) mouseY 0xFF 0xFF 0xFF screen
    confined
  have right := putPixelRgb_confined (mouseX + BitVec.ofNat 32 passed) mouseY 0xFF 0xFF 0xFF _ left
  have above := putPixelRgb_confined mouseX (mouseY - BitVec.ofNat 32 passed) 0xFF 0xFF 0xFF _ right
  exact putPixelRgb_confined mouseX (mouseY + BitVec.ofNat 32 passed) 0xFF 0xFF 0xFF _ above

theorem drawWidget_confined (scene : Scene) (self : Address) (screen : Screen Adapter)
    (confined : Confined screen) :
    Confined (scene.drawWidget adapterBus construct self screen) :=
  fillRectangle_confined _ _ _ _ _ _ _ screen confined

/-- By induction on the size of a widget. -/
theorem draw_confined (scene : Scene) (self : Address) (screen : Screen Adapter)
    (confined : Confined screen) : Confined (scene.draw adapterBus construct self screen) := by
  induction size : scene.size self using Nat.strongRecOn generalizing self screen with
  | ind bound inductionHypothesis =>
    have drawn := drawWidget_confined scene self screen confined
    cases kind : (scene.widget self).kind with
    | leaf =>
      rw [scene.draw_leaf adapterBus construct self screen kind]
      exact drawn
    | composite children =>
      rw [scene.draw_composite adapterBus construct self children screen kind]
      have below : Confined (children.foldl (fun screen child =>
          scene.draw adapterBus construct child screen)
          (scene.drawWidget adapterBus construct self screen)) := by
        refine List.foldlRecOn _ _ drawn fun screen confined child member => ?_
        have held : child ∈ (scene.widget self).children := by rwa [Widget.children, kind]
        have smaller : scene.size child < bound := size ▸ scene.downward self child held
        exact inductionHypothesis _ smaller child screen confined rfl
      dsimp only
      cases scene.pointer self with
      | none => exact below
      | some pointer => exact crosshair_confined pointer.1 pointer.2 _ below

theorem perform_confined (call : Call) (screen : Screen Adapter) (confined : Confined screen) :
    Confined (call.perform adapterBus construct screen) := by
  cases call with
  | putPixel x y colorIndex => exact putPixel_confined x y colorIndex screen confined
  | putPixelRgb x y r g b => exact putPixelRgb_confined x y r g b screen confined
  | fillRectangle x y w h r g b => exact fillRectangle_confined x y w h r g b screen confined
  | draw scene self => exact draw_confined scene self screen confined

/-- The address of a pixel, without wrapping. -/
theorem inside_address (store : Store) (inside : Inside store) :
    store.address.toNat = 0xA0000 + 320 * store.y.toNat + store.x.toNat := by
  have column := inside.column
  have row := inside.row
  rw [inside.address]
  bv_omega

/-- After the mode is set, from any state of the adapter, no sequence of drawing calls
stores outside the frame buffer, and different pixels have different addresses. -/
theorem frame_buffer_safe (adapter : Adapter) (calls : List Call) :
    (setMode adapterBus construct 320 200 8 adapter).1 = true ∧
      (∀ store ∈ (calls.foldl (Call.perform adapterBus construct)
          ⟨(setMode adapterBus construct 320 200 8 adapter).2, []⟩).stores,
        0xA0000 ≤ store.address.toNat ∧ store.address.toNat < 0xA0000 + 64000) ∧
      ∀ one ∈ (calls.foldl (Call.perform adapterBus construct)
          ⟨(setMode adapterBus construct 320 200 8 adapter).2, []⟩).stores,
        ∀ other ∈ (calls.foldl (Call.perform adapterBus construct)
          ⟨(setMode adapterBus construct 320 200 8 adapter).2, []⟩).stores,
        (one.x, one.y) ≠ (other.x, other.y) → one.address ≠ other.address := by
  obtain ⟨succeeded, programmed⟩ := setMode_programmed adapter
  have confined : Confined (calls.foldl (Call.perform adapterBus construct)
      ⟨(setMode adapterBus construct 320 200 8 adapter).2, []⟩) := by
    refine List.foldlRecOn _ _ ⟨programmed, fun store none => by cases none⟩ ?_
    exact fun screen confined call _ => perform_confined call screen confined
  refine ⟨succeeded, fun store member => ?_, fun one member other otherMember differ same => ?_⟩
  · have inside := confined.inside store member
    have address := inside_address store inside
    have column := inside.column
    have row := inside.row
    constructor <;> bv_omega
  · have inside := confined.inside one member
    have otherInside := confined.inside other otherMember
    have address := inside_address one inside
    have otherAddress := inside_address other otherInside
    have column := inside.column
    have otherColumn := otherInside.column
    rw [same] at address
    have across : one.x = other.x := by bv_omega
    have down : one.y = other.y := by bv_omega
    exact differ (Prod.ext across down)

/-! The stores of a layout of widgets are its pixels, in order. -/

/-- A layout is a scene whose widgets are no desktops. -/
def scene (layout : Layout) : Scene where
  widget := layout.widget
  pointer _ := none
  height := layout.depth
  size self := layout.bound - layout.depth self
  upward self parent above := by
    have deeper := layout.deeper self parent above
    omega
  downward self child member := layout.child_levels self child member

theorem scene_modelToScreen (layout : Layout) (self : Address) (x y : Word) :
    (scene layout).modelToScreen self x y = layout.modelToScreen self x y := by
  induction self using layout.forest.induction_up with
  | step self inductionHypothesis =>
    cases above : (layout.widget self).parent with
    | none =>
      rw [(scene layout).modelToScreen_root self x y above,
        layout.modelToScreen_root self x y above]
      rfl
    | some parent =>
      rw [(scene layout).modelToScreen_child self parent x y above,
        layout.modelToScreen_child self parent x y above, inductionHypothesis parent above]
      rfl

section pixels

variable {δ : Type} (bus : Bus δ) (vga : Driver)

def Store.pixel (store : Store) : Pixel := ⟨store.x, store.y, store.value⟩

/-- A drawing stores these pixels, and changes no earlier store. -/
def Draws (drawing : Screen δ → Screen δ) (pixels : List Pixel) : Prop :=
  ∀ screen, (drawing screen).stores.map Store.pixel =
    pixels.reverse ++ screen.stores.map Store.pixel

theorem draws_putPixel (x y : Word) (colorIndex : Byte) :
    Draws (putPixel bus vga x y colorIndex)
      (VideoGraphicsArray.putPixel x y colorIndex).toList := by
  intro screen
  rw [putPixel, VideoGraphicsArray.putPixel]
  split <;> rfl

/-- Drawing in a loop draws what its turns draw. -/
theorem draws_foldl {α : Type} (items : List α) (turn : Screen δ → α → Screen δ)
    (pixels : α → List Pixel)
    (each : ∀ item ∈ items, Draws (fun screen => turn screen item) (pixels item)) :
    Draws (fun screen => items.foldl turn screen) (items.flatMap pixels) := by
  induction items with
  | nil => exact fun screen => rfl
  | cons item rest inductionHypothesis =>
    rw [List.forall_mem_cons] at each
    intro screen
    have first := each.1 screen
    have after := inductionHypothesis each.2 (turn screen item)
    dsimp only at first after ⊢
    rw [List.foldl_cons, after, first, List.flatMap_cons, List.reverse_append, List.append_assoc]

theorem draws_fillRectangle (x y w h : Word) (r g b : Byte) :
    Draws (fillRectangle bus vga x y w h r g b)
      (VideoGraphicsArray.fillRectangle x y w h r g b) := by
  refine draws_foldl _ _ _ fun Y _ => ?_
  rw [List.filterMap_eq_flatMap_toList]
  exact draws_foldl _ _ _ fun X _ => draws_putPixel bus vga X Y (getColorIndex r g b)

theorem draws_draw (layout : Layout) (self : Address) :
    Draws ((scene layout).draw bus vga self) ((layout.draw self).flatMap Layout.Fill.pixels) := by
  induction self using layout.forest.induction_down with
  | step self inductionHypothesis =>
    have own : Draws ((scene layout).drawWidget bus vga self) (layout.fill self).pixels := by
      intro screen
      simp only [Scene.drawWidget, Layout.fill, scene_modelToScreen]
      exact draws_fillRectangle bus vga _ _ _ _ _ _ _ screen
    rw [layout.draw_eq, List.flatMap_cons, List.flatMap_assoc]
    intro screen
    cases kind : (layout.widget self).kind with
    | leaf =>
      rw [(scene layout).draw_leaf bus vga self screen kind, own, Widget.children, kind]
      simp
    | composite children =>
      have each : ∀ child ∈ children, Draws ((scene layout).draw bus vga child)
          ((layout.draw child).flatMap Layout.Fill.pixels) := by
        intro child member
        have held : child ∈ (layout.widget self).children := by rwa [Widget.children, kind]
        exact inductionHypothesis child ((layout.matching child self).mpr held)
      have below := draws_foldl children
        (fun screen child => (scene layout).draw bus vga child screen) _ each
      have drawn := below ((scene layout).drawWidget bus vga self screen)
      dsimp only at drawn
      have pointer : (scene layout).pointer self = none := rfl
      rw [(scene layout).draw_composite bus vga self children screen kind, pointer, Widget.children,
        kind]
      dsimp only
      rw [drawn, own, List.reverse_append, List.append_assoc]

end pixels

end BlueOs.FrameBuffer
