import Mathlib.Data.BitVec

/-!
# Drawing on the VGA screen

The screen has 320 by 200 pixels. `PutPixel` ignores positions outside it, which
are unsigned; `fillRectangle` runs two loops whose counters are compared, unsigned,
with a sum that may wrap. A drawing call is the list of the pixels it stores, in
order.
-/

namespace BlueOs.VideoGraphicsArray

abbrev Byte := BitVec 8
abbrev Word := BitVec 32

/-- The palette index of an RGB triplet; black when there is none. -/
def getColorIndex (r g b : Byte) : Byte :=
  if r = 0x00 ∧ g = 0x00 ∧ b = 0x00 then 0x00
  else if r = 0x00 ∧ g = 0x00 ∧ b = 0xA8 then 0x01
  else if r = 0x00 ∧ g = 0xA8 ∧ b = 0x00 then 0x02
  else if r = 0xA8 ∧ g = 0x00 ∧ b = 0x00 then 0x04
  else if r = 0xFF ∧ g = 0xFF ∧ b = 0xFF then 0x3F
  else 0x00

/-- A stored pixel. -/
structure Pixel where
  x : Word
  y : Word
  colorIndex : Byte
deriving DecidableEq

def putPixel (x y : Word) (colorIndex : Byte) : Option Pixel :=
  if 320 ≤ x ∨ 200 ≤ y then none else some { x := x, y := y, colorIndex := colorIndex }

/-- The values of a counter from `first` up to a limit it does not reach. -/
def counter (first limit : Word) : List Word :=
  (List.range (limit.toNat - first.toNat)).map fun passed => first + BitVec.ofNat 32 passed

def fillRectangle (x y w h : Word) (r g b : Byte) : List Pixel :=
  (counter y (y + h)).flatMap fun Y =>
    (counter x (x + w)).filterMap fun X => putPixel X Y (getColorIndex r g b)

theorem mem_counter (first limit value : Word) :
    value ∈ counter first limit ↔ first ≤ value ∧ value < limit := by
  simp only [counter, List.mem_map, List.mem_range]
  constructor
  · rintro ⟨passed, below, rfl⟩
    have bound := limit.isLt
    constructor <;> bv_omega
  · rintro ⟨lower, upper⟩
    exact ⟨value.toNat - first.toNat, by bv_omega, by bv_omega⟩

/-- A pixel of the screen is stored exactly when both counters pass it. -/
theorem fillRectangle_stores (x y w h px py : Word) (r g b : Byte) :
    (∃ pixel ∈ fillRectangle x y w h r g b, pixel.x = px ∧ pixel.y = py) ↔
      x ≤ px ∧ px < x + w ∧ y ≤ py ∧ py < y + h ∧ px < 320 ∧ py < 200 := by
  simp only [fillRectangle, List.mem_flatMap, List.mem_filterMap, mem_counter, putPixel]
  constructor
  · rintro ⟨pixel, ⟨Y, ⟨top, bottom⟩, X, ⟨left, right⟩, stored⟩, rfl, rfl⟩
    split at stored
    · cases stored
    case isFalse inside =>
      cases stored
      simp only [not_or] at inside
      refine ⟨left, right, top, bottom, ?_, ?_⟩ <;> bv_omega
  · rintro ⟨left, right, top, bottom, width, height⟩
    refine ⟨{ x := px, y := py, colorIndex := getColorIndex r g b },
      ⟨py, ⟨top, bottom⟩, px, ⟨left, right⟩, ?_⟩, rfl, rfl⟩
    have inside : ¬ (320 ≤ px ∨ 200 ≤ py) := by
      rw [not_or]
      constructor <;> bv_omega
    rw [if_neg inside]

end BlueOs.VideoGraphicsArray
