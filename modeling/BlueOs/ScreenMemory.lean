import BlueOs.Library.ByteMemory
import BlueOs.PrintedText

/-!
# The text screen in memory

The cells of the text screen are bytes of memory: from the start of the video memory on, each
cell's character byte and then its attribute byte. What is printed changes these bytes and
no others, so a program that prints while it reads memory reads what it stored if it
reads there.
-/

namespace BlueOs.ScreenMemory

open ByteMemory
open NumberPrinting (Printed)
open PrintedText (printAll printAll_append)
open TextConsole (Screen Cell Position glyph colours write)

/-- `VideoMemory` -/
def videoMemory : Address := 0xB8000

def cellAddress (cell : Fin 2000) : Address := videoMemory + BitVec.ofNat 32 (2 * cell.val)

/-- The text screen that memory holds. -/
def screenAt (memory : Memory) : Screen := fun cell =>
  memory (cellAddress cell + 1) ++ memory (cellAddress cell)

/-- A byte of a cell: the character is at the even addresses. -/
def byteOf (value : Cell) (offset : Nat) : Byte :=
  if offset % 2 = 0 then glyph value else colours value

/-- Memory with the bytes of a screen. -/
def withScreen (memory : Memory) (screen : Screen) : Memory := fun tested =>
  if inside : (tested - videoMemory).toNat < 4000 then
    byteOf (screen ⟨(tested - videoMemory).toNat / 2, by omega⟩) (tested - videoMemory).toNat
  else memory tested

/-- Calls of the print functions, with the position that `print` keeps. -/
def printOn (memory : Memory) (position : Position) (calls : List Printed) : Memory × Position :=
  let console := printAll ⟨screenAt memory, position⟩ calls
  (withScreen memory console.screen, console.position)

/-- An address that is not on the text screen. -/
def Off (tested : Address) : Prop := 4000 ≤ (tested - videoMemory).toNat

/-- Bytes from an address on, none of them on the text screen. -/
def OffScreen (first : Address) (count : Nat) : Prop :=
  ∀ tested : Address, (tested - first).toNat < count → Off tested

theorem offScreen_of_apart (first : Address) (count : Nat)
    (above : 4000 ≤ (first - videoMemory).toNat) (below : count ≤ (videoMemory - first).toNat) :
    OffScreen first count := by
  intro tested within
  rw [Off]
  bv_omega

theorem OffScreen.within {first place : Address} {count part : Nat}
    (clear : OffScreen first count) (fits : (place - first).toNat + part ≤ count) :
    OffScreen place part := by
  intro tested within
  apply clear
  bv_omega

theorem colours_glyph (value : Cell) : colours value ++ glyph value = value := by
  apply BitVec.eq_of_getLsbD_eq
  intro bit inside
  rw [BitVec.getLsbD_append, colours, glyph]
  simp only [BitVec.getLsbD_setWidth, BitVec.getLsbD_ushiftRight]
  by_cases low : bit < 8
  · simp [low]
  · have high : bit - 8 < 8 := by omega
    simp [low, high, show 8 + (bit - 8) = bit by omega]

theorem glyph_append (high low : Byte) : glyph (high ++ low) = low := by
  apply BitVec.eq_of_getLsbD_eq
  intro bit inside
  rw [glyph, BitVec.getLsbD_setWidth, BitVec.getLsbD_append]
  simp [inside]

theorem colours_append (high low : Byte) : colours (high ++ low) = high := by
  apply BitVec.eq_of_getLsbD_eq
  intro bit inside
  rw [colours, BitVec.getLsbD_setWidth, BitVec.getLsbD_ushiftRight, BitVec.getLsbD_append]
  simp [inside]

/-- The two bytes of a cell. -/
theorem cellAddress_offset (cell : Fin 2000) :
    (cellAddress cell - videoMemory).toNat = 2 * cell.val ∧
      (cellAddress cell + 1 - videoMemory).toNat = 2 * cell.val + 1 := by
  have bound := cell.isLt
  rw [cellAddress]
  constructor <;> bv_omega

theorem withScreen_cell (memory : Memory) (screen : Screen) (cell : Fin 2000) :
    withScreen memory screen (cellAddress cell) = glyph (screen cell) ∧
      withScreen memory screen (cellAddress cell + 1) = colours (screen cell) := by
  have bound := cell.isLt
  obtain ⟨even, odd⟩ := cellAddress_offset cell
  have half : (2 * cell.val + 1) / 2 = cell.val ∧ 2 * cell.val / 2 = cell.val := by omega
  simp only [withScreen, even, odd, half, byteOf]
  constructor
  · rw [dif_pos (by omega), if_pos (by omega)]
  · rw [dif_pos (by omega), if_neg (by omega)]

theorem withScreen_off (memory : Memory) (screen : Screen) (tested : Address) (off : Off tested) :
    withScreen memory screen tested = memory tested :=
  dif_neg (Nat.not_lt.mpr off)

/-- The screen that was stored is the one that memory holds. -/
@[simp] theorem screenAt_withScreen (memory : Memory) (screen : Screen) :
    screenAt (withScreen memory screen) = screen := by
  funext cell
  obtain ⟨low, high⟩ := withScreen_cell memory screen cell
  rw [screenAt, low, high]
  exact colours_glyph (screen cell)

theorem off_or_cell (tested : Address) :
    Off tested ∨ ∃ cell, tested = cellAddress cell ∨ tested = cellAddress cell + 1 := by
  by_cases off : Off tested
  · exact Or.inl off
  · have inside : (tested - videoMemory).toNat < 4000 := Nat.not_le.mp off
    refine Or.inr ⟨⟨(tested - videoMemory).toNat / 2, by omega⟩, ?_⟩
    rw [cellAddress]
    rcases Nat.mod_two_eq_zero_or_one (tested - videoMemory).toNat with even | odd
    · left
      bv_omega
    · right
      bv_omega

/-- Replacing the character of a cell stores the two bytes of the cell. -/
theorem withScreen_put (memory : Memory) (position : Position) (character : Byte) :
    withScreen memory (TextConsole.put (screenAt memory) position character) =
      store8
        (store8 memory (cellAddress position.cell)
          (glyph (write (screenAt memory position.cell) character)))
        (cellAddress position.cell + 1)
        (colours (write (screenAt memory position.cell) character)) := by
  obtain ⟨even, odd⟩ := cellAddress_offset position.cell
  have bound := position.cell.isLt
  funext tested
  rcases off_or_cell tested with off | ⟨cell, low | high⟩
  · have offset : 4000 ≤ (tested - videoMemory).toNat := off
    rw [withScreen_off _ _ _ off, store8_other, store8_other]
    · rintro rfl
      omega
    · rintro rfl
      omega
  · obtain ⟨own, -⟩ := cellAddress_offset cell
    have otherByte : cellAddress cell ≠ cellAddress position.cell + 1 := by
      rintro same
      rw [same] at own
      omega
    rw [low, (withScreen_cell _ _ _).1, store8_other _ _ _ _ otherByte]
    by_cases same : cell = position.cell
    · rw [same, store8_same, TextConsole.put, Function.update_self]
    · rw [TextConsole.put, Function.update_of_ne same, store8_other]
      · exact glyph_append _ _
      · intro address
        rw [address] at own
        exact same (Fin.ext (by omega))
  · obtain ⟨-, own⟩ := cellAddress_offset cell
    rw [high, (withScreen_cell _ _ _).2]
    by_cases same : cell = position.cell
    · rw [same, store8_same, TextConsole.put, Function.update_self]
    · rw [TextConsole.put, Function.update_of_ne same, store8_other, store8_other]
      · exact colours_append _ _
      · intro address
        rw [address] at own
        omega
      · intro address
        rw [address] at own
        exact same (Fin.ext (by omega))

/-- The screen that memory holds is stored already. -/
theorem withScreen_screenAt (memory : Memory) : withScreen memory (screenAt memory) = memory := by
  funext tested
  rcases off_or_cell tested with off | ⟨cell, rfl | rfl⟩
  · exact withScreen_off memory _ tested off
  · rw [(withScreen_cell _ _ _).1, screenAt, glyph_append]
  · rw [(withScreen_cell _ _ _).2, screenAt, colours_append]

/-- A screen takes the place of the one before. -/
@[simp] theorem withScreen_withScreen (memory : Memory) (screen other : Screen) :
    withScreen (withScreen memory screen) other = withScreen memory other := by
  funext tested
  rcases off_or_cell tested with off | ⟨cell, rfl | rfl⟩
  · simp only [withScreen_off _ _ tested off]
  · rw [(withScreen_cell _ _ _).1, (withScreen_cell _ _ _).1]
  · rw [(withScreen_cell _ _ _).2, (withScreen_cell _ _ _).2]

theorem printOn_nil (memory : Memory) (position : Position) :
    printOn memory position [] = (memory, position) :=
  congrArg (·, position) (withScreen_screenAt memory)

/-- Printing goes on where it stopped. -/
theorem printOn_append (memory : Memory) (position : Position) (calls other : List Printed) :
    printOn memory position (calls ++ other) =
      printOn (printOn memory position calls).1 (printOn memory position calls).2 other := by
  simp only [printOn, printAll_append, screenAt_withScreen, withScreen_withScreen]

/-- What is printed stays on the text screen. -/
theorem printOn_off (memory : Memory) (position : Position) (calls : List Printed)
    (tested : Address) (off : Off tested) :
    (printOn memory position calls).1 tested = memory tested :=
  withScreen_off memory _ tested off

end BlueOs.ScreenMemory
