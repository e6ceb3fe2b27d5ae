import Mathlib.Data.BitVec
import Mathlib.Logic.Function.Basic
import Mathlib.Tactic.IntervalCases

/-!
# The text console

The text screen has 80 by 25 cells of a character byte and an attribute byte.
`print` keeps its position between calls, always within the screen, and writes the
character bytes only. So printing commutes with every change of the screen that
commutes with writing a character into a cell.
-/

namespace BlueOs.TextConsole

abbrev Byte := BitVec 8
abbrev Cell := BitVec 16
abbrev Screen := Fin 2000 → Cell

structure Position where
  x : Fin 80
  y : Fin 25
deriving DecidableEq

namespace Position

/-- The upper left corner. -/
def corner : Position := ⟨0, 0⟩

/-- The middle of the screen. -/
def middle : Position := ⟨40, 12⟩

def cell (position : Position) : Fin 2000 :=
  ⟨80 * position.y.val + position.x.val, by
    have column := position.x.isLt
    have row := position.y.isLt
    omega⟩

theorem cell_injective : Function.Injective cell := by
  intro one other same
  have column := one.x.isLt
  have otherColumn := other.x.isLt
  have index : 80 * one.y.val + one.x.val = 80 * other.y.val + other.x.val :=
    congrArg Fin.val same
  have across : one.x = other.x := Fin.ext (by omega)
  have down : one.y = other.y := Fin.ext (by omega)
  cases one
  cases other
  cases across
  cases down
  rfl

end Position

/-- The character is promoted to an `int`: a byte from 0x80 on also sets every
attribute bit. -/
def write (value : Cell) (character : Byte) : Cell :=
  (value &&& 0xFF00) ||| character.signExtend 16

/-- The high byte of a cell, its colours. -/
def colours (value : Cell) : Byte := (value >>> 8).setWidth 8

/-- The low byte of a cell, its character. -/
def glyph (value : Cell) : Byte := value.setWidth 8

theorem glyph_write (value : Cell) (character : Byte) :
    glyph (write value character) = character := by
  apply BitVec.eq_of_getElem_eq
  intro bit inside
  interval_cases bit <;> simp [glyph, write, BitVec.getElem_signExtend]

theorem colours_write (value : Cell) (character : Byte) :
    colours (write value character) =
      if character.msb then 0xFF else colours value := by
  apply BitVec.eq_of_getElem_eq
  intro bit inside
  cases sign : character.msb <;>
    interval_cases bit <;> simp [colours, write, BitVec.getElem_signExtend, sign]

def put (screen : Screen) (position : Position) (character : Byte) : Screen :=
  Function.update screen position.cell (write (screen position.cell) character)

/-- The two loops that blank the page. -/
def clearPage (screen : Screen) : Screen :=
  (List.finRange 25).foldl (fun screen y =>
    (List.finRange 80).foldl (fun screen x => put screen ⟨x, y⟩ 0x20) screen) screen

structure Console where
  screen : Screen
  position : Position

/-- The end of the loop body: wrap a full line, then clear a full page. -/
def settle (screen : Screen) (x y : Nat) : Console :=
  if column : x < 80 then
    if row : y < 25 then ⟨screen, ⟨⟨x, column⟩, ⟨y, row⟩⟩⟩ else ⟨clearPage screen, .corner⟩
  else
    if row : y + 1 < 25 then ⟨screen, ⟨0, ⟨y + 1, row⟩⟩⟩ else ⟨clearPage screen, .corner⟩

def printCharacter (console : Console) (character : Byte) : Console :=
  if character = 0x0A then settle console.screen 0 (console.position.y.val + 1)
  else settle (put console.screen console.position character) (console.position.x.val + 1)
    console.position.y.val

/-- `print` stops at the first NUL byte. -/
def print (console : Console) (str : List Byte) : Console :=
  (str.takeWhile fun character => character ≠ 0x00).foldl printCharacter console

/-- Change every cell of a screen. -/
def overlay (marks : Fin 2000 → Cell → Cell) (screen : Screen) : Screen :=
  fun cell => marks cell (screen cell)

def Console.overlay (marks : Fin 2000 → Cell → Cell) (console : Console) : Console :=
  { console with screen := TextConsole.overlay marks console.screen }

section Overlay

variable (marks : Fin 2000 → Cell → Cell)
  (commuting : ∀ cell value character, write (marks cell value) character =
    marks cell (write value character))
include commuting

theorem put_overlay (screen : Screen) (position : Position) (character : Byte) :
    put (overlay marks screen) position character =
      overlay marks (put screen position character) := by
  funext cell
  by_cases same : cell = position.cell
  · subst same
    simp only [put, overlay, Function.update_self, commuting]
  · simp only [put, overlay, Function.update_of_ne same]

theorem clearPage_overlay (screen : Screen) :
    clearPage (overlay marks screen) = overlay marks (clearPage screen) := by
  have row (y : Fin 25) (screen : Screen) :
      (List.finRange 80).foldl (fun screen x => put screen ⟨x, y⟩ 0x20) (overlay marks screen) =
        overlay marks ((List.finRange 80).foldl (fun screen x => put screen ⟨x, y⟩ 0x20) screen) :=
    List.foldl_hom (overlay marks) fun screen x => put_overlay marks commuting screen ⟨x, y⟩ 0x20
  exact List.foldl_hom (overlay marks) fun screen y => row y screen

theorem settle_overlay (screen : Screen) (x y : Nat) :
    settle (overlay marks screen) x y = (settle screen x y).overlay marks := by
  simp only [settle, clearPage_overlay marks commuting]
  split <;> split <;> rfl

theorem printCharacter_overlay (console : Console) (character : Byte) :
    printCharacter (console.overlay marks) character =
      (printCharacter console character).overlay marks := by
  simp only [printCharacter, Console.overlay, put_overlay marks commuting]
  split
  · exact settle_overlay marks commuting console.screen 0 _
  · exact settle_overlay marks commuting _ _ _

/-- Printing over a changed screen is changing the screen that was printed. -/
theorem print_overlay (console : Console) (str : List Byte) :
    print (console.overlay marks) str = (print console str).overlay marks :=
  List.foldl_hom (Console.overlay marks) fun console character =>
    printCharacter_overlay marks commuting console character

end Overlay

end BlueOs.TextConsole
