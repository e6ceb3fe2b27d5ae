import BlueOs.ConsoleColours
import BlueOs.Library.Pagination

/-!
# The screen as the last page of a text

`print` moves a cursor and writes cells. A reader sees pages: the text broken into lines,
the lines into rows of 80 characters, the rows into pages of 25. The screen shows the
page with the last row, and the cursor is at the end of this row.
-/

namespace BlueOs.PagedScreen

open Pagination
open ConsoleColours (visible)
open TextConsole (Byte Screen Console Position print printCharacter put settle clearPage glyph
  glyph_write)

/-- The rows of a text on the console. -/
def rowsOf (text : List Byte) : List (List Byte) := rows 0x0A 80 text

/-- The character that a reader sees in a cell: the one on the page, or else, on the first
page, what the screen showed before, and a space on the others. -/
def seen (screen : Screen) (rows : List (List Byte)) (position : Position) : Byte :=
  (symbolAt (lastPage 25 rows) position.y position.x).getD
    (if rows.length ≤ 25 then glyph (screen position.cell) else 0x20)

/-- A console shows the last page of rows, and has its cursor at the end of the last. -/
structure Shows (screen : Screen) (rows : List (List Byte)) (console : Console) : Prop where
  column : console.position.x.val = (rows.getLastD []).length
  row : console.position.y.val = (rows.length - 1) % 25
  cells : ∀ position : Position, glyph (console.screen position.cell) = seen screen rows position

section rows

variable (screen current : Screen) (earlier : List (List Byte)) (last : List Byte)

theorem length_snoc : (earlier ++ [last]).length = earlier.length + 1 := List.length_append

/-- The cell of the cursor shows the new character. -/
theorem put_seen (cursor : Position) (character : Byte)
    (column : cursor.x.val = last.length) (row : cursor.y.val = earlier.length % 25)
    (cells : ∀ position : Position, glyph (current position.cell) =
      seen screen (earlier ++ [last]) position) (position : Position) :
    glyph (put current cursor character position.cell) =
      seen screen (earlier ++ [last ++ [character]]) position := by
  rw [seen, symbolAt_longer, length_snoc, put]
  by_cases here : position = cursor
  · subst here
    rw [Function.update_self, glyph_write, if_pos ⟨row, column⟩, Option.getD_some]
  · have elsewhere : ¬(position.y.val = earlier.length % 25 ∧ position.x.val = last.length) := by
      rintro ⟨down, across⟩
      apply here
      cases position
      cases cursor
      exact congrArg₂ Position.mk (Fin.ext (across.trans column.symm))
        (Fin.ext (down.trans row.symm))
    rw [Function.update_of_ne fun same => here (Position.cell_injective same), if_neg elsewhere,
      cells, seen, length_snoc]

/-- A new row, or a new page where the last one was full. -/
theorem newRow_shows
    (cells : ∀ position : Position, glyph (current position.cell) =
      seen screen (earlier ++ [last]) position) :
    Shows screen (earlier ++ [last] ++ [[]]) (settle current 0 (earlier.length % 25 + 1)) := by
  have inside := Nat.mod_lt earlier.length (show 0 < 25 by decide)
  have length : (earlier ++ [last] ++ [[]]).length = earlier.length + 2 := by
    rw [length_snoc, length_snoc]
  have ended : ((earlier ++ [last] ++ [[]]).getLastD []).length = 0 := by
    rw [List.getLastD_concat]
    rfl
  by_cases full : (earlier.length + 1) % 25 = 0
  · have cleared : settle current 0 (earlier.length % 25 + 1) = ⟨clearPage current, .corner⟩ := by
      rw [settle, dif_pos (by decide), dif_neg (by omega)]
    rw [cleared]
    refine ⟨ended.symm, ?_, fun position => ?_⟩
    · rw [length]
      change 0 = (earlier.length + 1) % 25
      omega
    · rw [seen, lastPage_newPage 25 earlier last full, symbolAt_empty, Option.getD_none, length,
        if_neg (by omega)]
      change glyph (clearPage current position.cell) = _
      rw [SharedCursor.console_clearPage_cell, glyph_write]
  · have below : earlier.length % 25 + 1 < 25 := by omega
    have moved : settle current 0 (earlier.length % 25 + 1) =
        ⟨current, ⟨0, ⟨earlier.length % 25 + 1, below⟩⟩⟩ := by
      rw [settle, dif_pos (by decide), dif_pos below]
      rfl
    rw [moved]
    refine ⟨ended.symm, ?_, fun position => ?_⟩
    · rw [length]
      change earlier.length % 25 + 1 = (earlier.length + 1) % 25
      omega
    · have page : earlier.length + 2 ≤ 25 ↔ earlier.length + 1 ≤ 25 := by omega
      rw [seen, symbolAt_newRow 25 earlier last full, length, if_congr page rfl rfl]
      exact (cells position).trans (by rw [seen, length_snoc])

end rows

/-- A full row ends like a line. -/
theorem settle_full (screen : Screen) (y : Nat) : settle screen 80 y = settle screen 0 (y + 1) := rfl

theorem printCharacter_shows (screen : Screen) (text : List Byte) (character : Byte)
    (console : Console) (shows : Shows screen (rowsOf text) console) :
    Shows screen (rowsOf (text ++ [character])) (printCharacter console character) := by
  obtain ⟨column, row, cells⟩ := shows
  by_cases newline : character = 0x0A
  · subst newline
    obtain ⟨earlier, last, before, -⟩ := rows_last (0x0A : Byte) (show 0 < 80 by decide) text
    have after := rows_separator (0x0A : Byte) (show 0 < 80 by decide) text
    rw [rowsOf, before] at row cells
    rw [length_snoc, Nat.add_sub_cancel] at row
    rw [rowsOf, after, before, printCharacter, if_pos rfl, row]
    exact newRow_shows screen console.screen earlier last cells
  · obtain ⟨earlier, last, before, short, after⟩ :=
      rows_symbol (0x0A : Byte) (show 0 < 80 by decide) text character newline
    rw [rowsOf, before] at column row cells
    rw [length_snoc, Nat.add_sub_cancel] at row
    rw [List.getLastD_concat] at column
    have written := put_seen screen console.screen earlier last console.position character column
      row cells
    rw [rowsOf, after, grown, printCharacter, if_neg newline, column, row]
    split
    case isTrue fills =>
      rw [fills, settle_full, List.append_cons]
      exact newRow_shows screen _ earlier (last ++ [character]) written
    case isFalse room =>
      have inside := Nat.mod_lt earlier.length (show 0 < 25 by decide)
      rw [settle, dif_pos (by omega), dif_pos inside]
      refine ⟨?_, ?_, written⟩
      · rw [List.getLastD_concat, List.length_append]
        rfl
      · rw [length_snoc, Nat.add_sub_cancel]

/-- From any screen with the cursor in the corner, any calls of `print` show the last page
of their text: every cell the character that a reader sees there, and the cursor at the end
of the last row. -/
theorem page_shown (screen : Screen) (strs : List (List Byte)) :
    Shows screen (rowsOf (strs.flatMap visible)) (strs.foldl print ⟨screen, .corner⟩) := by
  have whole : strs.foldl print ⟨screen, .corner⟩ =
      (strs.flatMap visible).foldl printCharacter ⟨screen, .corner⟩ := by
    rw [List.foldl_flatMap]
    rfl
  rw [whole]
  generalize strs.flatMap visible = text
  induction text using List.reverseRecOn with
  | nil =>
    have empty : rowsOf [] = [[]] := rfl
    rw [empty]
    refine ⟨rfl, rfl, fun position => ?_⟩
    change glyph (screen position.cell) = (symbolAt [[]] position.y position.x).getD _
    rw [symbolAt_empty]
    rfl
  | append_singleton text character inductionHypothesis =>
    rw [List.foldl_append]
    exact printCharacter_shows screen text character _ inductionHypothesis

end BlueOs.PagedScreen
