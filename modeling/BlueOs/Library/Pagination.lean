import Mathlib.Data.List.Basic

/-!
# Text on pages

A text is broken into lines at every separator, each line into rows of a width, and the
rows into pages of a height. A line that fills its rows has an empty row at its end.

A symbol more changes the end of a text only: the last row grows, and an empty row
follows it if it is full or the symbol is a separator.
-/

namespace Pagination

universe u
variable {α : Type u}

/-- The rows of a line; all but the last are full. -/
def breakLine (width : Nat) (line : List α) : List (List α) :=
  (List.range (line.length / width + 1)).map fun index => (line.drop (width * index)).take width

/-- The rows of a text. -/
def rows [BEq α] (separator : α) (width : Nat) (text : List α) : List (List α) :=
  (text.splitOn separator).flatMap (breakLine width)

/-- The page with the last row. -/
def lastPage (height : Nat) (rows : List (List α)) : List (List α) :=
  rows.drop (height * ((rows.length - 1) / height))

def symbolAt (page : List (List α)) (row column : Nat) : Option α :=
  page[row]?.bind fun symbols => symbols[column]?

/-- An empty row shows nothing. -/
theorem symbolAt_empty (row column : Nat) : symbolAt [([] : List α)] row column = none := by
  cases row with
  | zero => rfl
  | succ row => rfl

/-- The last row with a symbol more, and the empty row behind it if it is full. -/
def grown (width : Nat) (last : List α) (symbol : α) : List (List α) :=
  if last.length + 1 = width then [last ++ [symbol], []] else [last ++ [symbol]]

section lines

variable (width : Nat) (line : List α)

def fullRows : List (List α) :=
  (List.range (line.length / width)).map fun index => (line.drop (width * index)).take width

def lastRow : List α := line.drop (width * (line.length / width))

theorem length_lastRow : (lastRow width line).length = line.length % width := by
  rw [lastRow, List.length_drop, Nat.mod_def]

theorem lastRow_append (symbol : α) :
    (line ++ [symbol]).drop (width * (line.length / width)) = lastRow width line ++ [symbol] :=
  List.drop_append_of_le_length (Nat.mul_div_le line.length width)

variable {width} (positive : 0 < width)
include positive

theorem lastRow_short : (lastRow width line).length < width := by
  rw [length_lastRow]
  exact Nat.mod_lt _ positive

theorem breakLine_eq : breakLine width line = fullRows width line ++ [lastRow width line] := by
  have short := lastRow_short line positive
  rw [lastRow] at short
  rw [breakLine, List.range_succ, List.map_append, List.map_singleton,
    List.take_of_length_le (Nat.le_of_lt short)]
  rfl

/-- A full row stays as it is. -/
theorem row_append (symbol : α) (index : Nat) (full : index < line.length / width) :
    ((line ++ [symbol]).drop (width * index)).take width =
      (line.drop (width * index)).take width := by
  have within : width * index + width ≤ line.length := by
    calc width * index + width = width * (index + 1) := (Nat.mul_succ width index).symm
      _ ≤ width * (line.length / width) := Nat.mul_le_mul_left width full
      _ ≤ line.length := Nat.mul_div_le line.length width
  rw [List.drop_append_of_le_length (by omega), List.take_append_of_le_length]
  rw [List.length_drop]
  omega

theorem fullRows_append (symbol : α) :
    (List.range (line.length / width)).map (fun index =>
      ((line ++ [symbol]).drop (width * index)).take width) = fullRows width line := by
  apply List.map_congr_left
  intro index member
  exact row_append line positive symbol index (List.mem_range.mp member)

/-- A line with a symbol more. -/
theorem breakLine_snoc (symbol : α) :
    breakLine width (line ++ [symbol]) =
      fullRows width line ++ grown width (lastRow width line) symbol := by
  have length : (line ++ [symbol]).length = line.length + 1 := List.length_append
  have split := Nat.div_add_mod line.length width
  have short := Nat.mod_lt line.length positive
  rw [breakLine, length, grown, length_lastRow]
  by_cases fills : line.length % width + 1 = width
  · have count : (line.length + 1) / width = line.length / width + 1 := by
      rw [← split, Nat.add_assoc, fills, ← Nat.mul_succ, Nat.mul_div_cancel_left _ positive,
        Nat.mul_add_div positive, Nat.div_eq_of_lt short, Nat.add_zero]
    have past : (line ++ [symbol]).length ≤ width * (line.length / width + 1) := by
      rw [length, Nat.mul_succ]
      omega
    have whole : (lastRow width line ++ [symbol]).length ≤ width := by
      rw [List.length_append, length_lastRow, List.length_singleton]
      omega
    rw [count, if_pos fills, List.range_succ, List.range_succ, List.map_append, List.map_append,
      fullRows_append line positive, List.map_singleton, List.map_singleton,
      lastRow_append width line, List.take_of_length_le whole, List.drop_eq_nil_of_le past,
      List.take_nil, List.append_assoc]
    rfl
  · have count : (line.length + 1) / width = line.length / width := by
      have inside : line.length % width + 1 < width := by omega
      conv_lhs => rw [← split, Nat.add_assoc, Nat.mul_add_div positive]
      rw [Nat.div_eq_of_lt inside, Nat.add_zero]
    have whole : (lastRow width line ++ [symbol]).length ≤ width := by
      rw [List.length_append, length_lastRow, List.length_singleton]
      omega
    rw [count, if_neg fills, List.range_succ, List.map_append, fullRows_append line positive,
      List.map_singleton, lastRow_append width line, List.take_of_length_le whole]

end lines

/-- A symbol that is no separator makes the last line longer. -/
theorem splitOn_snoc [BEq α] [LawfulBEq α] (separator symbol : α) (text : List α)
    (apart : symbol ≠ separator) :
    ∃ earlier line, text.splitOn separator = earlier ++ [line] ∧
      (text ++ [symbol]).splitOn separator = earlier ++ [line ++ [symbol]] := by
  induction text with
  | nil =>
    refine ⟨[], [], rfl, ?_⟩
    rw [List.nil_append, List.splitOn_eq_singleton]
    · rfl
    · rw [List.mem_singleton]
      exact Ne.symm apart
  | cons first rest inductionHypothesis =>
    obtain ⟨earlier, line, before, after⟩ := inductionHypothesis
    rw [List.cons_append, List.splitOn_cons_eq_if_modifyHead, List.splitOn_cons_eq_if_modifyHead,
      before, after]
    by_cases ends : (first == separator) = true
    · rw [if_pos ends, if_pos ends]
      exact ⟨[] :: earlier, line, rfl, rfl⟩
    · rw [if_neg ends, if_neg ends]
      cases earlier with
      | nil => exact ⟨[], first :: line, rfl, rfl⟩
      | cons head tail => exact ⟨(first :: head) :: tail, line, rfl, rfl⟩

section text

variable [BEq α] (separator : α) {width : Nat} (positive : 0 < width) (text : List α)
include positive

theorem rows_last : ∃ earlier last, rows separator width text = earlier ++ [last] ∧
    last.length < width := by
  obtain ⟨before, line, lines⟩ :=
    (List.eq_nil_or_concat (text.splitOn separator)).resolve_left (List.splitOn_ne_nil separator text)
  refine ⟨before.flatMap (breakLine width) ++ fullRows width line, lastRow width line, ?_,
    lastRow_short line positive⟩
  rw [rows, lines, List.concat_eq_append, List.flatMap_append, List.flatMap_singleton,
    breakLine_eq line positive, List.append_assoc]

variable [LawfulBEq α]

/-- A text with a separator more. -/
theorem rows_separator :
    rows separator width (text ++ [separator]) = rows separator width text ++ [[]] := by
  have lines : (text ++ [separator]).splitOn separator = text.splitOn separator ++ [[]] :=
    List.splitOn_append_cons_self text []
  have empty : breakLine width ([] : List α) = [[]] := by
    rw [breakLine_eq [] positive, fullRows, lastRow, List.length_nil, Nat.zero_div]
    rfl
  rw [rows, lines, List.flatMap_append, List.flatMap_singleton, empty]
  rfl

/-- A text with a symbol more that is no separator. -/
theorem rows_symbol (symbol : α) (apart : symbol ≠ separator) :
    ∃ earlier last, rows separator width text = earlier ++ [last] ∧ last.length < width ∧
      rows separator width (text ++ [symbol]) = earlier ++ grown width last symbol := by
  obtain ⟨before, line, lines, longer⟩ := splitOn_snoc separator symbol text apart
  refine ⟨before.flatMap (breakLine width) ++ fullRows width line, lastRow width line, ?_,
    lastRow_short line positive, ?_⟩
  · rw [rows, lines, List.flatMap_append, List.flatMap_singleton, breakLine_eq line positive,
      List.append_assoc]
  · rw [rows, longer, List.flatMap_append, List.flatMap_singleton, breakLine_snoc line positive,
      List.append_assoc]

/-- A full row, the empty row at its end, and the next line. -/
example : rows 0 2 [1, 1, 0, 1] = [[1, 1], [], [1]] := by decide

end text

section pages

variable (height : Nat) (earlier : List (List α)) (last : List α)

/-- How many rows are on the pages before the last row's. -/
def turned : Nat := height * (earlier.length / height)

theorem lastPage_append :
    lastPage height (earlier ++ [last]) = earlier.drop (turned height earlier) ++ [last] := by
  have rows : (earlier ++ [last]).length - 1 = earlier.length := by
    rw [List.length_append, List.length_singleton, Nat.add_sub_cancel]
  rw [lastPage, rows, turned, List.drop_append_of_le_length (Nat.mul_div_le _ _)]

theorem length_drop_turned :
    (earlier.drop (turned height earlier)).length = earlier.length % height := by
  rw [turned, List.length_drop, Nat.mod_def]

/-- The rows of the page before the last, and the last. -/
theorem symbolAt_lastPage (row column : Nat) :
    symbolAt (lastPage height (earlier ++ [last])) row column =
      if row = earlier.length % height then last[column]?
      else symbolAt (earlier.drop (turned height earlier)) row column := by
  have length := length_drop_turned height earlier
  rw [lastPage_append, symbolAt]
  by_cases here : row = earlier.length % height
  · rw [if_pos here, ← length] at *
    subst here
    rw [List.getElem?_concat_length]
    rfl
  · rw [if_neg here, symbolAt]
    by_cases before : row < earlier.length % height
    · rw [List.getElem?_append_left (by omega)]
    · rw [List.getElem?_eq_none (by rw [List.length_append, List.length_singleton]; omega),
        List.getElem?_eq_none (by omega)]

/-- A longer last row shows one symbol more. -/
theorem symbolAt_longer (symbol : α) (row column : Nat) :
    symbolAt (lastPage height (earlier ++ [last ++ [symbol]])) row column =
      if row = earlier.length % height ∧ column = last.length then some symbol
      else symbolAt (lastPage height (earlier ++ [last])) row column := by
  rw [symbolAt_lastPage, symbolAt_lastPage]
  by_cases here : row = earlier.length % height
  · rw [if_pos here, if_pos here]
    by_cases next : column = last.length
    · rw [if_pos ⟨here, next⟩, next, List.getElem?_concat_length]
    · rw [if_neg fun both => next both.2]
      by_cases before : column < last.length
      · rw [List.getElem?_append_left before]
      · rw [List.getElem?_eq_none (by rw [List.length_append, List.length_singleton]; omega),
          List.getElem?_eq_none (by omega)]
  · rw [if_neg here, if_neg here, if_neg fun both => here both.1]

/-- An empty row on the same page shows nothing. -/
theorem symbolAt_newRow (more : (earlier.length + 1) % height ≠ 0) (row column : Nat) :
    symbolAt (lastPage height (earlier ++ [last] ++ [[]])) row column =
      symbolAt (lastPage height (earlier ++ [last])) row column := by
  have length : (earlier ++ [last]).length = earlier.length + 1 := List.length_append
  have same : (earlier.length + 1) / height = earlier.length / height :=
    Nat.succ_div_of_not_dvd fun divides => more (Nat.mod_eq_zero_of_dvd divides)
  have pages : turned height (earlier ++ [last]) = turned height earlier := by
    rw [turned, turned, length, same]
  have onPage : lastPage height (earlier ++ [last]) =
      (earlier ++ [last]).drop (turned height (earlier ++ [last])) := by
    rw [lastPage_append, pages, turned, List.drop_append_of_le_length (Nat.mul_div_le _ _)]
  rw [symbolAt_lastPage, onPage]
  split
  case isTrue below =>
    have rows := length_drop_turned height (earlier ++ [last])
    have none : ((earlier ++ [last]).drop (turned height (earlier ++ [last])))[row]? = none :=
      List.getElem?_eq_none (by omega)
    rw [symbolAt, none]
    rfl
  case isFalse => rfl

/-- An empty row on a page of its own. -/
theorem lastPage_newPage (full : (earlier.length + 1) % height = 0) :
    lastPage height (earlier ++ [last] ++ [[]]) = [[]] := by
  have length : (earlier ++ [last]).length = earlier.length + 1 := List.length_append
  have whole := Nat.mul_div_cancel' (Nat.dvd_of_mod_eq_zero full)
  rw [lastPage_append, turned, length, whole, ← length, List.drop_length, List.nil_append]

end pages

end Pagination
