import BlueOs.Library.Runs
import BlueOs.ConsoleColours
import BlueOs.SharedCursor

/-!
# The layout of a page

Between two page clears every printed character gets a cell of its own, each after
the one before it in the order of the rows, and keeps it; the other cells stay as
they were. A page clear blanks every cell and moves the cursor to the first one.

A run prints the characters of any number of calls and remembers which cells were
printed on since the page began, and what the page looked like then.
-/

namespace BlueOs.ConsoleLayout

open SharedCursor SharedCursor.Terminal
open TextConsole (Byte Cell write glyph glyph_write)

/-- The end of a full line. -/
def wrap (terminal : Terminal) : Terminal :=
  if 80 ≤ terminal.x then (terminal.setX 0).setY (terminal.y + 1) else terminal

/-- A character before the cursor is settled. -/
def place (terminal : Terminal) (character : Byte) : Terminal :=
  wrap (if character = 0x0A then (terminal.setX 0).setY (terminal.y + 1)
    else (terminal.store character).setX (terminal.x + 1))

/-- A character ends the page when it leaves no row. -/
def EndsPage (terminal : Terminal) (character : Byte) : Prop := 25 ≤ (place terminal character).y

instance (terminal : Terminal) (character : Byte) : Decidable (EndsPage terminal character) :=
  inferInstanceAs (Decidable (25 ≤ _))

/-- The terminal, the video memory when the page began, the cells printed on since
then with their characters, the newest first, and whether the last character ended
a page. -/
structure Traced where
  terminal : Terminal
  page : Nat → Cell
  printed : List (Nat × Byte)
  cleared : Bool

def step (traced : Traced) (character : Byte) : Option Traced :=
  let next := traced.terminal.printCharacter character
  if EndsPage traced.terminal character then
    some { terminal := next, page := next.videoMemory, printed := [], cleared := true }
  else
    some
      { terminal := next
        page := traced.page
        printed :=
          if character = 0x0A then traced.printed
          else (traced.terminal.index, character) :: traced.printed
        cleared := false }

def start (terminal : Terminal) : Traced where
  terminal := { terminal with stores := [] }
  page := terminal.videoMemory
  printed := []
  cleared := false

/-- The characters of a sequence of calls. -/
def characters (calls : List (List Byte)) : List Byte := calls.flatMap ConsoleColours.visible

/-- What holds after every character. -/
structure LaidOut (traced : Traced) : Prop where
  onScreen : traced.terminal.OnScreen
  contained : traced.terminal.Contained
  increasing : (traced.printed.map Prod.fst).Pairwise (· > ·)
  shown : ∀ entry ∈ traced.printed,
    traced.terminal.videoMemory entry.1 = write (traced.page entry.1) entry.2
  untouched : ∀ cell, cell ∉ traced.printed.map Prod.fst →
    traced.terminal.videoMemory cell = traced.page cell
  blank : traced.cleared = true → traced.terminal.x = 0 ∧ traced.terminal.y = 0 ∧
    ∀ cell : Fin 2000, glyph (traced.terminal.videoMemory cell) = 0x20

/-- The cells printed on are before the cursor. -/
structure Invariant (traced : Traced) : Prop where
  laidOut : LaidOut traced
  before : ∀ entry ∈ traced.printed, entry.1 < traced.terminal.index

/-- A character is placed, and then the page is cleared if it left no row. -/
theorem printCharacter_eq (terminal : Terminal) (character : Byte) :
    terminal.printCharacter character =
      if EndsPage terminal character then (place terminal character).clearPage
      else place terminal character := by
  simp only [printCharacter, EndsPage, place]
  split <;> rfl

theorem wrap_videoMemory (terminal : Terminal) :
    (wrap terminal).videoMemory = terminal.videoMemory := by
  simp only [wrap]
  split <;> rfl

/-- Wrapping a line that was just filled does not change the place in the order. -/
theorem wrap_index (terminal : Terminal) (column : terminal.x.toNat ≤ 80)
    (row : terminal.y.toNat < 255) : (wrap terminal).index = terminal.index := by
  simp only [wrap]
  split
  case isTrue full =>
    simp only [index, setX_x, setY_x, setY_y]
    bv_omega
  case isFalse => rfl

/-- The cursor moves on, past the cell of a character. -/
theorem place_index (terminal : Terminal) (character : Byte) (inside : terminal.OnScreen) :
    terminal.index < (place terminal character).index := by
  obtain ⟨column, row⟩ := inside
  simp only [place]
  split
  · rw [wrap_index]
    · simp only [index, setX_x, setY_x, setY_y]
      bv_omega
    · simp
    · rw [setY_y]
      bv_omega
  · rw [wrap_index]
    · simp only [index, setX_x, setX_y, store_y]
      bv_omega
    · rw [setX_x]
      bv_omega
    · rw [setX_y, store_y]
      omega

/-- A visible character is stored in the cell of the cursor, a newline nowhere. -/
theorem place_videoMemory (terminal : Terminal) (character : Byte) :
    (place terminal character).videoMemory =
      if character = 0x0A then terminal.videoMemory
      else Function.update terminal.videoMemory terminal.index
        (write (terminal.videoMemory terminal.index) character) := by
  rw [place, wrap_videoMemory]
  split <;> rfl

theorem printCharacter_keeps_contained (terminal : Terminal) (character : Byte)
    (inside : terminal.OnScreen) (contained : terminal.Contained) :
    (terminal.printCharacter character).Contained :=
  printCharacter_contained terminal character (Or.inr (index_onScreen terminal inside)) contained

/-- The cursor moves on and nothing is printed. -/
theorem Invariant.newline {traced : Traced} (held : Invariant traced) (moved : Terminal)
    (onScreen : moved.OnScreen) (contained : moved.Contained)
    (kept : moved.videoMemory = traced.terminal.videoMemory)
    (past : traced.terminal.index < moved.index) :
    Invariant
      { terminal := moved
        page := traced.page
        printed := traced.printed
        cleared := false } := by
  have laid := held.laidOut
  refine ⟨⟨onScreen, contained, laid.increasing, ?_, ?_, by simp⟩, ?_⟩
  · intro entry member
    rw [kept]
    exact laid.shown entry member
  · intro cell fresh
    rw [kept]
    exact laid.untouched cell fresh
  · intro entry member
    exact (held.before entry member).trans past

/-- A character is printed at the cursor, past the cells printed on before. -/
theorem Invariant.printed {traced : Traced} (held : Invariant traced) (character : Byte)
    (moved : Terminal) (onScreen : moved.OnScreen) (contained : moved.Contained)
    (stored : moved.videoMemory = Function.update traced.terminal.videoMemory traced.terminal.index
      (write (traced.terminal.videoMemory traced.terminal.index) character))
    (past : traced.terminal.index < moved.index) :
    Invariant
      { terminal := moved
        page := traced.page
        printed := (traced.terminal.index, character) :: traced.printed
        cleared := false } := by
  have laid := held.laidOut
  have apart : ∀ other ∈ traced.printed, other.1 ≠ traced.terminal.index := fun other earlier =>
    Nat.ne_of_lt (held.before other earlier)
  have fresh : traced.terminal.index ∉ traced.printed.map Prod.fst := by
    intro listed
    obtain ⟨other, earlier, same⟩ := List.mem_map.mp listed
    exact apart other earlier same
  refine ⟨⟨onScreen, contained, ?_, ?_, ?_, by simp⟩, ?_⟩
  · rw [List.map_cons, List.pairwise_cons]
    refine ⟨?_, laid.increasing⟩
    intro cell member
    obtain ⟨entry, earlier, rfl⟩ := List.mem_map.mp member
    exact held.before entry earlier
  · intro entry member
    rw [stored]
    rcases List.mem_cons.mp member with rfl | earlier
    · rw [Function.update_self, laid.untouched _ fresh]
    · rw [Function.update_of_ne (apart entry earlier)]
      exact laid.shown entry earlier
  · intro cell other
    rw [List.map_cons, List.mem_cons, not_or] at other
    rw [stored, Function.update_of_ne other.1]
    exact laid.untouched cell other.2
  · intro entry member
    rcases List.mem_cons.mp member with rfl | earlier
    · exact past
    · exact (held.before entry earlier).trans past

/-- A character that does not end the page. -/
theorem placed_invariant (traced : Traced) (character : Byte) (held : Invariant traced)
    (goesOn : ¬ EndsPage traced.terminal character) :
    ∃ next, step traced character = some next ∧ Invariant next := by
  have laid := held.laidOut
  have past := place_index traced.terminal character laid.onScreen
  have stored := place_videoMemory traced.terminal character
  have printed : traced.terminal.printCharacter character = place traced.terminal character := by
    rw [printCharacter_eq, if_neg goesOn]
  have onScreen := printCharacter_onScreen traced.terminal character
  have contained := printCharacter_keeps_contained traced.terminal character laid.onScreen
    laid.contained
  rw [printed] at onScreen contained
  by_cases newline : character = 0x0A
  · rw [if_pos newline] at stored
    have taken : step traced character = some
        { terminal := place traced.terminal character
          page := traced.page
          printed := traced.printed
          cleared := false } := by
      simp only [step, if_neg goesOn, printed, if_pos newline]
    exact ⟨_, taken, held.newline _ onScreen contained stored past⟩
  · rw [if_neg newline] at stored
    have taken : step traced character = some
        { terminal := place traced.terminal character
          page := traced.page
          printed := (traced.terminal.index, character) :: traced.printed
          cleared := false } := by
      simp only [step, if_neg goesOn, printed, if_neg newline]
    exact ⟨_, taken, held.printed character _ onScreen contained stored past⟩

/-- A character that ends the page. -/
theorem cleared_invariant (traced : Traced) (character : Byte) (held : Invariant traced)
    (ends : EndsPage traced.terminal character) :
    ∃ next, step traced character = some next ∧ Invariant next := by
  have printed : traced.terminal.printCharacter character =
      (place traced.terminal character).clearPage := by
    rw [printCharacter_eq, if_pos ends]
  have contained := printCharacter_keeps_contained traced.terminal character
    held.laidOut.onScreen held.laidOut.contained
  rw [printed] at contained
  have taken : step traced character = some
      { terminal := (place traced.terminal character).clearPage
        page := (place traced.terminal character).clearPage.videoMemory
        printed := []
        cleared := true } := by
    simp only [step, if_pos ends, printed]
  refine ⟨_, taken,
    ⟨clearPage_onScreen _, contained, List.Pairwise.nil, by simp, fun _ _ => rfl, ?_⟩, by simp⟩
  intro _
  refine ⟨clearPage_x _, clearPage_y _, ?_⟩
  intro cell
  rw [clearPage_cell, glyph_write]

theorem step_invariant (traced : Traced) (character : Byte) (held : Invariant traced) :
    ∃ next, step traced character = some next ∧ Invariant next := by
  by_cases ends : EndsPage traced.terminal character
  · exact cleared_invariant traced character held ends
  · exact placed_invariant traced character held ends

theorem start_invariant (terminal : Terminal) (inside : terminal.OnScreen) :
    Invariant (start terminal) := by
  refine ⟨⟨inside, ?_, List.Pairwise.nil, by simp [start], fun _ _ => rfl, by simp [start]⟩,
    by simp [start]⟩
  simp [Terminal.Contained, start]

/-- The run prints what the calls print. -/
theorem run_prints (calls : List (List Byte)) (traced : Traced) (held : Invariant traced) :
    ∃ final, Runs.run step (characters calls) traced = some final ∧
      final.terminal = calls.foldl Terminal.print traced.terminal := by
  obtain ⟨final, completed, -, prints⟩ := Runs.run_total step
    (fun rest current => Invariant current ∧
      rest.foldl printCharacter current.terminal =
        (characters calls).foldl printCharacter traced.terminal)
    (by
      rintro character rest current ⟨invariant, same⟩
      obtain ⟨next, taken, kept⟩ := step_invariant current character invariant
      have printed : next.terminal = current.terminal.printCharacter character := by
        simp only [step] at taken
        split at taken <;> rw [← Option.some.inj taken]
      exact ⟨next, taken, kept, by rw [printed, ← same]; rfl⟩)
    (characters calls) traced ⟨held, rfl⟩
  refine ⟨final, completed, ?_⟩
  rw [List.foldl_nil] at prints
  rw [prints, characters, List.foldl_flatMap]
  rfl

/-- From a cursor on the screen, every sequence of calls of `print` is laid out after
every character. -/
theorem layout_kept (terminal : Terminal) (inside : terminal.OnScreen)
    (calls : List (List Byte)) :
    Runs.Throughout step LaidOut (characters calls) (start terminal) ∧
      ∃ final, Runs.run step (characters calls) (start terminal) = some final ∧
        final.terminal = calls.foldl Terminal.print { terminal with stores := [] } := by
  constructor
  · apply Runs.throughout_of_invariant step LaidOut Invariant
    · intro traced held
      exact held.laidOut
    · intro traced character next held taken
      obtain ⟨other, takenToo, kept⟩ := step_invariant traced character held
      rw [Option.some.inj (taken.symm.trans takenToo)]
      exact kept
    · exact start_invariant terminal inside
  · exact run_prints calls (start terminal) (start_invariant terminal inside)

/-- A blank screen with the cursor near its end. -/
def nearTheEnd : Terminal where
  videoMemory _ := 0x0720
  x := 79
  y := 24
  stores := []

/-- A letter fills the last row, and the next call begins a new page. -/
theorem layout_kept_new_page :
    Runs.Throughout step LaidOut (characters [[0x41, 0x00], [0x42, 0x0A, 0x43, 0x00]])
      (start nearTheEnd) :=
  (layout_kept nearTheEnd ⟨by decide, by decide⟩ [[0x41, 0x00], [0x42, 0x0A, 0x43, 0x00]]).1

end BlueOs.ConsoleLayout
