import BlueOs.Library.Runs
import BlueOs.SharedCursor

/-!
# The colours of printed cells

A cell keeps its high byte under a character below 0x80. The characters of a string
are signed: one from 0x80 on is promoted with its sign and sets the whole high byte
of its cell. A high byte that is set stays so, hence a call of `print` leaves all
colours as they were exactly if every such character goes to a cell whose high byte
is 0xFF already.
-/

namespace BlueOs.ConsoleColours

open TextConsole

/-- The characters of a string before its first NUL byte. -/
def visible (str : List Byte) : List Byte := str.takeWhile fun character => character ≠ 0x00

/-- Printing a character is always possible. -/
def step (console : Console) (character : Byte) : Option Console :=
  some (printCharacter console character)

/-- A character that leaves the colours of the cell it goes to. -/
def Colourless (console : Console) (character : Byte) : Prop :=
  character = 0x0A ∨ character.msb = false ∨
    colours (console.screen console.position.cell) = 0xFF

instance (console : Console) (character : Byte) : Decidable (Colourless console character) :=
  inferInstanceAs (Decidable (_ ∨ _ ∨ _))

theorem put_colours (screen : Screen) (position : Position) (character : Byte) (cell : Fin 2000) :
    colours (put screen position character cell) =
      if cell = position.cell ∧ character.msb then 0xFF else colours (screen cell) := by
  by_cases here : cell = position.cell
  · subst here
    simp only [put, Function.update_self, colours_write, true_and]
  · simp only [put, Function.update_of_ne here, here, false_and, if_false]

/-- The cell a character was put in shows the character. -/
theorem put_glyph (screen : Screen) (position : Position) (character : Byte) :
    glyph (put screen position character position.cell) = character := by
  rw [put, Function.update_self, glyph_write]

/-- Blanking the page keeps the colours. -/
theorem clearPage_colours (screen : Screen) (cell : Fin 2000) :
    colours (clearPage screen cell) = colours (screen cell) := by
  rw [SharedCursor.console_clearPage_cell, colours_write]
  rfl

/-- The end of the loop body leaves the screen, or blanks it. -/
theorem settle_eq (screen : Screen) (x y : Nat) :
    (settle screen x y).screen = screen ∨ settle screen x y = ⟨clearPage screen, .corner⟩ := by
  simp only [settle]
  split <;> split
  · exact Or.inl rfl
  · exact Or.inr rfl
  · exact Or.inl rfl
  · exact Or.inr rfl

theorem settle_colours (screen : Screen) (x y : Nat) (cell : Fin 2000) :
    colours ((settle screen x y).screen cell) = colours (screen cell) := by
  rcases settle_eq screen x y with left | blanked
  · rw [left]
  · rw [blanked]
    exact clearPage_colours screen cell

/-- What one character does to the colours of the screen. -/
theorem printCharacter_colours (console : Console) (character : Byte) (cell : Fin 2000) :
    colours ((printCharacter console character).screen cell) =
      if character ≠ 0x0A ∧ cell = console.position.cell ∧ character.msb then 0xFF
      else colours (console.screen cell) := by
  simp only [printCharacter]
  by_cases newline : character = 0x0A
  · rw [if_pos newline, settle_colours, if_neg (fun all => all.1 newline)]
  · rw [if_neg newline, settle_colours, put_colours]
    simp only [newline, ne_eq, not_false_eq_true, true_and]

/-- A colourless character changes no colours, any other one changes those of its
cell. -/
theorem printCharacter_keeps_iff (console : Console) (character : Byte) :
    (∀ cell, colours ((printCharacter console character).screen cell) =
      colours (console.screen cell)) ↔ Colourless console character := by
  simp only [printCharacter_colours]
  constructor
  · intro kept
    by_cases newline : character = 0x0A
    · exact Or.inl newline
    · cases sign : character.msb with
      | false => exact Or.inr (Or.inl sign)
      | true =>
        have here := kept console.position.cell
        rw [if_pos ⟨newline, rfl, sign⟩] at here
        exact Or.inr (Or.inr here.symm)
  · intro colourless cell
    by_cases changed : character ≠ 0x0A ∧ cell = console.position.cell ∧ character.msb
    · obtain ⟨visibly, rfl, sign⟩ := changed
      rw [if_pos ⟨visibly, rfl, sign⟩]
      rcases colourless with newline | low | same
      · exact absurd newline visibly
      · rw [low] at sign
        cases sign
      · exact same.symm
    · rw [if_neg changed]

/-- Colours that are set stay set. -/
theorem printAll_saturated (characters : List Byte) (console : Console) (cell : Fin 2000)
    (set : colours (console.screen cell) = 0xFF) :
    colours ((characters.foldl printCharacter console).screen cell) = 0xFF := by
  induction characters generalizing console with
  | nil => exact set
  | cons character rest inductionHypothesis =>
    rw [List.foldl_cons]
    apply inductionHypothesis
    rw [printCharacter_colours]
    split
    · rfl
    · exact set

/-- The colours of all cells after printing characters. -/
theorem printAll_keeps_iff (characters : List Byte) (console : Console) :
    (∀ cell, colours ((characters.foldl printCharacter console).screen cell) =
        colours (console.screen cell)) ↔
      Runs.Meets step Colourless characters console := by
  induction characters generalizing console with
  | nil => simp [Runs.Meets]
  | cons character rest inductionHypothesis =>
    simp only [List.foldl_cons, Runs.Meets, step, Option.some.injEq, forall_eq']
    rw [← inductionHypothesis, ← printCharacter_keeps_iff]
    constructor
    · intro kept
      have first : ∀ cell, colours ((printCharacter console character).screen cell) =
          colours (console.screen cell) := by
        intro cell
        rw [printCharacter_colours]
        split
        · case isTrue changed =>
          -- The colours set here would still be set at the end.
          have set : colours ((printCharacter console character).screen cell) = 0xFF := by
            rw [printCharacter_colours, if_pos changed]
          rw [← kept cell, printAll_saturated rest _ cell set]
        · rfl
      exact ⟨first, fun cell => (kept cell).trans (first cell).symm⟩
    · rintro ⟨first, later⟩ cell
      exact (later cell).trans (first cell)

/-- A visible character is the low byte of the cell it is written to, and stays there
unless it ends the page, which is blanked then. -/
def Written (console : Console) (character : Byte) : Prop :=
  glyph (put console.screen console.position character console.position.cell) = character ∧
    (glyph ((printCharacter console character).screen console.position.cell) = character ∨
      printCharacter console character =
        ⟨clearPage (put console.screen console.position character), .corner⟩)

/-- What is asked of a call: all cells keep their colours, and each cell written to
shows the character. -/
structure KeepsColours (console : Console) (str : List Byte) : Prop where
  colours : ∀ cell, colours ((print console str).screen cell) = colours (console.screen cell)
  characters : ∀ earlier character later, visible str = earlier ++ character :: later →
    character ≠ 0x0A → Written (earlier.foldl printCharacter console) character

theorem printCharacter_written (console : Console) (character : Byte)
    (visibly : character ≠ 0x0A) : Written console character := by
  have shown := put_glyph console.screen console.position character
  refine ⟨shown, ?_⟩
  rw [printCharacter, if_neg visibly]
  rcases settle_eq (put console.screen console.position character)
    (console.position.x.val + 1) console.position.y.val with left | blanked
  · rw [left]
    exact Or.inl shown
  · exact Or.inr blanked

/-- A call of `print` keeps the colours exactly if each of its characters is a newline,
is below 0x80 or goes to a cell whose high byte is 0xFF. -/
theorem keepsColours_iff (console : Console) (str : List Byte) :
    KeepsColours console str ↔ Runs.Meets step Colourless (visible str) console := by
  rw [← printAll_keeps_iff]
  constructor
  · intro keeps
    exact keeps.colours
  · intro kept
    refine ⟨kept, ?_⟩
    intro earlier character later _ visibly
    exact printCharacter_written _ character visibly

/-- Grey on black, with the cursor in the first cell. -/
def greyScreen : Console where
  screen _ := 0x0720
  position := .corner

/-- The byte 0xE9 turns its cell to blinking white on white. -/
theorem high_byte_sets_colours :
    colours (greyScreen.screen 0) = 0x07 ∧
      colours ((print greyScreen [0xE9, 0x00]).screen 0) = 0xFF ∧
      ¬ KeepsColours greyScreen [0xE9, 0x00] := by
  have set : colours ((print greyScreen [0xE9, 0x00]).screen 0) = 0xFF := by decide
  refine ⟨by decide, set, ?_⟩
  intro keeps
  have kept := keeps.colours 0
  rw [set] at kept
  exact absurd kept (by decide)

end BlueOs.ConsoleColours
