import BlueOs.TextConsole

/-!
# The statics of `print`

`print` keeps its cursor in two static bytes and takes them for the counters of the
loops that clear the page. Between its statements the cursor may be off the screen;
a print that starts then stores where the cursor is. So the video memory here does
not end with the screen, and every store is recorded, the newest first.

One character moves any cursor that is not far off the screen back onto it. Its own
store is on the screen when the cursor is, and clearing the page stores only there.
-/

namespace BlueOs.SharedCursor

open TextConsole (Byte Cell write)

/-- The video memory from its first cell on and the statics of `print`. -/
structure Terminal where
  videoMemory : Nat → Cell
  x : Byte
  y : Byte
  stores : List Nat

namespace Terminal

variable (terminal : Terminal)

/-- `80*y+x` -/
def index : Nat := 80 * terminal.y.toNat + terminal.x.toNat

def setX (x : Byte) : Terminal := { terminal with x := x }

def setY (y : Byte) : Terminal := { terminal with y := y }

@[simp] theorem setX_x (x : Byte) : (terminal.setX x).x = x := rfl

@[simp] theorem setX_y (x : Byte) : (terminal.setX x).y = terminal.y := rfl

@[simp] theorem setY_x (y : Byte) : (terminal.setY y).x = terminal.x := rfl

@[simp] theorem setY_y (y : Byte) : (terminal.setY y).y = y := rfl

@[simp] theorem setX_videoMemory (x : Byte) :
    (terminal.setX x).videoMemory = terminal.videoMemory := rfl

@[simp] theorem setY_videoMemory (y : Byte) :
    (terminal.setY y).videoMemory = terminal.videoMemory := rfl

/-- Replace the character of the cell at the cursor. -/
def store (character : Byte) : Terminal :=
  { terminal with
    videoMemory := Function.update terminal.videoMemory terminal.index
      (write (terminal.videoMemory terminal.index) character)
    stores := terminal.index :: terminal.stores }

@[simp] theorem store_y (character : Byte) : (terminal.store character).y = terminal.y := rfl

/-- The inner loop of the page clear, with the number of cells left. -/
def clearCells : Nat → Terminal → Terminal
  | 0, terminal => terminal
  | left + 1, terminal => clearCells left ((terminal.store 0x20).setX (terminal.x + 1))

/-- The outer loop, with the number of rows left. -/
def clearRows : Nat → Terminal → Terminal
  | 0, terminal => terminal
  | left + 1, terminal =>
    let cleared := clearCells 80 (terminal.setX 0)
    clearRows left (cleared.setY (cleared.y + 1))

/-- Blank the page and move the cursor to its first cell. -/
def clearPage : Terminal := ((clearRows 25 (terminal.setY 0)).setX 0).setY 0

/-- The end of the loop body: wrap a full line, then clear a full page. -/
def settle : Terminal :=
  let terminal := if 80 ≤ terminal.x then (terminal.setX 0).setY (terminal.y + 1) else terminal
  if 25 ≤ terminal.y then terminal.clearPage else terminal

def printCharacter (character : Byte) : Terminal :=
  if character = 0x0A then ((terminal.setX 0).setY (terminal.y + 1)).settle
  else ((terminal.store character).setX (terminal.x + 1)).settle

/-- `print`, run to completion. -/
def print (str : List Byte) : Terminal :=
  (str.takeWhile fun character => character ≠ 0x00).foldl printCharacter terminal

theorem print_cons (character : Byte) (str : List Byte) (visible : character ≠ 0x00) :
    terminal.print (character :: str) = (terminal.printCharacter character).print str := by
  rw [print, List.takeWhile_cons_of_pos (by simpa using visible)]
  rfl

/-- The cursor is on the screen. -/
def OnScreen : Prop := terminal.x.toNat < 80 ∧ terminal.y.toNat < 25

/-- Every store so far was to a cell of the screen. -/
def Contained : Prop := ∀ cell ∈ terminal.stores, cell < 2000

end Terminal

open Terminal

theorem index_onScreen (terminal : Terminal) (inside : terminal.OnScreen) :
    terminal.index < 2000 := by
  obtain ⟨column, row⟩ := inside
  simp only [index]
  omega

theorem store_contained (terminal : Terminal) (character : Byte) :
    (terminal.store character).Contained ↔ terminal.index < 2000 ∧ terminal.Contained := by
  simp [Contained, store]

@[simp] theorem setX_contained (terminal : Terminal) (x : Byte) :
    (terminal.setX x).Contained ↔ terminal.Contained := Iff.rfl

@[simp] theorem setY_contained (terminal : Terminal) (y : Byte) :
    (terminal.setY y).Contained ↔ terminal.Contained := Iff.rfl

@[simp] theorem clearCells_y (left : Nat) (terminal : Terminal) :
    (clearCells left terminal).y = terminal.y := by
  induction left generalizing terminal with
  | zero => rfl
  | succ left inductionHypothesis => rw [clearCells, inductionHypothesis, setX_y, store_y]

/-- Clearing the rest of a row stores in that row only. -/
theorem clearCells_contained (left : Nat) (terminal : Terminal)
    (column : terminal.x.toNat + left = 80) (row : terminal.y.toNat < 25)
    (contained : terminal.Contained) : (clearCells left terminal).Contained := by
  induction left generalizing terminal with
  | zero => exact contained
  | succ left inductionHypothesis =>
    have inside : terminal.OnScreen := ⟨by omega, row⟩
    have next : (terminal.x + 1).toNat + left = 80 := by bv_omega
    exact inductionHypothesis _ next row
      ((store_contained terminal 0x20).mpr ⟨index_onScreen terminal inside, contained⟩)

theorem clearRows_contained (left : Nat) (terminal : Terminal)
    (row : terminal.y.toNat + left = 25) (contained : terminal.Contained) :
    (clearRows left terminal).Contained := by
  induction left generalizing terminal with
  | zero => exact contained
  | succ left inductionHypothesis =>
    have cleared : (clearCells 80 (terminal.setX 0)).Contained :=
      clearCells_contained 80 (terminal.setX 0) (by simp) (by rw [setX_y]; omega) contained
    rw [clearRows]
    refine inductionHypothesis _ ?_ ((setY_contained _ _).mpr cleared)
    rw [setY_y, clearCells_y, setX_y]
    bv_omega

theorem clearPage_contained (terminal : Terminal) (contained : terminal.Contained) :
    terminal.clearPage.Contained := by
  have top : (terminal.setY 0).y.toNat + 25 = 25 := by simp [setY]
  simp only [clearPage, setY_contained, setX_contained]
  exact clearRows_contained 25 (terminal.setY 0) top contained

@[simp] theorem clearPage_x (terminal : Terminal) : terminal.clearPage.x = 0 := by
  rw [clearPage, setY_x, setX_x]

@[simp] theorem clearPage_y (terminal : Terminal) : terminal.clearPage.y = 0 := by
  rw [clearPage, setY_y]

theorem clearPage_onScreen (terminal : Terminal) : terminal.clearPage.OnScreen := by
  simp [OnScreen]

/-- Settling brings any cursor onto the screen. -/
theorem settle_onScreen (terminal : Terminal) : terminal.settle.OnScreen := by
  simp only [settle]
  split
  case isTrue =>
    split
    · exact clearPage_onScreen _
    case isFalse _ row =>
      simp only [OnScreen, setX, setY] at row ⊢
      bv_omega
  case isFalse column =>
    split
    · exact clearPage_onScreen terminal
    case isFalse row =>
      simp only [OnScreen]
      bv_omega

theorem settle_contained (terminal : Terminal) (contained : terminal.Contained) :
    terminal.settle.Contained := by
  simp only [settle]
  split <;> split
  · exact clearPage_contained _ contained
  · exact contained
  · exact clearPage_contained _ contained
  · exact contained

theorem printCharacter_onScreen (terminal : Terminal) (character : Byte) :
    (terminal.printCharacter character).OnScreen := by
  simp only [printCharacter]
  split
  · exact settle_onScreen _
  · exact settle_onScreen _

/-- A newline stores nothing before the cursor is settled. -/
theorem printCharacter_contained (terminal : Terminal) (character : Byte)
    (allowed : character = 0x0A ∨ terminal.index < 2000) (contained : terminal.Contained) :
    (terminal.printCharacter character).Contained := by
  simp only [printCharacter]
  split
  case isTrue => exact settle_contained _ contained
  case isFalse visible =>
    have inside : terminal.index < 2000 := allowed.resolve_left visible
    exact settle_contained _ ((store_contained terminal character).mpr ⟨inside, contained⟩)

/-- Once the cursor is on the screen, printing stays on it. -/
theorem printAll_safe (characters : List Byte) (terminal : Terminal)
    (inside : terminal.OnScreen) (contained : terminal.Contained) :
    (characters.foldl printCharacter terminal).OnScreen ∧
      (characters.foldl printCharacter terminal).Contained := by
  induction characters generalizing terminal with
  | nil => exact ⟨inside, contained⟩
  | cons character rest inductionHypothesis =>
    have allowed : terminal.index < 2000 := index_onScreen terminal inside
    exact inductionHypothesis _ (printCharacter_onScreen terminal character)
      (printCharacter_contained terminal character (.inr allowed) contained)

/-! No store is ever forgotten. -/

theorem contained_of_clearCells (left : Nat) (terminal : Terminal)
    (contained : (clearCells left terminal).Contained) : terminal.Contained := by
  induction left generalizing terminal with
  | zero => exact contained
  | succ left inductionHypothesis =>
    rw [clearCells] at contained
    have stored : (terminal.store 0x20).Contained :=
      (setX_contained _ _).mp (inductionHypothesis _ contained)
    exact ((store_contained terminal 0x20).mp stored).2

theorem contained_of_clearRows (left : Nat) (terminal : Terminal)
    (contained : (clearRows left terminal).Contained) : terminal.Contained := by
  induction left generalizing terminal with
  | zero => exact contained
  | succ left inductionHypothesis =>
    rw [clearRows] at contained
    have cleared : (clearCells 80 (terminal.setX 0)).Contained :=
      (setY_contained _ _).mp (inductionHypothesis _ contained)
    exact (setX_contained _ _).mp (contained_of_clearCells 80 _ cleared)

theorem contained_of_settle (terminal : Terminal) (contained : terminal.settle.Contained) :
    terminal.Contained := by
  have cleared (other : Terminal) (after : other.clearPage.Contained) : other.Contained := by
    simp only [clearPage, setY_contained, setX_contained] at after
    exact (setY_contained _ _).mp (contained_of_clearRows 25 _ after)
  simp only [settle] at contained
  split at contained <;> split at contained
  · exact cleared _ contained
  · exact contained
  · exact cleared _ contained
  · exact contained

/-- A character that is not a newline is stored at the cursor first. -/
theorem stored_of_printCharacter (terminal : Terminal) (character : Byte)
    (contained : (terminal.printCharacter character).Contained) :
    (character = 0x0A ∨ terminal.index < 2000) ∧ terminal.Contained := by
  simp only [printCharacter] at contained
  split at contained
  case isTrue newline =>
    have before : ((terminal.setX 0).setY (terminal.y + 1)).Contained :=
      contained_of_settle _ contained
    exact ⟨.inl newline, before⟩
  case isFalse =>
    have stored : ((terminal.store character).setX (terminal.x + 1)).Contained :=
      contained_of_settle _ contained
    obtain ⟨inside, before⟩ := (store_contained terminal character).mp stored
    exact ⟨.inr inside, before⟩

theorem contained_of_printAll (characters : List Byte) (terminal : Terminal)
    (contained : (characters.foldl printCharacter terminal).Contained) : terminal.Contained := by
  induction characters generalizing terminal with
  | nil => exact contained
  | cons character rest inductionHypothesis =>
    exact (stored_of_printCharacter terminal character (inductionHypothesis _ contained)).2

/-- Nothing is printed, or a newline first, or the cursor has a cell on the screen. -/
def Harmless (str : List Byte) (terminal : Terminal) : Prop :=
  (str.takeWhile fun character => character ≠ 0x00).head?.all (· = 0x0A) ∨ terminal.index < 2000

/-- From any cursor, `print` keeps to the screen exactly when it is harmless. -/
theorem print_contained_iff (terminal : Terminal) (str : List Byte)
    (contained : terminal.Contained) :
    (terminal.print str).Contained ↔ Harmless str terminal := by
  simp only [print, Harmless]
  cases str.takeWhile fun character => character ≠ 0x00 with
  | nil => simp [contained]
  | cons character rest =>
    simp only [List.foldl_cons, List.head?_cons, Option.all_some, decide_eq_true_eq]
    constructor
    · intro after
      exact (stored_of_printCharacter terminal character (contained_of_printAll rest _ after)).1
    · intro allowed
      exact (printAll_safe rest _ (printCharacter_onScreen terminal character)
        (printCharacter_contained terminal character allowed contained)).2

/-- `print` leaves the cursor on the screen, unless it prints nothing. -/
theorem print_onScreen (terminal : Terminal) (str : List Byte) :
    terminal.print str = terminal ∨ (terminal.print str).OnScreen := by
  simp only [print]
  cases str.takeWhile fun character => character ≠ 0x00 with
  | nil => exact .inl rfl
  | cons character rest =>
    right
    induction rest generalizing terminal character with
    | nil => exact printCharacter_onScreen terminal character
    | cons next rest inductionHypothesis =>
      exact inductionHypothesis (terminal.printCharacter character) next

/-! While nothing interrupts it, `print` is the one of the text console. -/

/-- Clearing the rest of a row blanks its cells and leaves the others. -/
theorem clearCells_cell (left : Nat) (terminal : Terminal)
    (column : terminal.x.toNat + left = 80) (cell : Nat) :
    (clearCells left terminal).videoMemory cell =
      if 80 * terminal.y.toNat + terminal.x.toNat ≤ cell ∧ cell < 80 * terminal.y.toNat + 80
      then write (terminal.videoMemory cell) 0x20 else terminal.videoMemory cell := by
  induction left generalizing terminal with
  | zero =>
    rw [if_neg (by omega)]
    rfl
  | succ left inductionHypothesis =>
    have next : (terminal.x + 1).toNat = terminal.x.toNat + 1 := by bv_omega
    rw [clearCells, inductionHypothesis _ (by rw [setX_x, next]; omega)]
    simp only [setX_x, setX_y, store_y, next]
    by_cases here : cell = terminal.index
    · subst here
      rw [if_neg (by simp only [index]; omega), if_pos (by simp only [index]; omega)]
      exact Function.update_self ..
    · have kept : ((terminal.store 0x20).setX (terminal.x + 1)).videoMemory cell =
          terminal.videoMemory cell := Function.update_of_ne here ..
      simp only [index] at here
      rw [kept]
      exact if_congr (by omega) rfl rfl

/-- Clearing the rest of the page blanks its rows. -/
theorem clearRows_cell (left : Nat) (terminal : Terminal)
    (row : terminal.y.toNat + left = 25) (cell : Nat) :
    (clearRows left terminal).videoMemory cell =
      if 80 * terminal.y.toNat ≤ cell ∧ cell < 2000
      then write (terminal.videoMemory cell) 0x20 else terminal.videoMemory cell := by
  induction left generalizing terminal with
  | zero =>
    rw [if_neg (by omega)]
    rfl
  | succ left inductionHypothesis =>
    have next : (terminal.y + 1).toNat = terminal.y.toNat + 1 := by bv_omega
    have cleared : (clearCells 80 (terminal.setX 0)).videoMemory cell =
        if 80 * terminal.y.toNat ≤ cell ∧ cell < 80 * terminal.y.toNat + 80
        then write (terminal.videoMemory cell) 0x20 else terminal.videoMemory cell := by
      simpa using clearCells_cell 80 (terminal.setX 0) (by simp) cell
    rw [clearRows, inductionHypothesis _ (by rw [setY_y, clearCells_y, setX_y, next]; omega)]
    rw [setY_y, clearCells_y, setX_y, next, setY_videoMemory, cleared]
    by_cases below : cell < 80 * terminal.y.toNat + 80
    · rw [if_neg (by omega)]
      exact if_congr (by omega) rfl rfl
    · have other : ¬(80 * terminal.y.toNat ≤ cell ∧ cell < 80 * terminal.y.toNat + 80) := by omega
      rw [if_neg other]
      exact if_congr (by omega) rfl rfl

/-- Clearing the page blanks the screen. -/
theorem clearPage_cell (terminal : Terminal) (cell : Fin 2000) :
    terminal.clearPage.videoMemory cell = write (terminal.videoMemory cell) 0x20 := by
  have cleared := clearRows_cell 25 (terminal.setY 0) (by simp) cell
  rw [if_pos (by simp)] at cleared
  exact cleared

/-- Blanking cells of the console one after the other blanks each of them. -/
theorem blanked_cell (positions : List TextConsole.Position) (screen : TextConsole.Screen)
    (distinct : positions.Nodup) (cell : Fin 2000) :
    positions.foldl (fun screen position => TextConsole.put screen position 0x20) screen cell =
      if cell ∈ positions.map TextConsole.Position.cell then write (screen cell) 0x20
      else screen cell := by
  induction positions generalizing screen with
  | nil => rfl
  | cons position rest inductionHypothesis =>
    obtain ⟨fresh, distinct⟩ := List.nodup_cons.mp distinct
    rw [List.foldl_cons, inductionHypothesis _ distinct]
    by_cases here : cell = position.cell
    · subst here
      have later : position.cell ∉ rest.map TextConsole.Position.cell := by
        simpa [TextConsole.Position.cell_injective.eq_iff] using fresh
      rw [if_neg later, if_pos (by simp)]
      exact Function.update_self ..
    · have kept : TextConsole.put screen position 0x20 cell = screen cell :=
        Function.update_of_ne here ..
      rw [kept]
      exact if_congr (by simp [here]) rfl rfl

/-- The positions of the screen, row by row. -/
def page : List TextConsole.Position :=
  (List.finRange 25).flatMap fun y => (List.finRange 80).map fun x => ⟨x, y⟩

theorem page_nodup : page.Nodup := by
  refine List.nodup_flatMap.mpr ⟨fun y _ => ?_, ?_⟩
  · exact (List.nodup_finRange 80).map fun one other same => congrArg TextConsole.Position.x same
  · refine (List.nodup_finRange 25).imp fun {upper lower} differ => ?_
    intro position first second
    simp only [List.mem_map] at first second
    obtain ⟨_, _, rfl⟩ := first
    obtain ⟨_, _, same⟩ := second
    exact differ (congrArg TextConsole.Position.y same).symm

theorem mem_page (position : TextConsole.Position) : position ∈ page := by
  simp [page]

/-- Every cell of the screen is the cell of a position. -/
theorem cell_surjective : Function.Surjective TextConsole.Position.cell := by
  intro cell
  have inside := cell.isLt
  refine ⟨⟨⟨cell % 80, by omega⟩, ⟨cell / 80, by omega⟩⟩, Fin.ext ?_⟩
  simp only [TextConsole.Position.cell]
  omega

theorem console_clearPage_cell (screen : TextConsole.Screen) (cell : Fin 2000) :
    TextConsole.clearPage screen cell = write (screen cell) 0x20 := by
  have folded : TextConsole.clearPage screen =
      page.foldl (fun screen position => TextConsole.put screen position 0x20) screen := by
    simp only [TextConsole.clearPage, page, List.foldl_flatMap, List.foldl_map]
  obtain ⟨position, rfl⟩ := cell_surjective cell
  rw [folded, blanked_cell page screen page_nodup,
    if_pos (List.mem_map_of_mem (mem_page position))]

/-- The terminal shows what the text console holds. -/
structure Shows (terminal : Terminal) (console : TextConsole.Console) : Prop where
  cells : ∀ cell : Fin 2000, terminal.videoMemory cell = console.screen cell
  column : terminal.x.toNat = console.position.x
  row : terminal.y.toNat = console.position.y

/-- Settling agrees with the console's, from a cursor that has just left its cell. -/
theorem settle_shows (terminal : Terminal) (screen : TextConsole.Screen) (x y : Nat)
    (cells : ∀ cell : Fin 2000, terminal.videoMemory cell = screen cell)
    (column : terminal.x.toNat = x) (row : terminal.y.toNat = y) (near : y ≤ 25) :
    Shows terminal.settle (TextConsole.settle screen x y) := by
  subst column row
  have blanked (other : Terminal) (same : other.videoMemory = terminal.videoMemory) :
      Shows other.clearPage ⟨TextConsole.clearPage screen, .corner⟩ := by
    refine ⟨fun cell => ?_, by rw [clearPage_x]; rfl, by rw [clearPage_y]; rfl⟩
    show _ = TextConsole.clearPage screen cell
    rw [clearPage_cell, console_clearPage_cell, same, cells]
  have next : (terminal.y + 1).toNat = terminal.y.toNat + 1 := by bv_omega
  simp only [settle, TextConsole.settle]
  split
  case isTrue wide =>
    have wide : ¬terminal.x.toNat < 80 := by bv_omega
    rw [dif_neg wide]
    split
    case isTrue low =>
      simp only [setY_y] at low
      rw [dif_neg (by bv_omega)]
      exact blanked _ rfl
    case isFalse high =>
      simp only [setY_y] at high
      rw [dif_pos (by bv_omega)]
      exact ⟨cells, rfl, next⟩
  case isFalse narrow =>
    have narrow : terminal.x.toNat < 80 := by bv_omega
    rw [dif_pos narrow]
    split
    case isTrue low =>
      rw [dif_neg (by bv_omega)]
      exact blanked _ rfl
    case isFalse high =>
      rw [dif_pos (by bv_omega)]
      exact ⟨cells, rfl, rfl⟩

theorem printCharacter_shows (terminal : Terminal) (console : TextConsole.Console)
    (character : Byte) (shown : Shows terminal console) :
    Shows (terminal.printCharacter character) (TextConsole.printCharacter console character) := by
  have across := console.position.x.isLt
  have down := console.position.y.isLt
  have cell : terminal.index = console.position.cell := by
    simp only [index, TextConsole.Position.cell, shown.column, shown.row]
  have column : (terminal.x + 1).toNat = console.position.x.val + 1 := by
    have := shown.column
    bv_omega
  have row : (terminal.y + 1).toNat = console.position.y.val + 1 := by
    have := shown.row
    bv_omega
  simp only [printCharacter, TextConsole.printCharacter]
  split
  · exact settle_shows _ console.screen 0 _ shown.cells rfl row (by omega)
  · refine settle_shows _ _ _ _ (fun other => ?_) column shown.row (by omega)
    by_cases here : other = console.position.cell
    · subst here
      have stored : (terminal.store character).videoMemory terminal.index =
          write (terminal.videoMemory terminal.index) character := Function.update_self ..
      have put : TextConsole.put console.screen console.position character console.position.cell =
          write (console.screen console.position.cell) character := Function.update_self ..
      rw [setX_videoMemory, ← cell, stored, cell, shown.cells, put]
    · have elsewhere : other.val ≠ terminal.index := fun same => here (Fin.ext (same.trans cell))
      have kept : (terminal.store character).videoMemory other = terminal.videoMemory other :=
        Function.update_of_ne elsewhere ..
      have unput : TextConsole.put console.screen console.position character other =
          console.screen other := Function.update_of_ne here ..
      rw [setX_videoMemory, kept, shown.cells, unput]

/-- Uninterrupted, `print` is the one of the text console. -/
theorem print_shows (terminal : Terminal) (console : TextConsole.Console) (str : List Byte)
    (shown : Shows terminal console) :
    Shows (terminal.print str) (TextConsole.print console str) := by
  simp only [print, TextConsole.print]
  generalize str.takeWhile (fun character => character ≠ 0x00) = characters
  induction characters generalizing terminal console with
  | nil => exact shown
  | cons character rest inductionHypothesis =>
    exact inductionHypothesis _ _ (printCharacter_shows terminal console character shown)

end BlueOs.SharedCursor
