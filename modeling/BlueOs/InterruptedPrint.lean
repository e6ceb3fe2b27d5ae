import BlueOs.Library.Runs
import BlueOs.SharedCursor

/-!
# A print that is interrupted

The kernel's tasks print with interrupts enabled and the keyboard's handler prints
while it serves one. Here the print of a task takes one statement at a time, and
between any two of them the prints of handlers run to completion on the same
statics.

Between an increment and its check the cursor may be one column or up to two rows
off the screen. A handler's print keeps to the screen there exactly when it stores
nothing before its own checks.
-/

namespace BlueOs.InterruptedPrint

open TextConsole (Byte)
open SharedCursor
open SharedCursor.Terminal

/-- The statements of `print`, from the test of the loop on. -/
inductive Point where
  | test
  -- the cases of the `switch`
  | newlineColumn
  | newlineRow
  | store
  | advance
  -- the two checks, each with its body
  | column
  | wrap
  | line
  | page
  -- the loops of the page clear; `x` and `y` count cells and rows
  | clearFirstRow
  | clearRow
  | clearFirstCell
  | clearCell
  | blank
  | clearNextCell
  | clearNextRow
  | home
  | homeRow
  | next
  | done
deriving DecidableEq

/-- A print in progress: the statics, the next statement and the characters from the
current one on. -/
structure Printing where
  terminal : Terminal
  point : Point
  rest : List Byte

namespace Printing

variable (printing : Printing)

/-- Continue at a point with other statics. -/
def goTo (point : Point) (terminal : Terminal) : Printing :=
  { printing with terminal := terminal, point := point }

/-- The loop test and the dispatch of the `switch`. -/
def select : Printing :=
  match printing.rest with
  | [] => printing.goTo .done printing.terminal
  | character :: _ =>
    if character = 0x00 then printing.goTo .done printing.terminal
    else if character = 0x0A then printing.goTo .newlineColumn printing.terminal
    else printing.goTo .store printing.terminal

/-- Execute the next statement. -/
def advance : Printing :=
  let terminal := printing.terminal
  match printing.point with
  | .test => printing.select
  | .newlineColumn => printing.goTo .newlineRow (terminal.setX 0)
  | .newlineRow => printing.goTo .column (terminal.setY (terminal.y + 1))
  | .store => printing.goTo .advance (terminal.store (printing.rest.headD 0x00))
  | .advance => printing.goTo .column (terminal.setX (terminal.x + 1))
  | .column => printing.goTo (if 80 ≤ terminal.x then .wrap else .page) terminal
  | .wrap => printing.goTo .line (terminal.setX 0)
  | .line => printing.goTo .page (terminal.setY (terminal.y + 1))
  | .page => printing.goTo (if 25 ≤ terminal.y then .clearFirstRow else .next) terminal
  | .clearFirstRow => printing.goTo .clearRow (terminal.setY 0)
  | .clearRow => printing.goTo (if terminal.y < 25 then .clearFirstCell else .home) terminal
  | .clearFirstCell => printing.goTo .clearCell (terminal.setX 0)
  | .clearCell => printing.goTo (if terminal.x < 80 then .blank else .clearNextRow) terminal
  | .blank => printing.goTo .clearNextCell (terminal.store 0x20)
  | .clearNextCell => printing.goTo .clearCell (terminal.setX (terminal.x + 1))
  | .clearNextRow => printing.goTo .clearRow (terminal.setY (terminal.y + 1))
  | .home => printing.goTo .homeRow (terminal.setX 0)
  | .homeRow => printing.goTo .next (terminal.setY 0)
  | .next => { printing with point := .test, rest := printing.rest.tail }
  | .done => printing

end Printing

open Printing

/-- The task executes a statement, or a handler's print runs to completion. -/
inductive Event where
  | statement
  | interrupt (str : List Byte)

def step (printing : Printing) : Event → Option Printing
  | .statement => some printing.advance
  | .interrupt str => some (printing.goTo printing.point (printing.terminal.print str))

section statements

/-- One printing is reached from another by statements of the task alone. -/
def Leads : Printing → Printing → Prop :=
  Relation.ReflTransGen fun before after => before.advance = after

theorem leads_advance (printing final : Printing) (after : Leads printing.advance final) :
    Leads printing final :=
  Relation.ReflTransGen.head rfl after

/-- A statement whose effect is known is followed by the rest. -/
theorem leads_next (printing following final : Printing) (taken : printing.advance = following)
    (after : Leads following final) : Leads printing final :=
  Relation.ReflTransGen.head taken after

variable (rest : List Byte)

theorem clearCells_leads (left : Nat) (terminal : Terminal)
    (column : terminal.x.toNat + left = 80) :
    Leads ⟨terminal, .clearCell, rest⟩ ⟨clearCells left terminal, .clearNextRow, rest⟩ := by
  induction left generalizing terminal with
  | zero =>
    have full : ¬terminal.x < 80 := by bv_omega
    exact leads_next _ _ _ (by simp only [advance, goTo, full, if_false, clearCells]) .refl
  | succ left inductionHypothesis =>
    have narrow : terminal.x < 80 := by bv_omega
    refine leads_next _ ⟨terminal, .blank, rest⟩ _
      (by simp only [advance, goTo, narrow, if_true]) ?_
    refine leads_advance _ _ (leads_advance _ _ ?_)
    exact inductionHypothesis ((terminal.store 0x20).setX (terminal.x + 1)) (by
      rw [setX_x]
      bv_omega)

theorem clearRows_leads (left : Nat) (terminal : Terminal)
    (row : terminal.y.toNat + left = 25) :
    Leads ⟨terminal, .clearRow, rest⟩ ⟨clearRows left terminal, .home, rest⟩ := by
  induction left generalizing terminal with
  | zero =>
    have full : ¬terminal.y < 25 := by bv_omega
    exact leads_next _ _ _ (by simp only [advance, goTo, full, if_false, clearRows]) .refl
  | succ left inductionHypothesis =>
    have short : terminal.y < 25 := by bv_omega
    refine leads_next _ ⟨terminal, .clearFirstCell, rest⟩ _
      (by simp only [advance, goTo, short, if_true]) (leads_advance _ _ ?_)
    have cleared := clearCells_leads rest 80 (terminal.setX 0) (by simp)
    refine Relation.ReflTransGen.trans cleared (leads_advance _ _ ?_)
    rw [clearRows]
    exact inductionHypothesis _ (by
      rw [setY_y, clearCells_y, setX_y]
      bv_omega)

theorem clearPage_leads (terminal : Terminal) :
    Leads ⟨terminal, .clearFirstRow, rest⟩ ⟨terminal.clearPage, .next, rest⟩ := by
  refine leads_advance _ _ ?_
  have cleared := clearRows_leads rest 25 (terminal.setY 0) (by simp)
  exact Relation.ReflTransGen.trans cleared (leads_advance _ _ (leads_advance _ _ .refl))

theorem page_leads (terminal : Terminal) :
    Leads ⟨terminal, .page, rest⟩
      ⟨if 25 ≤ terminal.y then terminal.clearPage else terminal, .next, rest⟩ := by
  by_cases low : 25 ≤ terminal.y
  · rw [if_pos low]
    exact leads_next _ ⟨terminal, .clearFirstRow, rest⟩ _
      (by simp only [advance, goTo, low, if_true]) (clearPage_leads rest terminal)
  · rw [if_neg low]
    exact leads_next _ _ _ (by simp only [advance, goTo, low, if_false]) .refl

theorem settle_leads (terminal : Terminal) :
    Leads ⟨terminal, .column, rest⟩ ⟨terminal.settle, .next, rest⟩ := by
  simp only [settle]
  by_cases wide : 80 ≤ terminal.x
  · rw [if_pos wide]
    refine leads_next _ ⟨terminal, .wrap, rest⟩ _
      (by simp only [advance, goTo, wide, if_true]) ?_
    exact leads_advance _ _ (leads_advance _ _ (page_leads rest _))
  · rw [if_neg wide]
    exact leads_next _ ⟨terminal, .page, rest⟩ _
      (by simp only [advance, goTo, wide, if_false]) (page_leads rest terminal)

theorem character_leads (terminal : Terminal) (character : Byte) (visible : character ≠ 0x00) :
    Leads ⟨terminal, .test, character :: rest⟩
      ⟨terminal.printCharacter character, .test, rest⟩ := by
  have following (other : Terminal) :
      Leads ⟨other, .next, character :: rest⟩ ⟨other, .test, rest⟩ :=
    leads_advance _ _ .refl
  simp only [printCharacter]
  by_cases newline : character = 0x0A
  · rw [if_pos newline]
    refine leads_next _ ⟨terminal, .newlineColumn, character :: rest⟩ _
      (by simp only [advance, select, goTo, if_neg visible, if_pos newline]) ?_
    refine leads_advance _ _ (leads_advance _ _ ?_)
    exact Relation.ReflTransGen.trans (settle_leads (character :: rest) _) (following _)
  · rw [if_neg newline]
    refine leads_next _ ⟨terminal, .store, character :: rest⟩ _
      (by simp only [advance, select, goTo, visible, newline, if_false]) ?_
    refine leads_advance _ _ (leads_advance _ _ ?_)
    exact Relation.ReflTransGen.trans (settle_leads (character :: rest) _) (following _)

/-- The statements compute `print`. -/
theorem print_leads (terminal : Terminal) (str : List Byte) :
    ∃ rest, Leads ⟨terminal, .test, str⟩ ⟨terminal.print str, .done, rest⟩ := by
  induction str generalizing terminal with
  | nil => exact ⟨[], leads_advance _ _ .refl⟩
  | cons character str inductionHypothesis =>
    by_cases last : character = 0x00
    · subst last
      exact ⟨0x00 :: str, leads_advance _ _ .refl⟩
    · obtain ⟨rest, following⟩ := inductionHypothesis (terminal.printCharacter character)
      refine ⟨rest, Relation.ReflTransGen.trans (character_leads str terminal character last) ?_⟩
      rw [print_cons terminal character str last]
      exact following

/-- Left alone, the task reaches the end of its print. -/
def Completes (printing : Printing) : Prop :=
  ∃ final, Leads printing final ∧ final.point = .done

theorem completes_of_leads (before after : Printing) (following : Leads before after)
    (completed : Completes after) : Completes before := by
  obtain ⟨final, later, finished⟩ := completed
  exact ⟨final, Relation.ReflTransGen.trans following later, finished⟩

theorem completes_advance (printing : Printing) (completed : Completes printing.advance) :
    Completes printing :=
  completes_of_leads printing _ (leads_advance _ _ .refl) completed

theorem next_completes (terminal : Terminal) : Completes ⟨terminal, .next, rest⟩ := by
  obtain ⟨unread, completed⟩ := print_leads terminal rest.tail
  exact ⟨_, leads_advance _ _ completed, rfl⟩

theorem column_completes (terminal : Terminal) : Completes ⟨terminal, .column, rest⟩ :=
  completes_of_leads _ _ (settle_leads rest terminal) (next_completes rest _)

theorem page_completes (terminal : Terminal) : Completes ⟨terminal, .page, rest⟩ :=
  completes_of_leads _ _ (page_leads rest terminal) (next_completes rest _)

theorem home_completes (terminal : Terminal) : Completes ⟨terminal, .home, rest⟩ :=
  completes_advance _ (completes_advance _ (next_completes rest _))

theorem clearRow_completes (terminal : Terminal) (row : terminal.y.toNat ≤ 25) :
    Completes ⟨terminal, .clearRow, rest⟩ :=
  completes_of_leads _ _ (clearRows_leads rest (25 - terminal.y.toNat) terminal (by omega))
    (home_completes rest _)

theorem clearNextRow_completes (terminal : Terminal) (row : terminal.y.toNat ≤ 24) :
    Completes ⟨terminal, .clearNextRow, rest⟩ :=
  completes_advance _ (clearRow_completes rest (terminal.setY (terminal.y + 1)) (by
    rw [setY_y]
    bv_omega))

theorem clearCell_completes (terminal : Terminal) (column : terminal.x.toNat ≤ 80)
    (row : terminal.y.toNat ≤ 24) : Completes ⟨terminal, .clearCell, rest⟩ :=
  completes_of_leads _ _ (clearCells_leads rest (80 - terminal.x.toNat) terminal (by omega))
    (clearNextRow_completes rest _ (by rwa [clearCells_y]))

theorem clearNextCell_completes (terminal : Terminal) (column : terminal.x.toNat ≤ 79)
    (row : terminal.y.toNat ≤ 24) : Completes ⟨terminal, .clearNextCell, rest⟩ :=
  completes_advance _ (clearCell_completes rest (terminal.setX (terminal.x + 1)) (by
    rw [setX_x]
    bv_omega) row)

end statements

/-- The largest column and row of the cursor before a statement. -/
def Point.farthest : Point → Nat × Nat
  | .test | .newlineColumn | .newlineRow | .store | .advance | .blank | .clearNextCell
  | .next | .done => (79, 24)
  | .clearFirstCell | .clearCell | .clearNextRow => (80, 24)
  | .line | .homeRow => (79, 25)
  | .column | .wrap | .clearRow | .home => (80, 25)
  | .page | .clearFirstRow => (79, 26)

/-- The cursor is within the bounds of the next statement, and the stores are on the
screen. -/
structure Tracked (printing : Printing) : Prop where
  column : printing.terminal.x.toNat ≤ printing.point.farthest.1
  row : printing.terminal.y.toNat ≤ printing.point.farthest.2
  contained : printing.terminal.Contained

/-- A cursor on the screen is within the bounds of every statement. -/
theorem tracked_onScreen (printing : Printing) (inside : printing.terminal.OnScreen)
    (contained : printing.terminal.Contained) : Tracked printing := by
  obtain ⟨column, row⟩ := inside
  have bounds : 79 ≤ printing.point.farthest.1 ∧ 24 ≤ printing.point.farthest.2 := by
    cases printing.point <;> simp [Point.farthest]
  exact ⟨by omega, by omega, contained⟩

/-- A statement of the task keeps its bounds. -/
theorem advance_tracked (printing : Printing) (tracked : Tracked printing) :
    Tracked printing.advance := by
  obtain ⟨terminal, point, rest⟩ := printing
  obtain ⟨column, row, contained⟩ := tracked
  -- the two stores are at points whose bounds are the screen's
  have stored (inside : terminal.OnScreen) (character : Byte) :
      (terminal.store character).Contained :=
    (store_contained terminal character).mpr ⟨index_onScreen terminal inside, contained⟩
  cases point <;> simp only [Point.farthest] at column row <;> simp only [advance, goTo]
  case test =>
    simp only [select, goTo]
    split
    · exact ⟨column, row, contained⟩
    · split
      · exact ⟨column, row, contained⟩
      · split <;> exact ⟨column, row, contained⟩
  case store => exact ⟨column, row, stored ⟨by omega, by omega⟩ _⟩
  case blank => exact ⟨column, row, stored ⟨by omega, by omega⟩ _⟩
  case newlineColumn | wrap | clearFirstCell | home =>
    exact ⟨by simp [Point.farthest], row, contained⟩
  case clearFirstRow | homeRow =>
    exact ⟨by simp only [setY_x, Point.farthest]; omega, by simp [Point.farthest], contained⟩
  case advance | clearNextCell =>
    exact ⟨by simp only [setX_x, Point.farthest]; bv_omega,
      by simp only [setX_y, Point.farthest]; omega, contained⟩
  case newlineRow | line | clearNextRow =>
    exact ⟨by simp only [setY_x, Point.farthest]; omega,
      by simp only [setY_y, Point.farthest]; bv_omega, contained⟩
  case column | page | clearRow | clearCell =>
    split <;> exact ⟨by simp only [Point.farthest]; bv_omega,
      by simp only [Point.farthest]; bv_omega, contained⟩
  case next => exact ⟨column, row, contained⟩
  case done => exact ⟨column, row, contained⟩

/-- A print that is left alone completes, wherever its handlers left it. -/
theorem tracked_completes (printing : Printing) (tracked : Tracked printing) :
    Completes printing := by
  obtain ⟨terminal, point, rest⟩ := printing
  obtain ⟨column, row, -⟩ := tracked
  cases point <;> simp only [Point.farthest] at column row
  case test =>
    obtain ⟨unread, completed⟩ := print_leads terminal rest
    exact ⟨_, completed, rfl⟩
  case newlineColumn | store =>
    exact completes_advance _ (completes_advance _ (column_completes rest _))
  case newlineRow | advance =>
    exact completes_advance _ (column_completes rest _)
  case column => exact column_completes rest terminal
  case wrap =>
    exact completes_advance _ (completes_advance _ (page_completes rest _))
  case line => exact completes_advance _ (page_completes rest _)
  case page => exact page_completes rest terminal
  case clearFirstRow =>
    exact completes_of_leads _ _ (clearPage_leads rest terminal) (next_completes rest _)
  case clearRow => exact clearRow_completes rest terminal row
  case clearFirstCell =>
    exact completes_advance _ (clearCell_completes rest (terminal.setX 0) (by simp) row)
  case clearCell => exact clearCell_completes rest terminal column row
  case blank =>
    exact completes_advance _ (clearNextCell_completes rest (terminal.store 0x20) column row)
  case clearNextCell => exact clearNextCell_completes rest terminal column row
  case clearNextRow => exact clearNextRow_completes rest terminal row
  case home => exact home_completes rest terminal
  case homeRow => exact completes_advance _ (next_completes rest _)
  case next => exact next_completes rest terminal
  case done => exact ⟨_, .refl, rfl⟩

theorem tracked_done (printing : Printing) (tracked : Tracked printing)
    (finished : printing.point = .done) : printing.terminal.OnScreen := by
  have column := tracked.column
  have row := tracked.row
  rw [finished] at column row
  simp only [Point.farthest] at column row
  exact ⟨by omega, by omega⟩

theorem leads_tracked (before after : Printing) (following : Leads before after)
    (tracked : Tracked before) : Tracked after := by
  induction following with
  | refl => exact tracked
  | tail _ taken inductionHypothesis =>
    subst taken
    exact advance_tracked _ inductionHypothesis

/-- Nothing was stored off the screen, and from here the print completes, with the
cursor on the screen. -/
structure Safe (printing : Printing) : Prop where
  contained : printing.terminal.Contained
  completes : ∃ final, Leads printing final ∧ final.point = .done ∧ final.terminal.OnScreen

theorem tracked_safe (printing : Printing) (tracked : Tracked printing) : Safe printing := by
  obtain ⟨final, following, finished⟩ := tracked_completes printing tracked
  have arrived : Tracked final := leads_tracked printing final following tracked
  exact ⟨tracked.contained, final, following, finished, tracked_done final arrived finished⟩

/-- The condition on a step: a print of a handler keeps to the screen where it starts. -/
def Allowed (printing : Printing) : Event → Prop
  | .statement => True
  | .interrupt str => Harmless str printing.terminal

theorem interrupt_tracked (printing : Printing) (str : List Byte) (tracked : Tracked printing)
    (harmless : Harmless str printing.terminal) :
    Tracked (printing.goTo printing.point (printing.terminal.print str)) := by
  have contained : (printing.terminal.print str).Contained :=
    (print_contained_iff printing.terminal str tracked.contained).mpr harmless
  obtain silent | inside := print_onScreen printing.terminal str
  · rw [silent]
    exact tracked
  · exact tracked_onScreen _ inside contained

/-- A print starts at its loop test, on the screen and without a store. -/
def start (videoMemory : Nat → TextConsole.Cell) (position : TextConsole.Position)
    (str : List Byte) : Printing where
  terminal := ⟨videoMemory, BitVec.ofNat 8 position.x, BitVec.ofNat 8 position.y, []⟩
  point := .test
  rest := str

theorem start_tracked (videoMemory : Nat → TextConsole.Cell) (position : TextConsole.Position)
    (str : List Byte) : Tracked (start videoMemory position str) := by
  have column := position.x.isLt
  have row := position.y.isLt
  refine tracked_onScreen _ ⟨?_, ?_⟩ (by simp [start, Contained])
  · simp only [start, BitVec.toNat_ofNat]
    omega
  · simp only [start, BitVec.toNat_ofNat]
    omega

/-- A print that handlers interrupt, any number of times and between any two of its
statements, is safe in every state exactly when each handler's print starts where
the cursor has a cell on the screen, or prints nothing, or a newline first. -/
theorem interrupted_safe_iff (videoMemory : Nat → TextConsole.Cell)
    (position : TextConsole.Position) (str : List Byte) (events : List Event) :
    Runs.Throughout step Safe events (start videoMemory position str) ↔
      Runs.Meets step Allowed events (start videoMemory position str) := by
  refine Runs.throughout_iff_meets step Allowed Safe Tracked ?_ ?_ events _
    (start_tracked videoMemory position str)
    (tracked_safe _ (start_tracked videoMemory position str))
  · intro current event _ refused
    cases event <;> simp [step] at refused
  · intro current event next tracked taken
    cases event with
    | statement =>
      simp only [step, Option.some.injEq] at taken
      subst taken
      have kept : Tracked current.advance := advance_tracked current tracked
      exact ⟨⟨fun _ => trivial, fun _ => tracked_safe _ kept⟩, fun _ => kept⟩
    | interrupt str =>
      simp only [step, Option.some.injEq] at taken
      subst taken
      have kept := interrupt_tracked current str tracked
      refine ⟨⟨fun safe => ?_, fun harmless => tracked_safe _ (kept harmless)⟩, kept⟩
      exact (print_contained_iff current.terminal str tracked.contained).mp safe.contained

/-- Three statements after the last cell of the screen was reached, the character is
stored and the column counted, but neither is checked. A handler's print stores
behind the screen. -/
theorem interrupted_at_last_cell :
    ¬Runs.Throughout step Safe [.statement, .statement, .statement, .interrupt [0x62]]
      (start (fun _ => 0x0720) ⟨79, 24⟩ [0x61]) := by
  intro safe
  have counted := ((safe.2 _ rfl).2 _ rfl).2 _ rfl
  have after := (counted.2 _ rfl).contained
  have harmless := (print_contained_iff _ [0x62] counted.1.contained).mp after
  obtain newline | inside := harmless
  · exact absurd newline (by decide)
  · exact absurd inside (by decide)

end BlueOs.InterruptedPrint
