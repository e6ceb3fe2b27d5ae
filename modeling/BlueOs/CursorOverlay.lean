import BlueOs.Library.Runs
import BlueOs.Mouse
import Mathlib.Tactic.IntervalCases

/-!
# The mouse pointer over the text

The pointer should be an overlay: the screen shows what the print calls wrote, and
the cell under the pointer shows its character with the two attribute nibbles
swapped. Printing keeps every overlay of this kind, so only the interrupt that
completes a packet decides: what it puts back has to be the text of now, and what it
draws has to keep the character.
-/

namespace BlueOs.Mouse

open TextConsole Runs

/-- The attribute byte with foreground and background exchanged. -/
def attributes (value : Cell) : Cell :=
  ((value &&& 0xF000) >>> 4) ||| ((value &&& 0x0F00) <<< 4)

/-- The same character with foreground and background exchanged. -/
def swapped (value : Cell) : Cell := attributes value ||| (value &&& 0x00FF)

theorem attributes_attributes (value : Cell) : attributes (attributes value) = value &&& 0xFF00 := by
  ext bit inside
  simp only [attributes]
  interval_cases bit <;> simp

theorem attributes_mask (value : Cell) : attributes (value &&& 0xFF00) = attributes value := by
  ext bit inside
  simp only [attributes]
  interval_cases bit <;> simp

theorem swapped_attributes (value : Cell) : swapped value &&& 0xFF00 = attributes value := by
  ext bit inside
  simp only [swapped, attributes]
  interval_cases bit <;> simp

theorem swapped_character (value : Cell) : swapped value &&& 0x00FF = value &&& 0x00FF := by
  ext bit inside
  simp only [swapped, attributes]
  interval_cases bit <;> simp

theorem inverted_attributes (value : Cell) : inverted value &&& 0xFF00 = attributes value := by
  ext bit inside
  simp only [inverted, attributes]
  interval_cases bit <;> simp

theorem inverted_character (value : Cell) :
    inverted value &&& (0x00FF : Cell) = (value &&& (0x00FF : Cell)) >>> 4 := by
  ext bit inside
  simp only [inverted]
  interval_cases bit <;> simp

theorem write_swapped (value : Cell) (character : Byte) :
    write (swapped value) character = swapped (write value character) := by
  ext bit inside
  simp only [write, swapped, attributes]
  interval_cases bit <;> simp [BitVec.getElem_signExtend]

/-- Drawing a saved cell shows a text cell exactly when the attributes are the same
and the character has become the text's by losing its lower half. -/
theorem inverted_eq_swapped (saved text : Cell) :
    inverted saved = swapped text ↔
      saved &&& 0xFF00 = text &&& 0xFF00 ∧ (saved &&& 0x00FF) >>> 4 = text &&& 0x00FF := by
  constructor
  · intro same
    have upper : attributes saved = attributes text := by
      rw [← inverted_attributes, same, swapped_attributes]
    have lower : (saved &&& (0x00FF : Cell)) >>> 4 = text &&& 0x00FF := by
      rw [← inverted_character, same, swapped_character]
    rw [← attributes_attributes saved, upper, attributes_attributes]
    exact ⟨rfl, lower⟩
  · rintro ⟨upper, lower⟩
    have same : attributes saved = attributes text := by
      rw [← attributes_mask saved, upper, attributes_mask]
    calc inverted saved = attributes saved ||| (saved &&& 0x00FF) >>> 4 := rfl
      _ = swapped text := by rw [same, lower, swapped]

/-- A character survives drawing only if it is NUL. -/
theorem inverted_eq_swapped_self (value : Cell) :
    inverted value = swapped value ↔ value &&& 0x00FF = 0 := by
  rw [inverted_eq_swapped]
  generalize value &&& 0x00FF = character
  constructor
  · rintro ⟨_, halved⟩
    bv_omega
  · rintro rfl
    exact ⟨rfl, rfl⟩

/-- How the pointer changes the cells of the text. -/
def marks (drawn : Bool) (pointer : Position) (cell : Fin 2000) (value : Cell) : Cell :=
  if drawn ∧ cell = pointer.cell then swapped value else value

theorem marks_commuting (drawn : Bool) (pointer : Position) (cell : Fin 2000) (value : Cell)
    (character : Byte) :
    write (marks drawn pointer cell value) character =
      marks drawn pointer cell (write value character) := by
  simp only [marks]
  split
  · exact write_swapped value character
  · rfl

/-- When the completing interrupt leaves the text with the pointer over it. -/
def Restores (text : Screen) (data : Cell) (old new : Position) : Prop :=
  if new = old then
    data &&& 0xFF00 = text new.cell &&& 0xFF00 ∧ (data &&& 0x00FF) >>> 4 = text new.cell &&& 0x00FF
  else data = text old.cell ∧ text new.cell &&& 0x00FF = 0

theorem redrawn_iff (text : Screen) (data : Cell) (old new : Position) (drawn : Bool) :
    redrawn (overlay (marks drawn old) text) data old new = overlay (marks true new) text ↔
      Restores text data old new := by
  rw [redrawn]
  generalize restored : Function.update (overlay (marks drawn old) text) old.cell data = cleared
  have saved : cleared old.cell = data := by
    rw [← restored, Function.update_self]
  have elsewhere (cell : Fin 2000) (away : cell ≠ old.cell) : cleared cell = text cell := by
    rw [← restored, Function.update_of_ne away, overlay, marks, if_neg (fun both => away both.2)]
  have shown : overlay (marks true new) text new.cell = swapped (text new.cell) := by
    rw [overlay, marks, if_pos ⟨rfl, rfl⟩]
  have plain (cell : Fin 2000) (away : cell ≠ new.cell) :
      overlay (marks true new) text cell = text cell := by
    rw [overlay, marks, if_neg (fun both => away both.2)]
  -- What the pointer draws decides its own cell, what was put back every other one.
  have cellwise : Function.update cleared new.cell (inverted (cleared new.cell)) =
      overlay (marks true new) text ↔ inverted (cleared new.cell) = swapped (text new.cell) ∧
        ∀ cell, cell ≠ new.cell → cleared cell = text cell := by
    rw [Function.update_eq_iff, shown]
    exact and_congr_right fun _ => forall_congr' fun cell => imp_congr_right fun away => by
      rw [plain cell away]
  rw [cellwise, Restores]
  by_cases stays : new = old
  · rw [if_pos stays, ← inverted_eq_swapped, stays, saved]
    exact and_iff_left fun cell away => elsewhere cell away
  · have apart : new.cell ≠ old.cell := fun same => stays (Position.cell_injective same)
    rw [if_neg stays, elsewhere new.cell apart, inverted_eq_swapped_self, and_comm]
    refine and_congr_left fun _ => ?_
    constructor
    · intro same
      rw [← saved]
      exact same old.cell apart.symm
    · intro same cell _
      by_cases there : cell = old.cell
      · rw [there, saved, same]
      · exact elsewhere cell there

/-- The interrupts of the mouse and the print calls, each run to its end. -/
inductive Event where
  | interrupt (status byte : Byte)
  | print (str : List Byte)

/-- The machine, beside the text that the print calls alone would have left and
whether the pointer has been drawn. -/
structure Watched where
  machine : Machine
  text : Console
  drawn : Bool

namespace Watched

def step (watched : Watched) : Event → Option Watched
  | .interrupt status byte =>
    some { watched with
      machine := handleInterrupt watched.machine status byte
      drawn := watched.drawn || decide (Completes watched.machine status) }
  | .print str =>
    some { watched with
      machine := { watched.machine with console := TextConsole.print watched.machine.console str }
      text := TextConsole.print watched.text str }

/-- The screen is the text, but for the cell under the pointer once it is drawn, and
that one has its attribute nibbles swapped. -/
def PureOverlay (watched : Watched) : Prop :=
  ∀ cell, watched.machine.console.screen cell =
    if watched.drawn ∧ cell = watched.machine.mouse.position.cell then
      swapped (watched.text.screen cell)
    else watched.text.screen cell

/-- The condition on a step: an interrupt that completes a packet restores the text. -/
def Allowed (watched : Watched) : Event → Prop
  | .interrupt status byte =>
    Completes watched.machine status →
      Restores watched.text.screen watched.machine.mouse.data watched.machine.mouse.position
        (destination watched.machine.mouse byte)
  | .print _ => True

/-- The two consoles differ by the marks of the pointer only. -/
def InStep (watched : Watched) : Prop :=
  watched.machine.console =
    watched.text.overlay (marks watched.drawn watched.machine.mouse.position)

theorem pureOverlay_iff (watched : Watched) :
    watched.PureOverlay ↔ watched.machine.console.screen =
      overlay (marks watched.drawn watched.machine.mouse.position) watched.text.screen :=
  funext_iff.symm

theorem inStep_iff (watched : Watched) :
    watched.InStep ↔
      watched.PureOverlay ∧ watched.machine.console.position = watched.text.position := by
  rw [pureOverlay_iff, InStep, Console.overlay]
  constructor
  · intro same
    rw [same]
    exact ⟨rfl, rfl⟩
  · rintro ⟨screen, position⟩
    cases console : watched.machine.console
    simp_all

/-- Printing never disturbs the overlay. -/
theorem print_inStep (watched next : Watched) (str : List Byte) (held : watched.InStep)
    (taken : watched.step (.print str) = some next) : next.InStep := by
  cases taken
  change TextConsole.print watched.machine.console str = _
  rw [held]
  exact print_overlay _ (marks_commuting watched.drawn watched.machine.mouse.position)
    watched.text str

/-- An interrupt keeps the overlay exactly when it is allowed. -/
theorem interrupt_exactly (watched next : Watched) (status byte : Byte) (held : watched.InStep)
    (taken : watched.step (.interrupt status byte) = some next) :
    next.PureOverlay ↔ watched.Allowed (.interrupt status byte) := by
  obtain ⟨pure, position⟩ := (inStep_iff watched).mp held
  cases taken
  rw [pureOverlay_iff] at pure ⊢
  by_cases complete : Completes watched.machine status
  · obtain ⟨console, pointer⟩ := handleInterrupt_complete watched.machine status byte complete
    simp only [console, pointer, complete, decide_true, Bool.or_true]
    rw [pure, redrawn_iff, Allowed, imp_iff_right complete]
  · obtain ⟨console, pointer, _⟩ := handleInterrupt_incomplete watched.machine status byte complete
    simp only [console, pointer, complete, decide_false, Bool.or_false]
    exact iff_of_true pure fun absurdity => absurd absurdity complete

/-- An interrupt prints nothing. -/
theorem interrupt_position (machine : Machine) (status byte : Byte) :
    (handleInterrupt machine status byte).console.position = machine.console.position := by
  by_cases complete : Completes machine status
  · rw [(handleInterrupt_complete machine status byte complete).1]
  · rw [(handleInterrupt_incomplete machine status byte complete).1]

/-- The state after `activate`, with any text on the screen. -/
def start (console : Console) (buffer : Fin 3 → Byte) (offset : Fin 3) (button : Byte) :
    Watched where
  machine := activate (boot console buffer offset button)
  text := console
  drawn := false

/-- The pointer is a pure overlay throughout a run exactly when every interrupt that
completes a packet restores the text. -/
theorem overlay_iff_restores (console : Console) (buffer : Fin 3 → Byte) (offset : Fin 3)
    (button : Byte) (events : List Event) :
    Throughout step PureOverlay events (start console buffer offset button) ↔
      Meets step Allowed events (start console buffer offset button) := by
  have held : (start console buffer offset button).InStep := by
    rw [inStep_iff, pureOverlay_iff]
    exact ⟨rfl, rfl⟩
  have initial := ((inStep_iff _).mp held).1
  refine throughout_iff_meets step Allowed PureOverlay InStep ?_ ?_ events _ held initial
  · rintro watched (⟨status, byte⟩ | str) _ refused
    · cases refused
    · cases refused
  · rintro watched (⟨status, byte⟩ | str) next inStep taken
    · have one := interrupt_exactly watched next status byte inStep taken
      refine ⟨one, fun allowed => (inStep_iff next).mpr ⟨one.mpr allowed, ?_⟩⟩
      cases taken
      exact (interrupt_position watched.machine status byte).trans ((inStep_iff _).mp inStep).2
    · have following := print_inStep watched next str inStep taken
      exact ⟨iff_of_true ((inStep_iff next).mp following).1 trivial, fun _ => following⟩

/-- On a screen of blanks, a packet that moves nothing leaves a black cell. -/
theorem first_packet_blackens_cell :
    ¬ Throughout step PureOverlay
      [.interrupt 0x20 0x08, .interrupt 0x20 0x00, .interrupt 0x20 0x00]
      (start ⟨fun _ => 0x0720, .corner⟩ (fun _ => 0) 0 0) := by
  intro throughout
  have final := ((throughout.2 _ rfl).2 _ rfl).2 _ rfl
  exact absurd (final 1000) (by decide)

end Watched

end BlueOs.Mouse
