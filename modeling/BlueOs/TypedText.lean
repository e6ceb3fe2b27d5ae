import BlueOs.DesktopPointer
import BlueOs.FocusFollowsClick
import BlueOs.Keyboard
import BlueOs.Library.Simulation

/-!
# Typing into the widgets

The desktop handles the events of both input devices: the motions and the buttons of the
mouse, and the characters that the driver of the keyboard gets from pressed keys. Every
composite has a focus pointer of its own, and pointers that no key event follows stay
behind.

A user sees less: a pointer, one widget that has the focus, and the text typed into each.
Every session of the first kind is one of the second.
-/

namespace BlueOs.TypedText

open VideoGraphicsArray WidgetTree
open Keyboard (KeyboardDriver MakeCode Machine pressed character notify)

/-- What the input devices report. -/
inductive Event where
  | scancode (code : Byte) (esp : Word)
  | move (x y : Word)
  | button (event : Button) (button : Byte)

section session

variable (desktop : Desktop)

/-- The desktop with its pointer, and the driver's console and output buffer. -/
structure Session where
  pointer : DesktopPointer.State
  machine : Machine Byte (State desktop.toLayout)

/-- The virtual call `handler->onKeyPress(c)`; the handler is the desktop. -/
def onKeyPress (handler : Address) (c : Byte) (state : State desktop.toLayout) :
    State desktop.toLayout :=
  if handler = desktop.root then desktop.onKey .press c state else state

/-- The driver after `setEventHandler(&desktop)`. -/
def driver : KeyboardDriver := Keyboard.construct.setEventHandler (some desktop.root)

def Session.step (session : Session desktop) : Event → Option (Session desktop)
  | .scancode code esp => some { session with
      machine := Keyboard.interrupt (onKeyPress desktop) (driver desktop) session.machine (code, esp) }
  | .move x y =>
    (DesktopPointer.onMouseMove (desktop.widget desktop.root).w (desktop.widget desktop.root).h
      session.pointer (x, y)).map fun pointer => { session with pointer }
  | .button event button => some { session with machine := { session.machine with
      world := desktop.onMouse event session.pointer.mouseX session.pointer.mouseY button
        session.machine.world } }

/-- The session after the constructors, on any console. -/
def Session.start (devices : Byte) (console : TextConsole.Console) : Session desktop where
  pointer := DesktopPointer.construct (desktop.widget desktop.root).w (desktop.widget desktop.root).h
  machine := { devices := devices, console := console, world := desktop.start }

/-- What the user sees: the pointer, the widget that has the focus, and what was typed
into the widgets, in order. -/
structure Typing where
  mouseX : Word
  mouseY : Word
  target : Option Address
  text : List (Address × Byte)

/-- The leaf at the end of the first children that contain a position. -/
def hit (x y : Word) : Option Address :=
  if (desktop.widget ((desktop.front x y).bottom desktop.root)).isLeaf then
    some ((desktop.front x y).bottom desktop.root)
  else none

/-- A press moves the focus to the leaf it hits, if this is focusable. -/
def Typing.press (typing : Typing) : Typing :=
  match hit desktop typing.mouseX typing.mouseY with
  | none => typing
  | some leaf => if (desktop.widget leaf).focusable then { typing with target := some leaf } else typing

/-- A character is typed into the widget that has the focus. -/
def Typing.insert (typing : Typing) (c : Byte) : Typing :=
  { typing with text := typing.text ++ typing.target.toList.map fun leaf => (leaf, c) }

def Typing.step (typing : Typing) : Event → Option Typing
  | .scancode code _ => some (((pressed [code]).filterMap character).foldl Typing.insert typing)
  | .move x y => some { typing with
      mouseX := DesktopPointer.newMouse (desktop.widget desktop.root).w typing.mouseX x
      mouseY := DesktopPointer.newMouse (desktop.widget desktop.root).h typing.mouseY y }
  | .button .down _ => some (typing.press desktop)
  | .button .up _ => some typing

/-- The pointer in the middle, and nothing that has the focus. -/
def Typing.start : Typing where
  mouseX := (desktop.widget desktop.root).w.sdiv 2
  mouseY := (desktop.widget desktop.root).h.sdiv 2
  target := none
  text := []

/-- What the leaves received of the keyboard, in order. -/
def text (received : List Received) : List (Address × Byte) :=
  received.reverse.filterMap fun
    | .key .press leaf c => some (leaf, c)
    | _ => none

/-- A key event that goes to the desktop goes to the widget that has the focus, and the
user sees what the leaves received. -/
structure Shows (session : Session desktop) (typing : Typing) : Prop where
  follows : desktop.Follows session.machine.world
  mouseX : session.pointer.mouseX = typing.mouseX
  mouseY : session.pointer.mouseY = typing.mouseY
  target : lastClicked desktop.toLayout session.machine.world.received = typing.target
  text : text session.machine.world.received = typing.text

end session

theorem text_cons (last : Received) (received : List Received) :
    text (last :: received) = text received ++ text [last] := by
  rw [text, List.reverse_cons, List.filterMap_append]
  rfl

section steps

variable {desktop : Desktop}

/-- A character goes to the leaf that was clicked last, if there is one. -/
theorem onKey_shows (session : Session desktop) (typing : Typing) (c : Byte)
    (shows : Shows desktop session typing) :
    Shows desktop { session with machine := { session.machine with
      world := notify (onKeyPress desktop) (driver desktop) session.machine.world c } }
      (typing.insert c) := by
  obtain ⟨follows, mouseX, mouseY, target, text⟩ := shows
  have notified : notify (onKeyPress desktop) (driver desktop) session.machine.world c =
      desktop.onKey .press c session.machine.world := if_pos rfl
  have again := desktop.handle_follows (.key .press c) session.machine.world follows
  rw [Desktop.Follows] at follows
  have received := desktop.onKey_received .press c session.machine.world
  rw [follows, target] at received
  rw [notified]
  refine ⟨again, mouseX, mouseY, ?_, ?_⟩
  · refine Eq.trans ?_ target
    rw [received]
    cases typing.target with
    | none => rfl
    | some leaf => rfl
  · rw [received, Typing.insert, ← text]
    cases typing.target with
    | none => exact (List.append_nil _).symm
    | some leaf => exact text_cons _ _

theorem onKeys_shows (characters : List Byte) (session : Session desktop) (typing : Typing)
    (shows : Shows desktop session typing) :
    Shows desktop { session with machine := { session.machine with
      world := characters.foldl (notify (onKeyPress desktop) (driver desktop))
        session.machine.world } }
      (characters.foldl Typing.insert typing) := by
  induction characters generalizing session typing with
  | nil => exact shows
  | cons c rest inductionHypothesis =>
    exact inductionHypothesis _ _ (onKey_shows session typing c shows)

/-- A press gives the focus to the leaf that it hits. -/
theorem press_shows (session : Session desktop) (typing : Typing) (button : Byte)
    (shows : Shows desktop session typing) :
    Shows desktop { session with machine := { session.machine with
      world := desktop.onMouse .down session.pointer.mouseX session.pointer.mouseY button
        session.machine.world } } (typing.press desktop) := by
  obtain ⟨follows, mouseX, mouseY, target, text⟩ := shows
  have again := desktop.handle_follows
    (.mouse .down session.pointer.mouseX session.pointer.mouseY button) _ follows
  rw [Desktop.handle] at again
  have same : hit desktop typing.mouseX typing.mouseY =
      hit desktop session.pointer.mouseX session.pointer.mouseY := by
    rw [mouseX, mouseY]
  rw [desktop.onMouse_eq] at again ⊢
  rw [Typing.press, same, hit]
  split
  case isFalse missed => exact ⟨follows, mouseX, mouseY, target, text⟩
  case isTrue leaf =>
    rw [if_pos leaf] at again
    dsimp only
    split
    case isTrue focusable =>
      refine ⟨again, mouseX, mouseY, ?_, ?_⟩
      · rw [leafMouse_received, lastClicked, if_pos focusable]
      · rw [leafMouse_received, text_cons, text]
        exact List.append_nil _
    case isFalse unfocusable =>
      refine ⟨again, mouseX, mouseY, ?_, ?_⟩
      · rw [leafMouse_received, lastClicked, if_neg unfocusable, target]
      · rw [leafMouse_received, text_cons, text]
        exact List.append_nil _

/-- A release reaches a leaf and moves no focus. -/
theorem release_shows (session : Session desktop) (typing : Typing) (button : Byte)
    (shows : Shows desktop session typing) :
    Shows desktop { session with machine := { session.machine with
      world := desktop.onMouse .up session.pointer.mouseX session.pointer.mouseY button
        session.machine.world } } typing := by
  obtain ⟨follows, mouseX, mouseY, target, text⟩ := shows
  have again := desktop.handle_follows
    (.mouse .up session.pointer.mouseX session.pointer.mouseY button) _ follows
  rw [Desktop.handle] at again
  rw [desktop.onMouse_eq] at again ⊢
  split
  case isFalse missed => exact ⟨follows, mouseX, mouseY, target, text⟩
  case isTrue leaf =>
    rw [if_pos leaf] at again
    refine ⟨again, mouseX, mouseY, target, ?_⟩
    rw [leafMouse_received, text_cons, text]
    exact List.append_nil _

theorem step_shows (session : Session desktop) (typing : Typing) (event : Event)
    (shows : Shows desktop session typing) :
    ∃ next result, session.step desktop event = some next ∧
      Runs.run (Typing.step desktop) [event] typing = some result ∧
      Shows desktop next result := by
  cases event with
  | scancode code esp =>
    have heard := onKeys_shows ((pressed [code]).filterMap character) session typing shows
    refine ⟨_, _, rfl, rfl, ?_⟩
    rw [Keyboard.interrupt, Keyboard.handleInterrupt_eq]
    exact ⟨heard.follows, heard.mouseX, heard.mouseY, heard.target, heard.text⟩
  | move x y =>
    refine ⟨_, _, rfl, rfl, shows.follows, ?_, ?_, shows.target, shows.text⟩
    · dsimp only
      rw [shows.mouseX]
    · dsimp only
      rw [shows.mouseY]
  | button event button =>
    cases event with
    | down => exact ⟨_, _, rfl, rfl, press_shows session typing button shows⟩
    | up => exact ⟨_, _, rfl, rfl, release_shows session typing button shows⟩

end steps

theorem start_shows (desktop : Desktop) (devices : Byte) (console : TextConsole.Console) :
    Shows desktop (Session.start desktop devices console) (Typing.start desktop) where
  follows := desktop.start_follows
  mouseX := rfl
  mouseY := rfl
  target := rfl
  text := rfl

/-- Whatever the order of scan codes, motions, presses and releases, the leaves receive
the text that a user types who sees one pointer and one focus: every character of a pressed
key goes to the focusable leaf that was pressed last, and to no other widget. -/
theorem typed_into_target (desktop : Desktop) (devices : Byte) (console : TextConsole.Console)
    (events : List Event) :
    ∃ session typing, Runs.run (Session.step desktop) events
        (Session.start desktop devices console) = some session ∧
      Runs.run (Typing.step desktop) events (Typing.start desktop) = some typing ∧
      session.pointer.mouseX = typing.mouseX ∧ session.pointer.mouseY = typing.mouseY ∧
      session.machine.world.focus.onKey desktop.root = typing.target ∧
      text session.machine.world.received = typing.text := by
  obtain ⟨session, typing, completed, followed, shows⟩ :=
    Runs.run_simulates (Session.step desktop) (Typing.step desktop) (fun event => [event])
      (Shows desktop) (fun _ _ => True)
      (fun session typing event shows _ => step_shows session typing event shows) events _ _
      (start_shows desktop devices console) (Runs.meets_of_always _ _ (fun _ _ => trivial) _ _)
  rw [List.flatMap_singleton'] at followed
  exact ⟨session, typing, completed, followed, shows.mouseX, shows.mouseY,
    shows.follows.trans shows.target, shows.text⟩

end BlueOs.TypedText
