import BlueOs.TextConsole

/-!
# The mouse driver

The driver shows its pointer on the text screen: it keeps the cell under the pointer
in one global, changes the cell on the screen, and puts the saved cell back before it
moves. A packet has three bytes, one an interrupt; the third moves the pointer.
-/

namespace BlueOs.Mouse

open TextConsole

/-- The globals and the fields of the driver. -/
structure MouseDriver where
  position : Position
  data : Cell
  buffer : Fin 3 → Byte
  offset : Fin 3
  button : Byte

structure Machine where
  console : Console
  mouse : MouseDriver

/-- What `drawMouseCursor` stores in the place of a cell. -/
def inverted (value : Cell) : Cell :=
  ((value &&& 0xF000) >>> 4) ||| ((value &&& 0x0F00) <<< 4) ||| ((value &&& 0x00FF) >>> 4)

def drawMouseCursor (machine : Machine) : Machine :=
  let cell := machine.mouse.position.cell
  let screen := machine.console.screen
  { console :=
      { machine.console with screen := Function.update screen cell (inverted (screen cell)) }
    mouse := { machine.mouse with data := screen cell } }

def clearMouseCursor (machine : Machine) : Machine :=
  let cell := machine.mouse.position.cell
  { machine with console :=
    { machine.console with
      screen := Function.update machine.console.screen cell machine.mouse.data } }

/-- A small number is the same as a signed byte. -/
theorem coordinate_toInt (value : Nat) (small : value < 128) :
    (BitVec.ofNat 8 value).toInt = value := by
  have same : (BitVec.ofNat 8 value).toNat = value := by
    rw [BitVec.toNat_ofNat]
    omega
  rw [BitVec.toInt_eq_toNat_of_lt (by omega), same]

/-- A coordinate after the bounds checks; the coordinates are signed bytes. -/
def clamp (last : Nat) (value : Byte) : Fin (last + 1) :=
  if high : (last + 1 : Int) ≤ value.toInt then Fin.last last
  else if low : value.toInt < 0 then 0
  else ⟨value.toInt.toNat, by omega⟩

/-- The position moved by the second and third byte of a packet. -/
def moved (position : Position) (right up : Byte) : Position where
  x := clamp 79 (BitVec.ofNat 8 position.x.val + right)
  y := clamp 24 (BitVec.ofNat 8 position.y.val - up)

/-- `handleInterrupt`, with what the two ports deliver. -/
def handleInterrupt (machine : Machine) (status byte : Byte) : Machine :=
  if status &&& 0x20 = 0 then machine
  else
    let buffer := Function.update machine.mouse.buffer machine.mouse.offset byte
    let offset := machine.mouse.offset + 1
    let machine := { machine with mouse := { machine.mouse with buffer, offset } }
    if offset ≠ 0 then machine
    else
      let machine := clearMouseCursor machine
      let machine := { machine with mouse :=
        { machine.mouse with position := moved machine.mouse.position (buffer 1) (buffer 2) } }
      let machine := drawMouseCursor machine
      { machine with mouse := { machine.mouse with button := buffer 0 } }

/-- `activate`, as far as memory goes. -/
def activate (machine : Machine) : Machine :=
  { machine with mouse :=
    { machine.mouse with offset := 0, button := 0, position := .middle } }

/-- The globals before `activate` are zero; the fields have no value yet. -/
def boot (console : Console) (buffer : Fin 3 → Byte) (offset : Fin 3) (button : Byte) : Machine where
  console := console
  mouse := { position := .corner, data := 0, buffer, offset, button }

/-- Whether an interrupt brings the last byte of a packet. -/
def Completes (machine : Machine) (status : Byte) : Prop :=
  status &&& 0x20 ≠ 0 ∧ machine.mouse.offset = 2

instance (machine : Machine) (status : Byte) : Decidable (Completes machine status) :=
  inferInstanceAs (Decidable (_ ∧ _))

/-- Other interrupts touch neither the screen nor the pointer nor the saved cell. -/
theorem handleInterrupt_incomplete (machine : Machine) (status byte : Byte)
    (incomplete : ¬ Completes machine status) :
    (handleInterrupt machine status byte).console = machine.console ∧
      (handleInterrupt machine status byte).mouse.position = machine.mouse.position ∧
      (handleInterrupt machine status byte).mouse.data = machine.mouse.data := by
  by_cases quiet : status &&& 0x20 = 0
  · rw [handleInterrupt, if_pos quiet]
    exact ⟨rfl, rfl, rfl⟩
  · have more : machine.mouse.offset + 1 ≠ 0 := by
      intro last
      apply incomplete
      refine ⟨quiet, ?_⟩
      omega
    rw [handleInterrupt, if_neg quiet]
    simp only [if_pos more]
    trivial

/-- The second byte of a packet, the displacement to the right. -/
def MouseDriver.right (mouse : MouseDriver) : Byte := mouse.buffer 1

/-- Where the last byte of a packet moves the pointer. -/
def destination (mouse : MouseDriver) (byte : Byte) : Position :=
  moved mouse.position (mouse.buffer 1) byte

/-- The screen with the saved cell put back and the pointer drawn at its new position. -/
def redrawn (screen : Screen) (data : Cell) (old new : Position) : Screen :=
  let cleared := Function.update screen old.cell data
  Function.update cleared new.cell (inverted (cleared new.cell))

/-- The last byte of a packet puts the saved cell back and shows the pointer at its
new position. -/
theorem handleInterrupt_complete (machine : Machine) (status byte : Byte)
    (complete : Completes machine status) :
    (handleInterrupt machine status byte).console =
        { machine.console with
          screen := redrawn machine.console.screen machine.mouse.data machine.mouse.position
            (destination machine.mouse byte) } ∧
      (handleInterrupt machine status byte).mouse.position = destination machine.mouse byte := by
  obtain ⟨asked, last⟩ := complete
  have wraps : machine.mouse.offset + 1 = 0 := by
    rw [last]
    rfl
  have second : Function.update machine.mouse.buffer machine.mouse.offset byte 1 =
      machine.mouse.buffer 1 := by
    rw [last]
    exact Function.update_of_ne (show (1 : Fin 3) ≠ 2 by decide) byte machine.mouse.buffer
  have third : Function.update machine.mouse.buffer machine.mouse.offset byte 2 = byte := by
    rw [last]
    exact Function.update_self (2 : Fin 3) byte machine.mouse.buffer
  rw [handleInterrupt, if_neg asked]
  simp only [wraps, second, third, ne_eq, not_true_eq_false, if_false, clearMouseCursor,
    drawMouseCursor, redrawn, destination, and_self]

end BlueOs.Mouse
