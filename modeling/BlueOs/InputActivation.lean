import BlueOs.Keyboard
import BlueOs.Library.Controller8042
import BlueOs.Library.Programs

/-!
# Activating the drivers of the keyboard and the mouse

The driver of the keyboard first reads what waits in the controller, then rewrites the
configuration and tells the keyboard to start. The driver of the mouse rewrites the
configuration without reading what waits. A byte that the keyboard answers between the
two calls is then taken for the configuration.
-/

namespace BlueOs.InputActivation

open Port Programs Controller8042
open Keyboard (KeyboardDriver)

/-- The devices, and the local variable `status`. -/
structure Machine (δ : Type) where
  devices : δ
  status : Byte

section drivers

variable {δ : Type} (bus : Bus δ) (driver : KeyboardDriver)

def readStatus (machine : Machine δ) : Machine δ :=
  let read := driver.commandPort.read bus machine.devices
  { status := read.1, devices := read.2 }

/-- The body of the loop that clears the buffer, and the next evaluation of its guard. -/
def drop (machine : Machine δ) : Machine δ :=
  readStatus bus driver { machine with devices := (driver.dataPort.read bus machine.devices).2 }

def full (machine : Machine δ) : Bool := machine.status &&& 0x1 ≠ 0

/-- `KeyboardDriver::activate` after the loop. -/
def enableKeyboard (machine : Machine δ) : Machine δ :=
  let devices := driver.commandPort.write bus 0xAE machine.devices
  let devices := driver.commandPort.write bus 0x20 devices
  let (status, devices) := driver.dataPort.read bus devices
  let status := status ||| 1
  let status := status &&& ~~~0x10
  let devices := driver.commandPort.write bus 0x60 devices
  let devices := driver.dataPort.write bus status devices
  let devices := driver.dataPort.write bus 0xF4 devices
  { devices := devices, status := status }

/-- `KeyboardDriver::activate` -/
def activateKeyboard : Program (Machine δ) :=
  seq (step (readStatus bus driver)) <|
  seq (loop full (drop bus driver)) <|
  step (enableKeyboard bus driver)

/-- The ports of the mouse driver. -/
def commandPort : Port8Bit := ⟨0x64⟩

def dataPort : Port8Bit := ⟨0x60⟩

/-- `MouseDriver::activate`, as far as the ports go. -/
def activateMouse (machine : Machine δ) : Machine δ :=
  let devices := commandPort.write bus 0xA8 machine.devices
  let devices := commandPort.write bus 0x20 devices
  let (status, devices) := dataPort.read bus devices
  let status := status ||| 2
  let devices := commandPort.write bus 0x60 devices
  let devices := dataPort.write bus status devices
  let devices := commandPort.write bus 0xD4 devices
  let devices := dataPort.write bus 0xF4 devices
  { devices := (dataPort.read bus devices).2, status := status }

end drivers

/-- The controller behind its two ports. -/
def controllerBus (noise : Nat → Byte) : Bus Controller where
  inb port controller :=
    if port = 0x64 then (controller.status noise, controller.readStatus)
    else if port = 0x60 then controller.readData
    else (0xFF, controller)
  outb port value controller :=
    if port = 0x64 then controller.writeCommand value
    else if port = 0x60 then controller.writeData value
    else controller
  inw _ controller := (0xFFFF, controller)
  outw _ _ controller := controller

/-- `activateAll` over the two drivers, the keyboard first; bytes that the keyboard answers
arrive between them. -/
def activateAll (noise : Nat → Byte) (answers : List Byte) : Program (Machine Controller) :=
  seq (activateKeyboard (controllerBus noise) Keyboard.construct) <|
  seq (step fun machine => { machine with devices := machine.devices.answer answers }) <|
  step (activateMouse (controllerBus noise))

section controller

variable (noise : Nat → Byte)

theorem readStatus_controller (machine : Machine Controller) :
    readStatus (controllerBus noise) Keyboard.construct machine =
      ⟨machine.devices.readStatus, machine.devices.status noise⟩ := rfl

theorem drop_controller (machine : Machine Controller) :
    drop (controllerBus noise) Keyboard.construct machine =
      ⟨machine.devices.readData.2.readStatus, machine.devices.readData.2.status noise⟩ := rfl

/-- The guard of the loop asks whether a byte waits. -/
theorem full_controller (controller : Controller) :
    full ⟨controller.readStatus, controller.status noise⟩ = decide (controller.output ≠ []) := by
  rw [full, decide_eq_decide]
  exact controller.status_full noise

/-- The loop reads every byte that waits, and ends. -/
theorem drain_returns (waiting : List Byte) (controller : Controller)
    (held : controller.output = waiting) :
    ∃ last, Returns (loop full (drop (controllerBus noise) Keyboard.construct))
        ⟨controller.readStatus, controller.status noise⟩ last ∧
      last.devices.output = [] ∧ last.devices.configuration = controller.configuration ∧
      last.devices.sent = controller.sent := by
  induction waiting generalizing controller with
  | nil =>
    refine ⟨_, returns_loop_done _ _ _ ?_, held, rfl, rfl⟩
    rw [full_controller, held]
    rfl
  | cons first rest inductionHypothesis =>
    have read := controller.readStatus.readData_waiting first rest held
    obtain ⟨last, returned, empty, configuration, sent⟩ :=
      inductionHypothesis controller.readStatus.readData.2 (by rw [read])
    rw [read] at configuration sent
    refine ⟨last, returns_loop_again _ _ _ _ ?_ ?_, empty, configuration, sent⟩
    · rw [full_controller, held]
      rfl
    · rw [drop_controller]
      exact returned

/-- On an empty buffer the configuration that is read is the controller's own. -/
theorem enableKeyboard_empty (machine : Machine Controller)
    (empty : machine.devices.output = []) :
    (enableKeyboard (controllerBus noise) Keyboard.construct machine).devices =
      { machine.devices with
        configuration := ((machine.devices.configuration &&& 0xEF) ||| 1) &&& 0xEF
        last := machine.devices.configuration &&& 0xEF
        target := .device .keyboard
        sent := machine.devices.sent ++ [(.keyboard, 0xF4)] } := by
  obtain ⟨⟨configuration, output, last, target, sent, statusReads⟩, status⟩ := machine
  cases empty
  rfl

/-- The configuration written is the first byte that waits, if one waits. Of what waits,
with the configuration that was asked for at its end, two bytes are read. -/
theorem activateMouse_devices (machine : Machine Controller) :
    (activateMouse (controllerBus noise) machine).devices.configuration =
        (machine.devices.output.head?.getD (machine.devices.configuration &&& 0xDF)) ||| 2 ∧
      (activateMouse (controllerBus noise) machine).devices.sent =
        machine.devices.sent ++ [(.mouse, 0xF4)] ∧
      (activateMouse (controllerBus noise) machine).devices.output =
        (machine.devices.output ++ [machine.devices.configuration &&& 0xDF]).tail.tail := by
  obtain ⟨⟨configuration, output, last, target, sent, statusReads⟩, status⟩ := machine
  cases output with
  | nil => exact ⟨rfl, rfl, rfl⟩
  | cons first rest =>
    cases rest with
    | nil => exact ⟨rfl, rfl, rfl⟩
    | cons second rest => exact ⟨rfl, rfl, rfl⟩

/-- The configuration after both drivers have enabled their ports. -/
theorem enabled_bits (old : Byte) :
    (((old &&& 0xEF) ||| 1) &&& 0xEF) &&& 0xDF = (old ||| 0x01) &&& 0xCF := by
  revert old
  decide

/-- Whatever waits in the controller and whatever its last command was, the activation
ends, drops what waited, and sends every device its command once. If the keyboard does
not answer between the calls of the two drivers, the configuration has both interrupts
and both ports enabled and is otherwise the old one, and no byte waits. Else it is the
first byte of the answer with the bit of the mouse's interrupt set; what waits is the
rest of the answer and the configuration that was asked for, less one byte. -/
theorem activation_exact (answers : List Byte) (machine : Machine Controller) :
    ∃ last, Returns (activateAll noise answers) machine last ∧
      last.devices.sent =
        machine.devices.sent ++ [(.keyboard, 0xF4), (.mouse, 0xF4)] ∧
      (last.devices.configuration = match answers with
        | [] => (machine.devices.configuration ||| 0x03) &&& 0xCF
        | first :: _ => first ||| 0x02) ∧
      last.devices.output = match answers with
        | [] => []
        | _ :: rest => (rest ++ [(machine.devices.configuration ||| 0x01) &&& 0xCF]).tail := by
  obtain ⟨drained, returned, empty, configuration, sent⟩ :=
    drain_returns noise machine.devices.output machine.devices rfl
  have enabled := enableKeyboard_empty noise drained empty
  obtain ⟨written, told, waiting⟩ := activateMouse_devices noise
    { enableKeyboard (controllerBus noise) Keyboard.construct drained with
      devices := (enableKeyboard (controllerBus noise) Keyboard.construct drained).devices.answer
        answers }
  refine ⟨_, ?_, told.trans ?_, written.trans ?_, waiting.trans ?_⟩
  · refine (returns_seq _ _ _ _).mpr ⟨_, ?_, (returns_seq _ _ _ _).mpr ⟨_,
      (returns_step _ _ _).mpr rfl, (returns_step _ _ _).mpr rfl⟩⟩
    refine (returns_seq _ _ _ _).mpr ⟨_, (returns_step _ _ _).mpr rfl,
      (returns_seq _ _ _ _).mpr ⟨drained, ?_, (returns_step _ _ _).mpr rfl⟩⟩
    rw [readStatus_controller]
    exact returned
  · simp only [enabled, Controller.answer, sent, List.append_assoc, List.singleton_append]
  · simp only [enabled, Controller.answer, empty, configuration, List.nil_append]
    cases answers with
    | nil =>
      have bits : ∀ old : Byte, (old ||| 0x01) &&& 0xCF ||| 2 = (old ||| 0x03) &&& 0xCF := by
        decide
      rw [← bits, ← enabled_bits]
      rfl
    | cons first rest => rfl
  · simp only [enabled, Controller.answer, empty, configuration, List.nil_append, enabled_bits]
    cases answers with
    | nil => rfl
    | cons first rest => rfl

end controller

/-- An acknowledgment taken for the configuration disables both ports. -/
example : (0xFA ||| 0x02 : Byte) &&& 0x30 = 0x30 := by decide

end BlueOs.InputActivation
