import Mathlib.Data.BitVec

/-!
# An 8042 controller of a keyboard and a mouse

The controller has a configuration byte, bytes that wait to be read, and two ports. A byte
written to the data port goes where the last command said, or else to the keyboard. Bit 0
of the status says that a byte waits; the other bits are not modelled and arbitrary.

The answers of the devices are not part of a command: they arrive when they arrive.
-/

namespace Controller8042

abbrev Byte := BitVec 8

inductive Device where
  | keyboard
  | mouse
deriving DecidableEq

/-- Where the next data byte goes. -/
inductive Target where
  | device (device : Device)
  | configuration
deriving DecidableEq

/-- The bytes that wait are read from the front; `last` is read again when none waits. -/
structure Controller where
  configuration : Byte
  output : List Byte
  last : Byte
  target : Target
  sent : List (Device × Byte)
  statusReads : Nat
deriving DecidableEq

namespace Controller

variable (controller : Controller)

def status (noise : Nat → Byte) : Byte :=
  (noise controller.statusReads &&& 0xFE) ||| if controller.output = [] then 0 else 1

def readStatus : Controller := { controller with statusReads := controller.statusReads + 1 }

def readData : Byte × Controller :=
  match controller.output with
  | [] => (controller.last, controller)
  | first :: rest => (first, { controller with output := rest, last := first })

/-- Read and write the configuration, enable the ports, and write to the mouse. -/
def writeCommand (value : Byte) : Controller :=
  if value = 0x20 then { controller with output := controller.output ++ [controller.configuration] }
  else if value = 0x60 then { controller with target := .configuration }
  else if value = 0xA8 then
    { controller with configuration := controller.configuration &&& 0xDF }
  else if value = 0xAE then
    { controller with configuration := controller.configuration &&& 0xEF }
  else if value = 0xD4 then { controller with target := .device .mouse }
  else controller

def writeData (value : Byte) : Controller :=
  match controller.target with
  | .configuration => { controller with configuration := value, target := .device .keyboard }
  | .device device =>
    { controller with sent := controller.sent ++ [(device, value)], target := .device .keyboard }

/-- The devices answer. -/
def answer (bytes : List Byte) : Controller :=
  { controller with output := controller.output ++ bytes }

theorem status_full (noise : Nat → Byte) :
    controller.status noise &&& 1 ≠ 0 ↔ controller.output ≠ [] := by
  have bits : ∀ other : Byte, ((other &&& 0xFE) ||| 0) &&& 1 = 0 ∧
      ((other &&& 0xFE) ||| 1) &&& 1 ≠ 0 := by
    decide
  obtain ⟨clear, set⟩ := bits (noise controller.statusReads)
  by_cases empty : controller.output = []
  · simp only [status, empty, ne_eq, not_true_eq_false, iff_false, not_not]
    exact clear
  · simp only [status, ne_eq, empty, not_false_eq_true, iff_true]
    exact set

theorem readData_waiting (first : Byte) (rest : List Byte)
    (waiting : controller.output = first :: rest) :
    controller.readData = (first, { controller with output := rest, last := first }) := by
  rw [readData, waiting]

end Controller

end Controller8042
