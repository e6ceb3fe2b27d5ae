import BlueOs.Library.Pic8259
import BlueOs.TaskManager

/-!
# The interrupt manager

The constructor fills the interrupt descriptor table with one default gate,
replaces the gates of the timer, keyboard and mouse vectors, and programs the two
interrupt controllers. A gate holds the address of a routine in two halves; the
addresses are the linker's.

`doHandleInterrupt` runs the registered handler of a vector or prints a message,
lets the task manager choose the context after the timer vector, and ends the
interrupt at the controllers. What it does to the outside is recorded, newest
first. The result of a handler's own `handleInterrupt` is a parameter.
-/

namespace BlueOs.InterruptManager

open ByteMemory

structure GateDescriptor where
  handlerAddressLowerBits : BitVec 16
  gdtCodeSegmentSelector : BitVec 16
  reserved : Byte
  access : Byte
  handlerAddressHighBits : BitVec 16
deriving DecidableEq

/-- The descriptor that `setInterruptDescriptorEntry` writes. -/
def gateDescriptor (codeSegmentSelector : BitVec 16) (handlerAddr : Word)
    (descriptorPriviledgeLevel descriptorType : Byte) : GateDescriptor where
  handlerAddressLowerBits := (handlerAddr &&& 0xFFFF).setWidth 16
  gdtCodeSegmentSelector := codeSegmentSelector
  reserved := 0
  access := 0x80 ||| ((descriptorPriviledgeLevel &&& 0x3) <<< 5) ||| (descriptorType &&& 0x1F)
  handlerAddressHighBits := ((handlerAddr >>> 16) &&& 0xFFFF).setWidth 16

/-- The address a gate leads to. -/
def GateDescriptor.handlerAddress (gate : GateDescriptor) : Word :=
  gate.handlerAddressHighBits ++ gate.handlerAddressLowerBits

abbrev InterruptDescriptorTable := Byte → GateDescriptor

def setInterruptDescriptorEntry (table : InterruptDescriptorTable) (interruptNumber : Byte)
    (codeSegmentSelector : BitVec 16) (handlerAddr : Word)
    (descriptorPriviledgeLevel descriptorType : Byte) : InterruptDescriptorTable :=
  Function.update table interruptNumber
    (gateDescriptor codeSegmentSelector handlerAddr descriptorPriviledgeLevel descriptorType)

/-- The routines that gates are set to. `ignoreInterruptRequest` is the member
function of the C++ source; the label of the same name in the assembly source is
declared global under another name and stays local to its object. -/
inductive Routine where
  | ignoreInterruptRequest
  | handleInterruptRequest0x00
  | handleInterruptRequest0x01
  | handleInterruptRequest0x0C
deriving DecidableEq

/-- What the manager does to the outside. -/
inductive Effect where
  | wrote (port : BitVec 16) (value : Byte)
  | invoked (handler : Address) (esp : Word)
  | printed (message : List Char)
  | scheduled (cpustate : Address)
deriving DecidableEq

structure Manager where
  interruptDescriptorTable : InterruptDescriptorTable
  interruptHandler : Byte → Option Address
  taskManager : TaskManager.Manager
  pics : Pic8259.Pair
  effects : List Effect

def Manager.record (manager : Manager) (effect : Effect) : Manager :=
  { manager with effects := effect :: manager.effects }

def picMasterCommand : BitVec 16 := 0x20

def picMasterData : BitVec 16 := 0x21

def picSlaveCommand : BitVec 16 := 0xA0

def picSlaveData : BitVec 16 := 0xA1

/-- A byte written to a port reaches the controller register behind it. -/
def Manager.write (manager : Manager) (port : BitVec 16) (value : Byte) : Manager :=
  let pics := manager.pics
  let written :=
    if port = picMasterCommand then { pics with master := pics.master.writeCommand value }
    else if port = picMasterData then { pics with master := pics.master.writeData value }
    else if port = picSlaveCommand then { pics with slave := pics.slave.writeCommand value }
    else if port = picSlaveData then { pics with slave := pics.slave.writeData value }
    else pics
  { manager.record (.wrote port value) with pics := written }

def codeSegment : BitVec 16 := 0x08

def idtInterruptGate : Byte := 0xE

/-- The static table and the controllers before any constructor ran. -/
def zeroed (taskManager : TaskManager.Manager) : Manager where
  interruptDescriptorTable _ := ⟨0, 0, 0, 0, 0⟩
  interruptHandler _ := none
  taskManager := taskManager
  pics := ⟨⟨.ready, 0, 0, 0⟩, ⟨.ready, 0, 0, 0⟩⟩
  effects := []

/-- One iteration of the constructor's loop. -/
def resetVector (link : Routine → Word) (manager : Manager) (interrupt : Nat) : Manager :=
  { manager with
    interruptHandler := Function.update manager.interruptHandler (BitVec.ofNat 8 interrupt) none
    interruptDescriptorTable := setInterruptDescriptorEntry manager.interruptDescriptorTable
      (BitVec.ofNat 8 interrupt) codeSegment (link .ignoreInterruptRequest) 0 idtInterruptGate }

/-- Point a vector at a routine of the kernel. -/
def setGate (link : Routine → Word) (manager : Manager) (interruptNumber : Byte)
    (routine : Routine) : Manager :=
  { manager with
    interruptDescriptorTable := setInterruptDescriptorEntry manager.interruptDescriptorTable
      interruptNumber codeSegment (link routine) 0 idtInterruptGate }

/-- The port writes of the constructor, in order. -/
def initialization : List (BitVec 16 × Byte) :=
  [(picMasterCommand, 0x11), (picSlaveCommand, 0x11),
    (picMasterData, 0x20), (picSlaveData, 0x28),
    (picMasterData, 0x04), (picSlaveData, 0x02),
    (picMasterData, 0x01), (picSlaveData, 0x01),
    (picMasterData, 0x00), (picSlaveData, 0x00)]

/-- `InterruptManager::InterruptManager`, over whatever the table, the handler
slots and the controllers held before. -/
def construct (link : Routine → Word) (before : Manager) (taskManager : TaskManager.Manager) :
    Manager :=
  let manager := { before with taskManager := taskManager }
  let manager := (List.range 256).foldl (resetVector link) manager
  let manager := setGate link manager 0x20 .handleInterruptRequest0x00
  let manager := setGate link manager 0x21 .handleInterruptRequest0x01
  let manager := setGate link manager 0x2C .handleInterruptRequest0x0C
  initialization.foldl (fun manager access => manager.write access.1 access.2) manager

/-- `hex[nibble]` -/
def hexDigit (nibble : Word) : Char :=
  "0123456789ABCDEF".toList.getD nibble.toNat '0'

/-- The message of an interrupt without a handler. -/
def unhandledMessage (interruptNumber : Word) : List Char :=
  ("UNHANDLED INTERRUPT 0x00\n\n".toList.set 22 (hexDigit ((interruptNumber >>> 4) &&& 0x0F))).set 23
    (hexDigit (interruptNumber &&& 0x0F))

section dispatch

variable (invoke : Address → Word → Word)

/-- The registered handler decides the stack pointer; without one a message is
printed, but not for the timer. -/
def dispatch (manager : Manager) (interruptNumber esp : Word) : Word × Manager :=
  match manager.interruptHandler (interruptNumber.setWidth 8) with
  | some handler => (invoke handler esp, manager.record (.invoked handler esp))
  | none =>
    if interruptNumber ≠ 0x20 then (esp, manager.record (.printed (unhandledMessage interruptNumber)))
    else (esp, manager)

/-- The timer vector lets the task manager choose the context to resume. -/
def reschedule (manager : Manager) (interruptNumber esp : Word) : Option (Word × Manager) :=
  if interruptNumber = 0x20 then
    (manager.taskManager.schedule esp).map fun scheduled =>
      (scheduled.1, { manager with taskManager := scheduled.2 }.record (.scheduled esp))
  else some (esp, manager)

/-- The end of interrupt, to the master and for a line of the slave to both. -/
def acknowledge (manager : Manager) (interruptNumber : Word) : Manager :=
  if 0x20 ≤ interruptNumber ∧ interruptNumber ≤ 0x30 then
    let manager := manager.write picMasterCommand 0x20
    if 0x28 ≤ interruptNumber then manager.write picSlaveCommand 0x20 else manager
  else manager

/-- The table of handlers has no slot for a number past 255. -/
def doHandleInterrupt (manager : Manager) (interruptNumber esp : Word) : Option (Word × Manager) :=
  if 256 ≤ interruptNumber then none
  else do
    let (esp, manager) := dispatch invoke manager interruptNumber esp
    let (esp, manager) ← reschedule manager interruptNumber esp
    some (esp, acknowledge manager interruptNumber)

/-- The static entry point: the active manager, if any, handles the interrupt. -/
def handleInterrupt (active : Bool) (manager : Manager) (interruptNumber esp : Word) :
    Option (Word × Manager) :=
  if active then doHandleInterrupt invoke manager interruptNumber esp
  else some (esp, manager)

end dispatch

end BlueOs.InterruptManager
