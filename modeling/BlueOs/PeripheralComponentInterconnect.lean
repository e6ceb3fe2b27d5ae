import BlueOs.NumberPrinting
import BlueOs.Port

/-!
# The PCI controller

Configuration space is reached through two ports: one takes an address packed of bus,
device, function and register, the other then reads or writes the 32-bit register.
Smaller fields are read by shifting the register they lie in.

`selectDrivers` asks for every function there may be. Local variables that the source
does not initialise are arguments here. What is printed, and every assignment of a port
base, is recorded.
-/

namespace BlueOs.PeripheralComponentInterconnect

open Port
open NumberPrinting (Printed)

abbrev Byte := BitVec 8
abbrev Half := BitVec 16
abbrev Word := BitVec 32

/-- `PeripheralComponentInterconnectController` -/
structure Controller where
  dataPort : Port32Bit
  commandPort : Port32Bit

def construct : Controller where
  dataPort := ⟨0xCFC⟩
  commandPort := ⟨0xCF8⟩

/-- `PeripheralComponentInterconnectDeviceDescriptor` -/
structure DeviceDescriptor where
  portBase : Word
  interrupt : Word
  bus : Half
  device : Half
  function : Half
  vendor_id : Half
  device_id : Half
  class_id : Byte
  subclass_id : Byte
  interface_id : Byte
  revision : Byte

inductive BaseAddressRegisterType where
  | MemoryMapping
  | InputOutput
deriving DecidableEq

structure BaseAddressRegister where
  prefetchable : Bool
  address : Word
  size : Word
  type : BaseAddressRegisterType

/-- The address of a register, as the three access functions pack it. -/
def configAddress (bus device function : Half) (registerOffset : Word) : Word :=
  ((0x1 : Word) <<< 31)
    ||| ((bus.setWidth 32 &&& 0xFF) <<< 16)
    ||| ((device.setWidth 32 &&& 0x1F) <<< 11)
    ||| ((function.setWidth 32 &&& 0x0F) <<< 8)
    ||| (registerOffset &&& 0xFC)

section controller

variable {δ : Type} (ports : WideBus δ) (pci : Controller)

def read (bus device function : Half) (registerOffset : Word) (devices : δ) : Word × δ :=
  let id := configAddress bus device function registerOffset
  let devices := pci.commandPort.write ports id devices
  let (result, devices) := pci.dataPort.read ports devices
  (result >>> (8 * (registerOffset % 4)), devices)

/-- `readByte` has the body of `read`. -/
def readByte (bus device function : Half) (registerOffset : Word) (devices : δ) : Word × δ :=
  let id := configAddress bus device function registerOffset
  let devices := pci.commandPort.write ports id devices
  let (result, devices) := pci.dataPort.read ports devices
  (result >>> (8 * (registerOffset % 4)), devices)

def write (bus device function : Half) (registerOffset data : Word) (devices : δ) : δ :=
  let id := configAddress bus device function registerOffset
  let devices := pci.commandPort.write ports id devices
  pci.dataPort.write ports data devices

def hasFunctions (bus device : Half) (devices : δ) : Bool × δ :=
  let (value, devices) := read ports pci bus device 0 0x0E devices
  (value &&& ((1 : Word) <<< 7) ≠ 0, devices)

/-- The port base is not initialised. -/
def getDeviceDescriptor (portBase : Word) (bus device function : Half) (devices : δ) :
    DeviceDescriptor × δ :=
  let (vendor_id, devices) := read ports pci bus device function 0x00 devices
  let (device_id, devices) := read ports pci bus device function 0x02 devices
  let (class_id, devices) := read ports pci bus device function 0x0B devices
  let (subclass_id, devices) := read ports pci bus device function 0x0A devices
  let (interface_id, devices) := read ports pci bus device function 0x09 devices
  let (revision, devices) := read ports pci bus device function 0x08 devices
  let (interrupt, devices) := read ports pci bus device function 0x3C devices
  ({ portBase := portBase
     interrupt := interrupt
     bus := bus
     device := device
     function := function
     vendor_id := vendor_id.setWidth 16
     device_id := device_id.setWidth 16
     class_id := class_id.setWidth 8
     subclass_id := subclass_id.setWidth 8
     interface_id := interface_id.setWidth 8
     revision := revision.setWidth 8 }, devices)

/-- Only the fields that the source assigns replace those of the uninitialised result. -/
def getBaseAddressRegister (result : BaseAddressRegister) (bus device function barNum : Half)
    (devices : δ) : BaseAddressRegister × δ :=
  let (value, devices) := read ports pci bus device function 0x0E devices
  let headertype := value &&& 0x7F
  let maxBARs := 6 - 4 * headertype
  if maxBARs.sle (barNum.setWidth 32) then (result, devices)
  else
    let (bar_value, devices) :=
      read ports pci bus device function (0x10 + 4 * barNum.setWidth 32) devices
    if bar_value &&& 0x1 = 0 then ({ result with type := .MemoryMapping }, devices)
    else
      ({ result with
          type := .InputOutput
          address := bar_value &&& ~~~0x3
          prefetchable := false }, devices)

/-- What the variables of one function happen to hold before they are assigned: the
port base of its descriptor, and the result of each probe of a register. -/
structure Uninitialised where
  portBase : Word
  register : Nat → BaseAddressRegister

/-- An assignment to the port base of a function's descriptor. -/
structure Assignment where
  bus : Nat
  device : Nat
  function : Nat
  portBase : Word
deriving DecidableEq

/-- The devices, what has been printed, and the port bases assigned. -/
structure Scan (δ : Type) where
  devices : δ
  printed : List Printed
  assigned : List Assignment

variable (uninitialised : Nat → Nat → Nat → Uninitialised)

/-- The body of the loop over the base address registers. -/
def selectRegister (bus device function : Nat) :
    DeviceDescriptor × Scan δ → Nat → DeviceDescriptor × Scan δ
  | (deviceDescriptor, scan), barNum =>
    let (baseAddressRegister, devices) := getBaseAddressRegister ports pci
      ((uninitialised bus device function).register barNum) (BitVec.ofNat 16 bus)
      (BitVec.ofNat 16 device) (BitVec.ofNat 16 function) (BitVec.ofNat 16 barNum) scan.devices
    let scan := { scan with devices := devices }
    if baseAddressRegister.address ≠ 0 ∧ baseAddressRegister.type = .InputOutput then
      ({ deviceDescriptor with portBase := baseAddressRegister.address },
        { scan with
          assigned := scan.assigned ++ [⟨bus, device, function, baseAddressRegister.address⟩] })
    else (deviceDescriptor, scan)

def selectPortBase (bus device function : Nat) (deviceDescriptor : DeviceDescriptor)
    (scan : Scan δ) : DeviceDescriptor × Scan δ :=
  (List.range 6).foldl (selectRegister ports pci uninitialised bus device function)
    (deviceDescriptor, scan)

/-- The line printed for a function. -/
def line (bus device function vendor_id device_id : Half) : List Printed :=
  [.text "PCI BUS ", .hex ((bus &&& 0xFF).setWidth 8),
    .text ", DEVICE ", .hex ((device &&& 0xFF).setWidth 8),
    .text ", FUNCTION ", .hex ((function &&& 0xFF).setWidth 8),
    .text " = VENDOR ", .hex (((vendor_id &&& 0xFF00) >>> 8).setWidth 8),
    .hex ((vendor_id &&& 0xFF).setWidth 8),
    .text ", DEVICE ", .hex (((device_id &&& 0xFF00) >>> 8).setWidth 8),
    .hex ((device_id &&& 0xFF).setWidth 8), .text "\n"]

/-- The body of the loop over the functions of a device. -/
def selectFunction (bus device : Nat) (scan : Scan δ) (function : Nat) : Scan δ :=
  let (deviceDescriptor, devices) := getDeviceDescriptor ports pci
    (uninitialised bus device function).portBase (BitVec.ofNat 16 bus) (BitVec.ofNat 16 device)
    (BitVec.ofNat 16 function) scan.devices
  let scan := { scan with devices := devices }
  if deviceDescriptor.vendor_id = 0x0000 ∨ deviceDescriptor.vendor_id = 0xFFFF then scan
  else
    let (deviceDescriptor, scan) :=
      selectPortBase ports pci uninitialised bus device function deviceDescriptor scan
    { scan with
      printed := scan.printed ++
        line (BitVec.ofNat 16 bus) (BitVec.ofNat 16 device) (BitVec.ofNat 16 function)
          deviceDescriptor.vendor_id deviceDescriptor.device_id }

/-- The body of the loop over the devices of a bus. -/
def selectDevice (bus : Nat) (scan : Scan δ) (device : Nat) : Scan δ :=
  let (several, devices) :=
    hasFunctions ports pci (BitVec.ofNat 16 bus) (BitVec.ofNat 16 device) scan.devices
  let numFunctions := if several then 8 else 1
  (List.range numFunctions).foldl (selectFunction ports pci uninitialised bus device)
    { scan with devices := devices }

def selectDrivers (scan : Scan δ) : Scan δ :=
  (List.range 8).foldl (fun scan bus =>
    (List.range 32).foldl (selectDevice ports pci uninitialised bus) scan) scan

end controller

end BlueOs.PeripheralComponentInterconnect
