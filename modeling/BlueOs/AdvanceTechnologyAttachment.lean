import BlueOs.Library.Programs
import BlueOs.Port

/-!
# The ATA driver

Every operation is a program over the devices, the bytes handed to the console and
the locals of the operation that runs: the last status read and the loop counter.
The counter is an `int` and wraps; it is compared as the source compares it, with
`count` signed in `read28` and unsigned in `write28`.

A polling loop reads the status port until its own exit condition holds. Nothing
bounds it, so an operation may not return.
-/

namespace BlueOs.AdvanceTechnologyAttachment

open Port Programs

abbrev Byte := BitVec 8
abbrev Word := BitVec 32

/-- One drive of a channel, by its ports. -/
structure Driver where
  master : Bool
  dataPort : Port16Bit
  errorPort : Port8Bit
  sectorCountPort : Port8Bit
  lbaLowPort : Port8Bit
  lbaMidPort : Port8Bit
  lbaHighPort : Port8Bit
  devicePort : Port8Bit
  commandPort : Port8Bit
  controlPort : Port8Bit

/-- `AdvanceTechnologyAttachment::AdvanceTechnologyAttachment` -/
def construct (master : Bool) (portBase : BitVec 16) : Driver where
  master := master
  dataPort := ⟨portBase⟩
  errorPort := ⟨portBase + 1⟩
  sectorCountPort := ⟨portBase + 2⟩
  lbaLowPort := ⟨portBase + 3⟩
  lbaMidPort := ⟨portBase + 4⟩
  lbaHighPort := ⟨portBase + 5⟩
  devicePort := ⟨portBase + 6⟩
  commandPort := ⟨portBase + 7⟩
  controlPort := ⟨portBase + 0x206⟩

structure Machine (δ : Type) where
  devices : δ
  console : List Byte
  status : Byte
  index : Word

/-- Print a string up to its terminating zero. -/
def print {δ : Type} (text : List Byte) (machine : Machine δ) : Machine δ :=
  { machine with console := machine.console ++ text.takeWhile (· ≠ 0) }

/-- Print a literal. -/
def printLiteral {δ : Type} (text : String) : Machine δ → Machine δ :=
  print (text.toList.map fun character => BitVec.ofNat 8 character.toNat)

def setIndex {δ : Type} (index : Word) (machine : Machine δ) : Machine δ :=
  { machine with index := index }

section operations

variable {δ : Type} (bus : Bus δ) (ata : Driver)

/-- Write bytes to ports in order. -/
def writePorts (accesses : List (Port8Bit × Byte)) (machine : Machine δ) : Machine δ :=
  { machine with
    devices := accesses.foldl (fun devices access => access.1.write bus access.2 devices)
      machine.devices }

/-- `status = commandPort.read()` -/
def readStatus (machine : Machine δ) : Machine δ :=
  let read := ata.commandPort.read bus machine.devices
  { machine with status := read.1, devices := read.2 }

def readData (machine : Machine δ) : BitVec 16 × Machine δ :=
  let read := ata.dataPort.read bus machine.devices
  (read.1, { machine with devices := read.2 })

def writeData (data : BitVec 16) (machine : Machine δ) : Machine δ :=
  { machine with devices := ata.dataPort.write bus data machine.devices }

/-- The drive is busy and reports no error. -/
def busyWithoutError (machine : Machine δ) : Bool :=
  machine.status &&& 0x80 = 0x80 && machine.status &&& 0x01 ≠ 0x01

def busy (machine : Machine δ) : Bool := machine.status &&& 0x80 ≠ 0

def failed (machine : Machine δ) : Bool := machine.status &&& 0x01 ≠ 0

/-- The polling loop of `identify` and `read28`. -/
def poll : Program (Machine δ) := loop busyWithoutError (readStatus bus ata)

/-- One word of the identification, high byte first. -/
def identifyWord (machine : Machine δ) : Machine δ :=
  let (data, machine) := readData bus ata machine
  let machine := print [(data >>> 8).setWidth 8, data.setWidth 8] machine
  setIndex (machine.index + 1) machine

/-- The transfer of the 256 words of an identification. -/
def identifyWords : Program (Machine δ) :=
  seq (step (setIndex 0)) <|
  seq (loop (fun machine => machine.index.slt 256) (identifyWord bus ata)) <|
  step (printLiteral "\n")

def identify : Program (Machine δ) :=
  seq (step fun machine => readStatus bus ata (writePorts bus
    [(ata.devicePort, if ata.master then 0xA0 else 0xB0), (ata.controlPort, 0)] machine)) <|
  branch (fun machine => machine.status = 0xFF) skip <|
  seq (step fun machine => readStatus bus ata (writePorts bus
    [(ata.sectorCountPort, 0), (ata.lbaLowPort, 0), (ata.lbaMidPort, 0), (ata.lbaHighPort, 0),
      (ata.commandPort, 0xEC)] machine)) <|
  branch (fun machine => machine.status = 0x00) skip <|
  seq (poll bus ata) <|
  branch failed (step (printLiteral "ERROR")) (identifyWords bus ata)

/-- The port writes that start a transfer of one sector. -/
def transfer (sector : Word) (command : Byte) : List (Port8Bit × Byte) :=
  [(ata.devicePort, (if ata.master then 0xE0 else 0xF0) |||
      ((sector &&& 0x0F000000) >>> 24).setWidth 8),
    (ata.errorPort, 0), (ata.sectorCountPort, 1),
    (ata.lbaLowPort, (sector &&& 0xFF).setWidth 8),
    (ata.lbaMidPort, ((sector >>> 8) &&& 0xFF).setWidth 8),
    (ata.lbaHighPort, ((sector >>> 16) &&& 0xFF).setWidth 8),
    (ata.commandPort, command)]

/-- One word of a sector read, low byte first; the last byte of an odd count ends
the string. -/
def readWord (count : Word) (machine : Machine δ) : Machine δ :=
  let (wdata, machine) := readData bus ata machine
  let machine := print
    [wdata.setWidth 8, if (machine.index + 1).slt count then (wdata >>> 8).setWidth 8 else 0] machine
  setIndex (machine.index + 2) machine

/-- Read a word and drop it. -/
def drainWord (machine : Machine δ) : Machine δ :=
  let (_, machine) := readData bus ata machine
  setIndex (machine.index + 2) machine

/-- The transfer of a sector read: `count` bytes to the console, the rest dropped. -/
def readWords (count : Word) : Program (Machine δ) :=
  seq (step fun machine => setIndex 0 (printLiteral "Reading ATA Drive: " machine)) <|
  seq (loop (fun machine => machine.index.slt count) (readWord bus ata count)) <|
  seq (step (setIndex (count + count.srem 2))) <|
  loop (fun machine => machine.index.slt 512) (drainWord bus ata)

def read28 (sectorNum count : Word) : Program (Machine δ) :=
  branch (fun _ => 0x0FFFFFFF < sectorNum) skip <|
  seq (step fun machine => readStatus bus ata (writePorts bus (transfer ata sectorNum 0x20) machine)) <|
  seq (poll bus ata) <|
  branch failed (step (printLiteral "ERROR")) (readWords bus ata count)

/-- One word of a sector write. -/
def writeWord (data : Nat → Byte) (count : Word) (machine : Machine δ) : Machine δ :=
  let low := (data machine.index.toNat).setWidth 16
  let wdata := if machine.index + 1 < count then
      low ||| ((data (machine.index + 1).toNat).setWidth 16 <<< 8)
    else low
  let machine := writeData bus ata wdata machine
  let machine := print [(wdata >>> 8).setWidth 8, wdata.setWidth 8] machine
  setIndex (machine.index + 2) machine

/-- Write a word of zeros. -/
def padWord (machine : Machine δ) : Machine δ :=
  setIndex (machine.index + 2) (writeData bus ata 0x0000 machine)

def write28 (sector : Word) (data : Nat → Byte) (count : Word) : Program (Machine δ) :=
  branch (fun _ => 0x0FFFFFFF < sector) skip <|
  branch (fun _ => 512 < count) skip <|
  seq (step fun machine => setIndex 0 (printLiteral "Writing to ATA Drive: "
    (writePorts bus (transfer ata sector 0x30) machine))) <|
  seq (loop (fun machine => machine.index < count) (writeWord bus ata data count)) <|
  seq (step (setIndex (count + count % 2))) <|
  loop (fun machine => machine.index.slt 512) (padWord bus ata)

def flush : Program (Machine δ) :=
  seq (step fun machine => readStatus bus ata (writePorts bus
    [(ata.devicePort, if ata.master then 0xE0 else 0xF0), (ata.commandPort, 0xE7)] machine)) <|
  seq (loop busy (readStatus bus ata)) <|
  branch failed (step (printLiteral "ATA FLUSH ERROR\n")) <|
  step (printLiteral "ATA FLUSH Completed\n")

end operations

/-- A call of one of the operations. -/
inductive Call where
  | identify
  | read28 (sectorNum count : Word)
  | write28 (sector : Word) (data : Nat → Byte) (count : Word)
  | flush

def Call.program {δ : Type} (bus : Bus δ) (ata : Driver) : Call → Program (Machine δ)
  | identify => AdvanceTechnologyAttachment.identify bus ata
  | read28 sectorNum count => AdvanceTechnologyAttachment.read28 bus ata sectorNum count
  | write28 sector data count => AdvanceTechnologyAttachment.write28 bus ata sector data count
  | flush => AdvanceTechnologyAttachment.flush bus ata

end BlueOs.AdvanceTechnologyAttachment
