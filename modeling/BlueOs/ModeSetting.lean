import BlueOs.Library.IndexedRegisters
import BlueOs.Port

/-!
# Setting the VGA mode

The adapter's registers lie in four banks behind pairs of ports; the attribute bank
has one port for index and value, and a flip-flop that says which is next.
`WriteRegisters` walks a table of 61 bytes: the place of a byte in the table decides
which register it goes to.

The memory segment of the pixels is not remembered by the driver. It is asked for at
every pixel, from a register of the graphics controller.
-/

namespace BlueOs.ModeSetting

open Port IndexedRegisters

abbrev Byte := BitVec 8
abbrev Word := BitVec 32

/-- The registers of the adapter. -/
structure Adapter where
  misc : Byte
  sequencer : Bank Byte Byte
  crtc : Bank Byte Byte
  graphicsController : Bank Byte Byte
  attributeController : Bank Byte Byte
  indexNext : Bool

/-- A write to the attribute port is an index or a value, in turn. -/
def Adapter.writeAttribute (value : Byte) (adapter : Adapter) : Adapter :=
  { adapter with
    attributeController :=
      if adapter.indexNext then adapter.attributeController.select value
      else adapter.attributeController.write value
    indexNext := !adapter.indexNext }

/-- The adapter behind its ports. A read of the input status resets the flip-flop. -/
def adapterBus : Bus Adapter where
  inb port adapter :=
    if port = 0x3C5 then (adapter.sequencer.read, adapter)
    else if port = 0x3D5 then (adapter.crtc.read, adapter)
    else if port = 0x3CF then (adapter.graphicsController.read, adapter)
    else if port = 0x3C1 then (adapter.attributeController.read, adapter)
    else if port = 0x3DA then (0x00, { adapter with indexNext := true })
    else (0xFF, adapter)
  outb port value adapter :=
    if port = 0x3C2 then { adapter with misc := value }
    else if port = 0x3C4 then { adapter with sequencer := adapter.sequencer.select value }
    else if port = 0x3C5 then { adapter with sequencer := adapter.sequencer.write value }
    else if port = 0x3D4 then { adapter with crtc := adapter.crtc.select value }
    else if port = 0x3D5 then { adapter with crtc := adapter.crtc.write value }
    else if port = 0x3CE then
      { adapter with graphicsController := adapter.graphicsController.select value }
    else if port = 0x3CF then
      { adapter with graphicsController := adapter.graphicsController.write value }
    else if port = 0x3C0 then adapter.writeAttribute value
    else adapter
  inw _ adapter := (0xFFFF, adapter)
  outw _ _ adapter := adapter

/-- The ports of the driver. -/
structure Driver where
  miscPort : Port8Bit
  crtcIndexPort : Port8Bit
  crtcDataPort : Port8Bit
  sequencerIndexPort : Port8Bit
  sequencerDataPort : Port8Bit
  graphicsControllerIndexPort : Port8Bit
  graphicsControllerDataPort : Port8Bit
  attributeControllerIndexPort : Port8Bit
  attributeControllerReadPort : Port8Bit
  attributeControllerWritePort : Port8Bit
  attributeControllerResetPort : Port8Bit

/-- `VideoGraphicsArray::VideoGraphicsArray` -/
def construct : Driver where
  miscPort := ⟨0x3C2⟩
  crtcIndexPort := ⟨0x3D4⟩
  crtcDataPort := ⟨0x3D5⟩
  sequencerIndexPort := ⟨0x3C4⟩
  sequencerDataPort := ⟨0x3C5⟩
  graphicsControllerIndexPort := ⟨0x3CE⟩
  graphicsControllerDataPort := ⟨0x3CF⟩
  attributeControllerIndexPort := ⟨0x3C0⟩
  attributeControllerReadPort := ⟨0x3C1⟩
  attributeControllerWritePort := ⟨0x3C0⟩
  attributeControllerResetPort := ⟨0x3DA⟩

section driver

variable {δ : Type} (bus : Bus δ) (vga : Driver)

/-- The loop over the registers of one bank, with the table from their first byte on. -/
def writeBank (indexPort dataPort : Port8Bit) (count : Nat) (registers : Nat → Byte)
    (devices : δ) : δ :=
  (List.range count).foldl (fun devices i =>
    dataPort.write bus (registers i) (indexPort.write bus (BitVec.ofNat 8 i) devices)) devices

/-- Change a bit of two CRTC registers, so that the others can be written. -/
def unlock (devices : δ) : δ :=
  let devices := vga.crtcIndexPort.write bus 0x03 devices
  let (value, devices) := vga.crtcDataPort.read bus devices
  let devices := vga.crtcDataPort.write bus (value ||| 0x80) devices
  let devices := vga.crtcIndexPort.write bus 0x11 devices
  let (value, devices) := vga.crtcDataPort.read bus devices
  vga.crtcDataPort.write bus (value &&& ~~~0x80) devices

/-- The loop over the attribute registers. -/
def writeAttributes (count : Nat) (registers : Nat → Byte) (devices : δ) : δ :=
  (List.range count).foldl (fun devices i =>
    let (_, devices) := vga.attributeControllerResetPort.read bus devices
    let devices := vga.attributeControllerIndexPort.write bus (BitVec.ofNat 8 i) devices
    vga.attributeControllerWritePort.write bus (registers i) devices) devices

/-- `registers` is the table from the place that the pointer has reached. -/
def writeRegisters (registers : Nat → Byte) (devices : δ) : δ :=
  let devices := vga.miscPort.write bus (registers 0) devices
  let registers := fun place => registers (1 + place)
  let devices := writeBank bus vga.sequencerIndexPort vga.sequencerDataPort 5 registers devices
  let registers := fun place => registers (5 + place)
  let devices := unlock bus vga devices
  let registers := Function.update registers 0x03 (registers 0x03 ||| 0x80)
  let registers := Function.update registers 0x11 (registers 0x11 &&& ~~~0x80)
  let devices := writeBank bus vga.crtcIndexPort vga.crtcDataPort 25 registers devices
  let registers := fun place => registers (25 + place)
  let devices := writeBank bus vga.graphicsControllerIndexPort vga.graphicsControllerDataPort 9
    registers devices
  let registers := fun place => registers (9 + place)
  let devices := writeAttributes bus vga 21 registers devices
  let (_, devices) := vga.attributeControllerResetPort.read bus devices
  vga.attributeControllerIndexPort.write bus 0x20 devices

def supportsMode (width height colordepth : Word) : Bool :=
  width = 320 && height = 200 && colordepth = 8

/-- The table of the mode with 320 by 200 pixels of 256 colours. -/
def g_320x200x256 : List Byte :=
  [0x63,
    0x03, 0x01, 0x0F, 0x00, 0x0E,
    0x5F, 0x4F, 0x50, 0x82, 0x54, 0x80, 0xBF, 0x1F,
    0x00, 0x41, 0x00, 0x00, 0x00, 0x00, 0x00, 0x00,
    0x9C, 0x0E, 0x8F, 0x28, 0x40, 0x96, 0xB9, 0xA3,
    0xFF,
    0x00, 0x00, 0x00, 0x00, 0x00, 0x40, 0x05, 0x0F,
    0xFF,
    0x00, 0x01, 0x02, 0x03, 0x04, 0x05, 0x06, 0x07,
    0x08, 0x09, 0x0A, 0x0B, 0x0C, 0x0D, 0x0E, 0x0F,
    0x41, 0x00, 0x0F, 0x00, 0x00]

def setMode (width height colordepth : Word) (devices : δ) : Bool × δ :=
  if supportsMode width height colordepth then
    (true, writeRegisters bus vga (fun place => g_320x200x256.getD place 0) devices)
  else (false, devices)

/-- The segment that bits 2 and 3 of the register select. -/
def segmentAddress (value : Byte) : Word :=
  let segmentNumber := value &&& (3 <<< 2)
  if segmentNumber = 1 <<< 2 then 0xA0000
  else if segmentNumber = 2 <<< 2 then 0xB0000
  else if segmentNumber = 3 <<< 2 then 0xB8000
  else 0x00000

def getFrameBufferSegment (devices : δ) : Word × δ :=
  let devices := vga.graphicsControllerIndexPort.write bus 0x06 devices
  let (value, devices) := vga.graphicsControllerDataPort.read bus devices
  (segmentAddress value, devices)

end driver

/-! Only the graphics controller's own ports change its registers. -/

theorem inb_graphics (port : BitVec 16) (adapter : Adapter) :
    (adapterBus.inb port adapter).2.graphicsController = adapter.graphicsController := by
  simp only [adapterBus]
  split_ifs <;> rfl

theorem outb_graphics (port : BitVec 16) (value : Byte) (adapter : Adapter)
    (notIndex : port ≠ 0x3CE) (notData : port ≠ 0x3CF) :
    (adapterBus.outb port value adapter).graphicsController = adapter.graphicsController := by
  simp only [adapterBus, if_neg notIndex, if_neg notData]
  split_ifs <;> rfl

theorem writeAttributes_graphics (count : Nat) (registers : Nat → Byte) (adapter : Adapter) :
    (writeAttributes adapterBus construct count registers adapter).graphicsController =
      adapter.graphicsController := by
  refine List.foldlRecOn (motive := fun devices : Adapter =>
    devices.graphicsController = adapter.graphicsController) _ _ rfl fun devices kept i _ => ?_
  simp only [Port8Bit.write, Port8Bit.read]
  rw [outb_graphics _ _ _ (by decide) (by decide), outb_graphics _ _ _ (by decide) (by decide),
    inb_graphics, kept]

/-- The loop over the graphics controller's registers programs its bank. -/
theorem writeBank_graphics (count : Nat) (registers : Nat → Byte) (adapter : Adapter) :
    (writeBank adapterBus construct.graphicsControllerIndexPort
        construct.graphicsControllerDataPort count registers adapter).graphicsController =
      Bank.program ((List.range count).map fun i => (BitVec.ofNat 8 i, registers i))
        adapter.graphicsController := by
  rw [writeBank, Bank.program, List.foldl_map]
  exact (List.foldl_hom Adapter.graphicsController fun _ _ => rfl).symm

/-- A graphics controller register has the byte at its place in the table, whatever the
table and the registers before. -/
theorem writeRegisters_graphics (registers : Nat → Byte) (adapter : Adapter) (i : Nat)
    (inside : i < 9) :
    (writeRegisters adapterBus construct registers adapter).graphicsController.value
        (BitVec.ofNat 8 i) = registers (31 + i) := by
  simp only [writeRegisters, Port8Bit.write, Port8Bit.read]
  rw [outb_graphics _ _ _ (by decide) (by decide), inb_graphics, writeAttributes_graphics,
    writeBank_graphics]
  refine Bank.program_value _ _ _ _ ?_ (List.mem_map.mpr ⟨i, List.mem_range.mpr inside, ?_⟩)
  · have indices : ((List.range 9).map fun i => BitVec.ofNat 8 i).Nodup := by decide
    rwa [List.map_map]
  · have third : 25 + i ≠ 0x03 := by omega
    have seventeenth : 25 + i ≠ 0x11 := by omega
    have place : 1 + (5 + (25 + i)) = 31 + i := by omega
    rw [Function.update_of_ne seventeenth, Function.update_of_ne third, place]

/-- The register that selects the segment holds the table's byte. -/
def Programmed (adapter : Adapter) : Prop := adapter.graphicsController.value 0x06 = 0x05

/-- Setting the mode succeeds from any state of the adapter. -/
theorem setMode_programmed (adapter : Adapter) :
    (setMode adapterBus construct 320 200 8 adapter).1 = true ∧
      Programmed (setMode adapterBus construct 320 200 8 adapter).2 := by
  have supported : supportsMode 320 200 8 = true := by decide
  simp only [setMode, supported, if_true, true_and]
  exact writeRegisters_graphics _ adapter 6 (by decide)

/-- Asking for the segment changes no register. -/
theorem getFrameBufferSegment_programmed (adapter : Adapter) (programmed : Programmed adapter) :
    (getFrameBufferSegment adapterBus construct adapter).1 = 0xA0000 ∧
      Programmed (getFrameBufferSegment adapterBus construct adapter).2 := by
  have value : (adapter.graphicsController.select 0x06).read = 0x05 := programmed
  have graphics : (getFrameBufferSegment adapterBus construct adapter).1 =
      segmentAddress (adapter.graphicsController.select 0x06).read := rfl
  refine ⟨?_, programmed⟩
  rw [graphics, value]
  decide

end BlueOs.ModeSetting
