import Mathlib.Data.BitVec

/-!
# I/O ports

The processor reaches devices through numbered ports. A bus says what its `in` and
`out` instructions do to the devices behind the ports; the port classes are a
number each.
-/

namespace BlueOs.Port

/-- The `in` and `out` instructions of the two narrower widths. -/
structure Bus (δ : Type) where
  inb : BitVec 16 → δ → BitVec 8 × δ
  outb : BitVec 16 → BitVec 8 → δ → δ
  inw : BitVec 16 → δ → BitVec 16 × δ
  outw : BitVec 16 → BitVec 16 → δ → δ

variable {δ : Type} (bus : Bus δ)

structure Port8Bit where
  portnumber : BitVec 16
deriving DecidableEq

def Port8Bit.read (port : Port8Bit) (devices : δ) : BitVec 8 × δ :=
  bus.inb port.portnumber devices

def Port8Bit.write (port : Port8Bit) (data : BitVec 8) (devices : δ) : δ :=
  bus.outb port.portnumber data devices

structure Port16Bit where
  portnumber : BitVec 16
deriving DecidableEq

def Port16Bit.read (port : Port16Bit) (devices : δ) : BitVec 16 × δ :=
  bus.inw port.portnumber devices

def Port16Bit.write (port : Port16Bit) (data : BitVec 16) (devices : δ) : δ :=
  bus.outw port.portnumber data devices

/-- The `in` and `out` instructions of the widest width. -/
structure WideBus (δ : Type) where
  inl : BitVec 16 → δ → BitVec 32 × δ
  outl : BitVec 16 → BitVec 32 → δ → δ

structure Port32Bit where
  portnumber : BitVec 16
deriving DecidableEq

variable (ports : WideBus δ) in
def Port32Bit.read (port : Port32Bit) (devices : δ) : BitVec 32 × δ :=
  ports.inl port.portnumber devices

variable (ports : WideBus δ) in
def Port32Bit.write (port : Port32Bit) (data : BitVec 32) (devices : δ) : δ :=
  ports.outl port.portnumber data devices

/-- A write that the processor made to a port. -/
inductive PortWrite where
  | outb (port : BitVec 16) (value : BitVec 8)
  | outw (port : BitVec 16) (value : BitVec 16)
deriving DecidableEq

/-- The devices with a record of the writes made to them, oldest first. -/
def recorded : Bus (δ × List PortWrite) where
  inb port devices := ((bus.inb port devices.1).1, (bus.inb port devices.1).2, devices.2)
  outb port value devices := (bus.outb port value devices.1, devices.2 ++ [.outb port value])
  inw port devices := ((bus.inw port devices.1).1, (bus.inw port devices.1).2, devices.2)
  outw port value devices := (bus.outw port value devices.1, devices.2 ++ [.outw port value])

end BlueOs.Port
