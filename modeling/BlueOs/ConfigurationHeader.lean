import BlueOs.ConfigurationSpace

/-!
# The configuration header

A function has 256 configuration bytes, four to a register. The descriptor of a device
takes its identification from them; each field is a register shifted down, and what is
above the field falls to the width of its destination. The interrupt line is one byte,
but its field is a word.
-/

namespace BlueOs.ConfigurationHeader

open PeripheralComponentInterconnect ConfigurationSpace

/-- The configuration bytes of a function. -/
def bytes (space : Location → Word) (bus device function : Half) (offset : Byte) : Byte :=
  (space (location bus device function (offset.setWidth 32))).extractLsb'
    (8 * (offset.toNat % 4)) 8

/-- The fields that identify a device are those of the header. -/
structure Identifies (content : Byte → Byte) (deviceDescriptor : DeviceDescriptor) : Prop where
  vendor : deviceDescriptor.vendor_id = content 0x01 ++ content 0x00
  device : deviceDescriptor.device_id = content 0x03 ++ content 0x02
  revision : deviceDescriptor.revision = content 0x08
  interface : deviceDescriptor.interface_id = content 0x09
  subclass : deviceDescriptor.subclass_id = content 0x0A
  class_ : deviceDescriptor.class_id = content 0x0B

/-- All fields are, the interrupt line included. -/
structure Matches (content : Byte → Byte) (deviceDescriptor : DeviceDescriptor) : Prop
    extends Identifies content deviceDescriptor where
  interrupt : deviceDescriptor.interrupt = (content 0x3C).setWidth 32

/-- Two bytes of a register, the lower one first. -/
theorem halves (register : Word) (start : Nat) :
    register.extractLsb' start 16 =
      register.extractLsb' (start + 8) 8 ++ register.extractLsb' start 8 := by
  apply BitVec.eq_of_getLsbD_eq
  intro bit inside
  simp only [BitVec.getLsbD_append, BitVec.getLsbD_extractLsb']
  grind

theorem quarters (register : Word) :
    register = register.extractLsb' 24 8 ++ register.extractLsb' 16 8 ++
      register.extractLsb' 8 8 ++ register.extractLsb' 0 8 := by
  apply BitVec.eq_of_getLsbD_eq
  intro bit inside
  simp only [BitVec.getLsbD_append, BitVec.getLsbD_extractLsb']
  grind

/-- Of four bytes only the lowest is not zero. -/
theorem append_eq_setWidth_iff (top upper middle low : Byte) :
    top ++ upper ++ middle ++ low = low.setWidth 32 ↔ middle = 0 ∧ upper = 0 ∧ top = 0 := by
  constructor
  · intro same
    have bits (bit : Nat) : (top ++ upper ++ middle ++ low).getLsbD bit =
        (low.setWidth 32).getLsbD bit := by rw [same]
    simp only [BitVec.getLsbD_append, BitVec.getLsbD_setWidth] at bits
    refine ⟨?_, ?_, ?_⟩
    · apply BitVec.eq_of_getLsbD_eq
      intro bit inside
      have here := bits (bit + 8)
      grind
    · apply BitVec.eq_of_getLsbD_eq
      intro bit inside
      have here := bits (bit + 16)
      grind
    · apply BitVec.eq_of_getLsbD_eq
      intro bit inside
      have here := bits (bit + 24)
      grind
  · rintro ⟨rfl, rfl, rfl⟩
    apply BitVec.eq_of_getLsbD_eq
    intro bit inside
    simp only [BitVec.getLsbD_append, BitVec.getLsbD_setWidth]
    grind

/-- A register shifted down by the part of an offset below four, cut to a byte. -/
theorem shifted_byte (space : Location → Word) (bus device function : Half) (offset : Byte) :
    (space (location bus device function (offset.setWidth 32)) >>>
        (8 * (offset.setWidth 32 % 4) : Word)).setWidth 8 =
      bytes space bus device function offset := by
  have distance : (8 * (offset.setWidth 32 % 4) : Word).toNat = 8 * (offset.toNat % 4) := by
    have small : offset.toNat < 256 := offset.isLt
    rw [BitVec.toNat_mul, BitVec.toNat_umod, BitVec.toNat_setWidth]
    change 8 * (offset.toNat % 2 ^ 32 % 4) % 2 ^ 32 = 8 * (offset.toNat % 4)
    omega
  rw [BitVec.ushiftRight_eq', distance]
  exact BitVec.setWidth_ushiftRight_eq_extractLsb

section header

variable (portBase : Word) (bus device function : Half) (few : function < 8) (host : Host)
include few

theorem getDeviceDescriptor_identifies :
    Identifies (bytes host.space bus device function)
      (getDeviceDescriptor hostBus construct portBase bus device function host).1 := by
  have field := shifted_byte host.space bus device function
  simp only [getDeviceDescriptor, read_host _ _ _ _ few]
  constructor
  · exact (BitVec.setWidth_ushiftRight_eq_extractLsb).trans (halves _ 0)
  · exact (BitVec.setWidth_ushiftRight_eq_extractLsb).trans (halves _ 16)
  · exact field 0x08
  · exact field 0x09
  · exact field 0x0A
  · exact field 0x0B

/-- The word that the interrupt line begins. -/
theorem getDeviceDescriptor_interrupt :
    (getDeviceDescriptor hostBus construct portBase bus device function host).1.interrupt =
      bytes host.space bus device function 0x3F ++ bytes host.space bus device function 0x3E ++
        bytes host.space bus device function 0x3D ++
        bytes host.space bus device function 0x3C := by
  simp only [getDeviceDescriptor, read_host _ _ _ _ few]
  exact (BitVec.ushiftRight_zero _).trans (quarters _)

theorem getDeviceDescriptor_matches_iff :
    Matches (bytes host.space bus device function)
        (getDeviceDescriptor hostBus construct portBase bus device function host).1 ↔
      bytes host.space bus device function 0x3D = 0 ∧
        bytes host.space bus device function 0x3E = 0 ∧
        bytes host.space bus device function 0x3F = 0 := by
  have word := getDeviceDescriptor_interrupt portBase bus device function few host
  rw [← append_eq_setWidth_iff _ _ _ (bytes host.space bus device function 0x3C), ← word]
  constructor
  · intro whole
    exact whole.interrupt
  · intro line
    exact ⟨getDeviceDescriptor_identifies portBase bus device function few host, line⟩

end header

/-- For every content of the configuration bytes the descriptor has the identification of
the header, and it has the interrupt line exactly if the three bytes above it are zero. -/
theorem descriptor_matches_iff (portBase : Word) (bus device function : Half) (few : function < 8)
    (host : Host) :
    Identifies (bytes host.space bus device function)
        (getDeviceDescriptor hostBus construct portBase bus device function host).1 ∧
      (Matches (bytes host.space bus device function)
          (getDeviceDescriptor hostBus construct portBase bus device function host).1 ↔
        bytes host.space bus device function 0x3D = 0 ∧
          bytes host.space bus device function 0x3E = 0 ∧
          bytes host.space bus device function 0x3F = 0) :=
  ⟨getDeviceDescriptor_identifies portBase bus device function few host,
    getDeviceDescriptor_matches_iff portBase bus device function few host⟩

/-- A function whose interrupt line is 0x0B, as the low byte of a word. -/
def interruptHost (word : Word) : Host where
  address := 0
  space place := if place.register = 0x0F then word else 0

/-- Nothing above the interrupt line. -/
theorem descriptor_matches_iff_line :
    Matches (bytes (interruptHost 0x0B).space 0 3 0)
      (getDeviceDescriptor hostBus construct 0 0 3 0 (interruptHost 0x0B)).1 :=
  (descriptor_matches_iff 0 0 3 0 (by decide) (interruptHost 0x0B)).2.mpr (by decide)

/-- With the interrupt pin set, it is read as part of the interrupt line. -/
theorem interrupt_pin_read :
    ¬Matches (bytes (interruptHost 0x010B).space 0 3 0)
      (getDeviceDescriptor hostBus construct 0 0 3 0 (interruptHost 0x010B)).1 := by
  rw [getDeviceDescriptor_matches_iff 0 0 3 0 (by decide)]
  decide

end BlueOs.ConfigurationHeader
