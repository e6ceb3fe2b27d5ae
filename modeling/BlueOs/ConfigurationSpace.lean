import BlueOs.PeripheralComponentInterconnect
import Mathlib.Tactic.IntervalCases

/-!
# Registers of configuration space

The host bridge keeps the last address and gives access to the register that its
fields name. Packing is injective for the numbers that the fields can hold, so what is
written to one register is not read at another. A read shifts the register by the part
of the offset below four bytes; a write replaces the whole register.
-/

namespace BlueOs.ConfigurationSpace

open Port PeripheralComponentInterconnect

/-- A register of a function. -/
structure Location where
  bus : BitVec 8
  device : BitVec 5
  function : BitVec 3
  register : BitVec 6
deriving DecidableEq

/-- The fields of an address. -/
def locate (address : Word) : Location where
  bus := address.extractLsb' 16 8
  device := address.extractLsb' 11 5
  function := address.extractLsb' 8 3
  register := address.extractLsb' 2 6

/-- The host bridge: its address port and the registers behind it. -/
structure Host where
  address : Word
  space : Location → Word

def hostBus : WideBus Host where
  inl port host :=
    if port = 0xCFC then (host.space (locate host.address), host)
    else if port = 0xCF8 then (host.address, host)
    else (0xFFFFFFFF, host)
  outl port value host :=
    if port = 0xCF8 then { host with address := value }
    else if port = 0xCFC then
      { host with space := Function.update host.space (locate host.address) value }
    else host

/-- The register that an offset into the configuration bytes of a function lies in. -/
def location (bus device function : Half) (registerOffset : Word) : Location where
  bus := bus.setWidth 8
  device := device.setWidth 5
  function := function.setWidth 3
  register := (registerOffset >>> 2).setWidth 6

/-- Every field arrives where the host looks for it. -/
theorem locate_configAddress (bus device function : Half) (registerOffset : Word)
    (few : function < 8) :
    locate (configAddress bus device function registerOffset) =
      location bus device function registerOffset := by
  -- Only bit 3 of a function would reach into the device's field.
  have top : function[3] = false := by
    rw [BitVec.getElem_eq_testBit_toNat]
    exact Nat.testBit_lt_two_pow few
  rw [locate, location, Location.mk.injEq]
  refine ⟨?_, ?_, ?_, ?_⟩
  · apply BitVec.eq_of_getLsbD_eq
    intro bit inside
    interval_cases bit <;> simp [configAddress]
  · apply BitVec.eq_of_getLsbD_eq
    intro bit inside
    interval_cases bit <;> simp [configAddress, top]
  · apply BitVec.eq_of_getLsbD_eq
    intro bit inside
    interval_cases bit <;> simp [configAddress]
  · apply BitVec.eq_of_getLsbD_eq
    intro bit inside
    interval_cases bit <;> simp [configAddress]

section accesses

variable (bus device function : Half) (registerOffset : Word) (few : function < 8) (host : Host)
include few

/-- A read leaves the registers as they are. -/
theorem read_host :
    read hostBus construct bus device function registerOffset host =
      (host.space (location bus device function registerOffset) >>> (8 * (registerOffset % 4)),
        { host with address := configAddress bus device function registerOffset }) := by
  rw [← locate_configAddress bus device function registerOffset few]
  rfl

theorem write_host (data : Word) :
    write hostBus construct bus device function registerOffset data host =
      { address := configAddress bus device function registerOffset
        space := Function.update host.space (location bus device function registerOffset)
          data } := by
  rw [← locate_configAddress bus device function registerOffset few]
  rfl

end accesses

/-- A number that fits a field is determined by it. -/
theorem setWidth_inj (width : Nat) (one other : Half) (small : one.toNat < 2 ^ width)
    (small' : other.toNat < 2 ^ width) :
    one.setWidth width = other.setWidth width ↔ one = other := by
  constructor
  · intro same
    have values := congrArg BitVec.toNat same
    rw [BitVec.toNat_setWidth, BitVec.toNat_setWidth, Nat.mod_eq_of_lt small,
      Nat.mod_eq_of_lt small'] at values
    exact BitVec.eq_of_toNat_eq values
  · exact congrArg _

/-- The register number of an offset. -/
theorem register_toNat (registerOffset : Word) (small : registerOffset < 256) :
    ((registerOffset >>> 2).setWidth 6).toNat = registerOffset.toNat / 4 := by
  have bound : registerOffset.toNat < 256 := small
  rw [BitVec.toNat_setWidth, BitVec.toNat_ushiftRight, Nat.shiftRight_eq_div_pow]
  exact Nat.mod_eq_of_lt (by omega)

/-- Numbers that fit their fields share a register only if they are equal, up to the part
of the offset below four bytes. -/
theorem location_eq_iff (bus device function bus' device' function' : Half)
    (registerOffset registerOffset' : Word)
    (buses : bus < 256 ∧ bus' < 256) (devices : device < 32 ∧ device' < 32)
    (functions : function < 8 ∧ function' < 8)
    (offsets : registerOffset < 256 ∧ registerOffset' < 256) :
    location bus device function registerOffset =
        location bus' device' function' registerOffset' ↔
      (bus = bus' ∧ device = device' ∧ function = function') ∧
        registerOffset.toNat / 4 = registerOffset'.toNat / 4 := by
  have register : (registerOffset >>> 2).setWidth 6 = (registerOffset' >>> 2).setWidth 6 ↔
      registerOffset.toNat / 4 = registerOffset'.toNat / 4 := by
    rw [← register_toNat registerOffset offsets.1, ← register_toNat registerOffset' offsets.2]
    exact BitVec.toNat_inj.symm
  rw [location, location, Location.mk.injEq, setWidth_inj 8 bus bus' buses.1 buses.2,
    setWidth_inj 5 device device' devices.1 devices.2,
    setWidth_inj 3 function function' functions.1 functions.2, register]
  constructor
  · rintro ⟨one, two, three, four⟩
    exact ⟨⟨one, two, three⟩, four⟩
  · rintro ⟨⟨one, two, three⟩, four⟩
    exact ⟨one, two, three, four⟩

section write_read

variable (bus device function : Half) (registerOffset data : Word) (host : Host)
  (few : function < 8)
include few

theorem read_write_same :
    (read hostBus construct bus device function registerOffset
        (write hostBus construct bus device function registerOffset data host)).1 =
      data >>> (8 * (registerOffset % 4)) := by
  rw [read_host _ _ _ _ few, write_host _ _ _ _ few]
  dsimp only
  rw [Function.update_self]

theorem read_write_other (bus' device' function' : Half) (registerOffset' : Word)
    (few' : function' < 8)
    (apart : location bus' device' function' registerOffset' ≠
      location bus device function registerOffset) :
    (read hostBus construct bus' device' function' registerOffset'
        (write hostBus construct bus device function registerOffset data host)).1 =
      (read hostBus construct bus' device' function' registerOffset' host).1 := by
  rw [read_host _ _ _ _ few', read_host _ _ _ _ few', write_host _ _ _ _ few]
  dsimp only
  rw [Function.update_of_ne apart]

end write_read

/-- `readByte` does what `read` does. -/
theorem readByte_eq {δ : Type} (ports : WideBus δ) (pci : Controller) :
    readByte ports pci = read ports pci := rfl

/-- After a write, a read at the same place gives the value written, shifted by the part
of the offset below four bytes; at an aligned offset this is the value itself. A read in
another function or another register gives what it gave before. -/
theorem write_then_read (bus device function : Half) (registerOffset data : Word) (host : Host)
    (fits : bus < 256 ∧ device < 32 ∧ function < 8 ∧ registerOffset < 256) :
    ((read hostBus construct bus device function registerOffset
          (write hostBus construct bus device function registerOffset data host)).1 =
        data >>> (8 * (registerOffset % 4)) ∧
      (readByte hostBus construct bus device function registerOffset
          (write hostBus construct bus device function registerOffset data host)).1 =
        data >>> (8 * (registerOffset % 4))) ∧
      (registerOffset % 4 = 0 → data >>> (8 * (registerOffset % 4)) = data) ∧
      ∀ bus' device' function' registerOffset',
        bus' < 256 ∧ device' < 32 ∧ function' < 8 ∧ registerOffset' < 256 →
        (bus, device, function) ≠ (bus', device', function') ∨
          registerOffset.toNat / 4 ≠ registerOffset'.toNat / 4 →
        (read hostBus construct bus' device' function' registerOffset'
            (write hostBus construct bus device function registerOffset data host)).1 =
          (read hostBus construct bus' device' function' registerOffset' host).1 ∧
        (readByte hostBus construct bus' device' function' registerOffset'
            (write hostBus construct bus device function registerOffset data host)).1 =
          (readByte hostBus construct bus' device' function' registerOffset' host).1 := by
  obtain ⟨busFits, deviceFits, few, offsetFits⟩ := fits
  have same := read_write_same bus device function registerOffset data host few
  simp only [readByte_eq]
  refine ⟨⟨same, same⟩, ?_, ?_⟩
  · intro aligned
    rw [aligned]
    exact BitVec.ushiftRight_zero data
  · rintro bus' device' function' registerOffset' ⟨busFits', deviceFits', few', offsetFits'⟩
      elsewhere
    have apart : location bus' device' function' registerOffset' ≠
        location bus device function registerOffset := by
      intro shared
      obtain ⟨⟨rfl, rfl, rfl⟩, register⟩ := (location_eq_iff bus device function bus' device'
        function' registerOffset registerOffset' ⟨busFits, busFits'⟩ ⟨deviceFits, deviceFits'⟩
        ⟨few, few'⟩ ⟨offsetFits, offsetFits'⟩).mp shared.symm
      rcases elsewhere with place | offset
      · exact place rfl
      · exact offset register
    have other := read_write_other bus device function registerOffset data host few bus' device'
      function' registerOffset' few' apart
    exact ⟨other, other⟩

/-- All registers zero. -/
def blank : Host where
  address := 0
  space _ := 0

/-- The last register of a function, at an aligned offset. -/
theorem write_then_read_last :
    (read hostBus construct 255 31 7 0xFC
      (write hostBus construct 255 31 7 0xFC 0x12345678 blank)).1 = 0x12345678 := by
  obtain ⟨⟨same, _⟩, aligned, _⟩ := write_then_read 255 31 7 0xFC 0x12345678 blank (by decide)
  exact same.trans (aligned (by decide))

/-- At an offset that is not aligned, the low bits of the value are not read back. -/
theorem unaligned_not_read_back :
    (read hostBus construct 0 3 0 0x3D
      (write hostBus construct 0 3 0 0x3D 0x01 blank)).1 ≠ 0x01 := by
  rw [read_write_same 0 3 0 0x3D 0x01 blank (by decide)]
  decide

end BlueOs.ConfigurationSpace
