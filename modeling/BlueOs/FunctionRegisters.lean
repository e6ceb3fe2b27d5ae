import BlueOs.ConfigurationSpace

/-!
# Registers of a function

The identification of a function, its header type and its base address registers, taken
from configuration space itself, and that the access functions of the controller find
them there without changing a register.
-/

namespace BlueOs.FunctionRegisters

open PeripheralComponentInterconnect ConfigurationSpace

/-- Where a function may be. -/
structure Place where
  bus : Nat
  device : Nat
  function : Nat
deriving DecidableEq

/-- The register at an offset into the configuration bytes of a function. -/
def Place.location (place : Place) (registerOffset : Word) : Location :=
  ConfigurationSpace.location (BitVec.ofNat 16 place.bus) (BitVec.ofNat 16 place.device)
    (BitVec.ofNat 16 place.function) registerOffset

section registers

variable (space : Location → Word) (place : Place)

def vendorId : Half := (space (place.location 0x00)).extractLsb' 0 16

def deviceId : Half := (space (place.location 0x00)).extractLsb' 16 16

def headerType : Byte := (space (place.location 0x0C)).extractLsb' 16 8

/-- Bit 7 of the header type of its first function says that a device has several. -/
def several (bus device : Nat) : Bool := (headerType space ⟨bus, device, 0⟩).getLsbD 7

/-- How many base address registers a function has. -/
def registerCount : Nat :=
  match ((headerType space place).setWidth 7).toNat with
  | 0 => 6
  | 1 => 2
  | _ => 0

/-- The register at the place of a base address register. -/
def barValue (barNum : Nat) : Word := space (place.location (0x10 + 4 * BitVec.ofNat 32 barNum))

/-- What a probe leaves in its result. -/
def probe (result : BaseAddressRegister) (barNum : Nat) : BaseAddressRegister :=
  if registerCount space place ≤ barNum then result
  else if (barValue space place barNum).getLsbD 0 then
    { result with
      type := .InputOutput
      address := barValue space place barNum &&& ~~~0x3
      prefetchable := false }
  else { result with type := .MemoryMapping }

end registers

/-- The field of a header type below its bit 7. -/
theorem layout_toNat (register : Word) :
    (register >>> (16 : Word) &&& 0x7F).toNat =
      ((register.extractLsb' 16 8).setWidth 7).toNat := by
  rw [BitVec.setWidth_extractLsb'_of_le (by decide), BitVec.extractLsb'_toNat]
  exact Nat.and_two_pow_sub_one_eq_mod (register.toNat >>> 16) 7

/-- The signed limit that the source computes from a header type. -/
theorem limit_le (layout : Word) (small : layout.toNat < 128) (barNum : Nat) (six : barNum < 6) :
    (6 - 4 * layout).sle ((BitVec.ofNat 16 barNum).setWidth 32) = true ↔
      6 - 4 * (layout.toNat : Int) ≤ barNum := by
  have limit : (6 - 4 * layout).toInt = 6 - 4 * (layout.toNat : Int) := by
    have product : (4 * layout).toNat = 4 * layout.toNat := by
      rw [BitVec.toNat_mul]
      exact Nat.mod_eq_of_lt (show 4 * layout.toNat < 2 ^ 32 by omega)
    have base : (6 : Word).toInt = 6 := rfl
    rw [BitVec.toInt_sub, base, BitVec.toInt_eq_toNat_of_lt (by omega), product]
    apply Int.bmod_eq_of_le
    all_goals omega
  have number : ((BitVec.ofNat 16 barNum).setWidth 32).toInt = barNum := by
    have value : ((BitVec.ofNat 16 barNum).setWidth 32).toNat = barNum := by
      rw [BitVec.toNat_setWidth, BitVec.toNat_ofNat]
      omega
    rw [BitVec.toInt_eq_toNat_of_lt (by omega), value]
  rw [BitVec.sle_iff_toInt_le, limit, number]

/-- Beyond the limit are the numbers that the header type gives no register. -/
theorem limit_le_iff (space : Location → Word) (place : Place) (barNum : Nat) (six : barNum < 6) :
    (6 - 4 * (space (place.location 0x0C) >>> (16 : Word) &&& 0x7F)).sle
        ((BitVec.ofNat 16 barNum).setWidth 32) = true ↔
      registerCount space place ≤ barNum := by
  have field := layout_toNat (space (place.location 0x0C))
  have small := ((headerType space place).setWidth 7).isLt
  rw [limit_le _ (by rw [field]; exact small) barNum six, field]
  rw [registerCount, headerType]
  rcases eq : (((space (place.location 0x0C)).extractLsb' 16 8).setWidth 7).toNat with _ | _ | more
  · simp only [Nat.cast_zero]; omega
  · simp only [zero_add, Nat.cast_one]; omega
  · simp only [Nat.cast_add]; omega

/-- Masking with a single bit tests it. -/
theorem and_bit_eq_zero (register : Word) (bit : Nat) (inside : bit < 32) :
    register &&& BitVec.twoPow 32 bit = 0 ↔ register.getLsbD bit = false := by
  rw [BitVec.and_twoPow]
  cases register.getLsbD bit with
  | false => exact iff_of_true rfl rfl
  | true =>
    simp only [if_true, Bool.true_eq_false, iff_false]
    intro zero
    have same := congrArg (BitVec.getLsbD · bit) zero
    simp [inside] at same

section accesses

variable (place : Place) (few : place.function < 8) (host : Host)
include few

theorem read_place (registerOffset : Word) :
    read hostBus construct (BitVec.ofNat 16 place.bus) (BitVec.ofNat 16 place.device)
        (BitVec.ofNat 16 place.function) registerOffset host =
      (host.space (place.location registerOffset) >>> (8 * (registerOffset % 4)),
        { host with
          address := configAddress (BitVec.ofNat 16 place.bus) (BitVec.ofNat 16 place.device)
            (BitVec.ofNat 16 place.function) registerOffset }) := by
  apply read_host
  rw [BitVec.lt_def, BitVec.toNat_ofNat]
  exact Nat.lt_of_le_of_lt (Nat.mod_le _ _) few

/-- A descriptor holds the identification that the registers give. -/
theorem getDeviceDescriptor_place (portBase : Word) :
    ∃ deviceDescriptor address,
      getDeviceDescriptor hostBus construct portBase (BitVec.ofNat 16 place.bus)
          (BitVec.ofNat 16 place.device) (BitVec.ofNat 16 place.function) host =
        (deviceDescriptor, { host with address := address }) ∧
      deviceDescriptor.vendor_id = vendorId host.space place ∧
      deviceDescriptor.device_id = deviceId host.space place := by
  have vendor : (host.space (place.location 0x00) >>> (8 * (0x00 % 4) : Word)).setWidth 16 =
      vendorId host.space place :=
    BitVec.setWidth_ushiftRight_eq_extractLsb
  have device : (host.space (place.location 0x02) >>> (8 * (0x02 % 4) : Word)).setWidth 16 =
      deviceId host.space place :=
    BitVec.setWidth_ushiftRight_eq_extractLsb
  simp only [getDeviceDescriptor, read_place place few]
  exact ⟨_, _, rfl, vendor, device⟩

theorem getBaseAddressRegister_place (result : BaseAddressRegister) (barNum : Nat)
    (six : barNum < 6) :
    ∃ address,
      getBaseAddressRegister hostBus construct result (BitVec.ofNat 16 place.bus)
          (BitVec.ofNat 16 place.device) (BitVec.ofNat 16 place.function)
          (BitVec.ofNat 16 barNum) host =
        (probe host.space place result barNum, { host with address := address }) := by
  have limit := limit_le_iff host.space place barNum six
  have shift : (8 : Word) * (0x0E % 4) = 16 := by decide
  have header : place.location 0x0E = place.location 0x0C := rfl
  have number : (BitVec.ofNat 16 barNum).setWidth 32 = BitVec.ofNat 32 barNum := by
    exact BitVec.setWidth_ofNat_of_le_of_lt (by decide) (by omega)
  have aligned : (8 : Word) * ((0x10 + 4 * BitVec.ofNat 32 barNum) % 4) = 0 := by
    interval_cases barNum <;> rfl
  have bit := and_bit_eq_zero (barValue host.space place barNum) 0 (by decide)
  rw [number] at limit
  simp only [getBaseAddressRegister, read_place place few, shift, header, number, aligned]
  by_cases beyond : registerCount host.space place ≤ barNum
  · rw [if_pos (limit.mpr beyond), probe, if_pos beyond]
    exact ⟨_, rfl⟩
  · rw [if_neg (mt limit.mp beyond), probe, if_neg beyond]
    have whole : host.space (place.location (0x10 + 4 * BitVec.ofNat 32 barNum)) >>> (0 : Word) =
        barValue host.space place barNum := BitVec.ushiftRight_zero _
    rw [whole]
    by_cases memory : (barValue host.space place barNum).getLsbD 0 = true
    · rw [if_pos memory, if_neg]
      · exact ⟨_, rfl⟩
      · intro clear
        exact Bool.noConfusion (memory.symm.trans (bit.mp clear))
    · rw [if_neg memory, if_pos]
      · exact ⟨_, rfl⟩
      · exact bit.mpr (Bool.eq_false_iff.mpr memory)

end accesses

theorem hasFunctions_host (bus device : Nat) (host : Host) :
    ∃ address,
      hasFunctions hostBus construct (BitVec.ofNat 16 bus) (BitVec.ofNat 16 device) host =
        (several host.space bus device, { host with address := address }) := by
  have first : read hostBus construct (BitVec.ofNat 16 bus) (BitVec.ofNat 16 device) 0 0x0E host =
      (host.space (Place.location ⟨bus, device, 0⟩ 0x0C) >>> (16 : Word),
        { host with
          address := configAddress (BitVec.ofNat 16 bus) (BitVec.ofNat 16 device) 0 0x0E }) :=
    read_host _ _ _ _ (by decide) _
  have bit := and_bit_eq_zero (host.space (Place.location ⟨bus, device, 0⟩ 0x0C) >>> (16 : Word)) 7
    (by decide)
  have top : (host.space (Place.location ⟨bus, device, 0⟩ 0x0C) >>> (16 : Word)).getLsbD 7 =
      several host.space bus device := by
    rw [several, headerType, BitVec.getLsbD_extractLsb']
    exact BitVec.getLsbD_ushiftRight _ _ _
  rw [top] at bit
  simp only [hasFunctions, first]
  have answer : decide (host.space (Place.location ⟨bus, device, 0⟩ 0x0C) >>> (16 : Word) &&&
      ((1 : Word) <<< 7) ≠ 0) = several host.space bus device := by
    rw [← Bool.coe_iff_coe, decide_eq_true_eq]
    exact (not_congr bit).trans (iff_of_eq (Bool.not_eq_false _))
  rw [answer]
  exact ⟨_, rfl⟩

end BlueOs.FunctionRegisters
