import BlueOs.DeviceEnumeration

/-!
# Port bases

The loop over the base address registers probes six places whatever the header type.
A probe beyond the registers of a function returns what its result happened to hold, and
the upper half of a 64-bit register is read like a register of its own. The port base is
right exactly when no such probe is taken for an I/O register with another base.
-/

namespace BlueOs.PortBases

open PeripheralComponentInterconnect ConfigurationSpace FunctionRegisters DeviceEnumeration

section registers

variable (space : Location → Word) (place : Place)

/-- A memory register of 64 bits, by its lowest three bits. -/
def Wide (value : Word) : Prop := value.extractLsb' 0 3 = 0b100

instance (value : Word) : Decidable (Wide value) := inferInstanceAs (Decidable (_ = _))

/-- The base address registers of a function: those that its header type allows, without
the upper halves of wide ones. -/
def isRegister : Nat → Bool
  | 0 => decide (0 < registerCount space place)
  | barNum + 1 => decide (barNum + 1 < registerCount space place) &&
      !(isRegister barNum && decide (Wide (barValue space place barNum)))

/-- The base that a register gives. -/
def base (barNum : Nat) : Word := barValue space place barNum &&& ~~~0x3

/-- The base of an I/O register of the function. -/
def IsBase (value : Word) : Prop :=
  ∃ barNum, isRegister space place barNum = true ∧ (barValue space place barNum).getLsbD 0 = true ∧
    value = base space place barNum

theorem isRegister_lt (barNum : Nat) (register : isRegister space place barNum = true) :
    barNum < registerCount space place := by
  cases barNum with
  | zero => exact of_decide_eq_true register
  | succ barNum =>
    rw [isRegister, Bool.and_eq_true] at register
    exact of_decide_eq_true register.1

end registers

section probes

variable (uninitialised : Nat → Nat → Nat → Uninitialised) (space : Location → Word)
  (place : Place)

/-- What a probe is given before it assigns anything. -/
def leftover (barNum : Nat) : BaseAddressRegister :=
  (uninitialised place.bus place.device place.function).register barNum

/-- A probe of what is no register is not taken for an I/O register, or not for one with
another base. Beyond the registers this depends on what the result happened to hold,
within them on the upper half of an address. -/
structure Harmless (barNum : Nat) : Prop where
  beyond : registerCount space place ≤ barNum →
    (leftover uninitialised place barNum).type = .InputOutput →
    (leftover uninitialised place barNum).address ≠ 0 →
    IsBase space place (leftover uninitialised place barNum).address
  within : barNum < registerCount space place → (barValue space place barNum).getLsbD 0 = true →
    base space place barNum ≠ 0 → IsBase space place (base space place barNum)

theorem mem_probed (barNum : Nat) (assignment : Assignment) :
    assignment ∈ probed uninitialised space place barNum ↔
      ((probe space place (leftover uninitialised place barNum) barNum).address ≠ 0 ∧
        (probe space place (leftover uninitialised place barNum) barNum).type = .InputOutput) ∧
      assignment = ⟨place.bus, place.device, place.function,
        (probe space place (leftover uninitialised place barNum) barNum).address⟩ := by
  simp only [probed, leftover]
  split
  · rename_i taken
    rw [List.mem_singleton]
    exact (and_iff_right taken).symm
  · rename_i passed
    exact iff_of_false List.not_mem_nil (fun both => passed both.1)

/-- Within the registers of a function a probe reports what it reads there. -/
theorem mem_probed_within (barNum : Nat) (inside : barNum < registerCount space place)
    (assignment : Assignment) :
    assignment ∈ probed uninitialised space place barNum ↔
      ((barValue space place barNum).getLsbD 0 = true ∧ base space place barNum ≠ 0) ∧
        assignment = ⟨place.bus, place.device, place.function, base space place barNum⟩ := by
  rw [mem_probed, probe, if_neg (Nat.not_le.mpr inside)]
  by_cases port : (barValue space place barNum).getLsbD 0 = true
  · rw [if_pos port]
    exact and_congr_left' (and_comm.trans (and_congr_left' (iff_of_true rfl port)))
  · rw [if_neg port]
    constructor
    · rintro ⟨⟨_, memory⟩, _⟩
      cases memory
    · rintro ⟨⟨port', _⟩, _⟩
      exact absurd port' port

/-- Beyond them it reports what the result happened to hold. -/
theorem mem_probed_beyond (barNum : Nat) (outside : registerCount space place ≤ barNum)
    (assignment : Assignment) :
    assignment ∈ probed uninitialised space place barNum ↔
      ((leftover uninitialised place barNum).address ≠ 0 ∧
        (leftover uninitialised place barNum).type = .InputOutput) ∧
        assignment = ⟨place.bus, place.device, place.function,
          (leftover uninitialised place barNum).address⟩ := by
  rw [mem_probed, probe, if_pos outside]

/-- A probe assigns only bases if it is of a register or does no harm. -/
theorem probed_bases_iff (barNum : Nat) :
    (∀ assignment ∈ probed uninitialised space place barNum,
        IsBase space place assignment.portBase) ↔
      (isRegister space place barNum = false → Harmless uninitialised space place barNum) := by
  constructor
  · intro bases _
    constructor
    · intro outside port nonzero
      exact bases _ ((mem_probed_beyond uninitialised space place barNum outside _).mpr
        ⟨⟨nonzero, port⟩, rfl⟩)
    · intro inside port nonzero
      exact bases _ ((mem_probed_within uninitialised space place barNum inside _).mpr
        ⟨⟨port, nonzero⟩, rfl⟩)
  · intro harmless assignment assigned
    rcases Nat.lt_or_ge barNum (registerCount space place) with inside | outside
    · obtain ⟨⟨port, nonzero⟩, rfl⟩ :=
        (mem_probed_within uninitialised space place barNum inside assignment).mp assigned
      cases register : isRegister space place barNum with
      | true => exact ⟨barNum, register, port, rfl⟩
      | false => exact (harmless register).within inside port nonzero
    · obtain ⟨⟨nonzero, port⟩, rfl⟩ :=
        (mem_probed_beyond uninitialised space place barNum outside assignment).mp assigned
      have register : isRegister space place barNum = false := by
        rw [Bool.eq_false_iff]
        intro register
        exact absurd (isRegister_lt space place barNum register) (Nat.not_lt.mpr outside)
      exact (harmless register).beyond outside port nonzero

end probes

/-- What is assigned is what the probes of the functions that answer assign. -/
theorem mem_assigned (uninitialised : Nat → Nat → Nat → Uninitialised) (host : Host)
    (assignment : Assignment) :
    assignment ∈ (selectDrivers hostBus construct uninitialised ⟨host, [], []⟩).assigned ↔
      ∃ place ∈ present host.space, ∃ barNum < 6,
        assignment ∈ probed uninitialised host.space place barNum := by
  have scanned := (selectDrivers_extends uninitialised ⟨host, [], []⟩).assigned_added
  rw [scanned]
  simp only [List.nil_append, List.mem_flatMap, assignments, List.mem_range]

/-- Every port base assigned is the base of an I/O register of its function exactly when,
at every function that answers, the probes of what is no register do no harm. -/
theorem port_bases_iff (uninitialised : Nat → Nat → Nat → Uninitialised) (host : Host) :
    (∀ assignment ∈ (selectDrivers hostBus construct uninitialised ⟨host, [], []⟩).assigned,
        IsBase host.space ⟨assignment.bus, assignment.device, assignment.function⟩
          assignment.portBase) ↔
      ∀ place ∈ present host.space, ∀ barNum < 6, isRegister host.space place barNum = false →
        Harmless uninitialised host.space place barNum := by
  constructor
  · intro bases place listed barNum six
    apply (probed_bases_iff uninitialised host.space place barNum).mp
    intro assignment assigned
    have isBase := bases assignment
      ((mem_assigned uninitialised host assignment).mpr ⟨place, listed, barNum, six, assigned⟩)
    obtain ⟨_, rfl⟩ := (mem_probed uninitialised host.space place barNum assignment).mp assigned
    exact isBase
  · intro harmless assignment assigned
    obtain ⟨place, listed, barNum, six, assigned⟩ :=
      (mem_assigned uninitialised host assignment).mp assigned
    have isBase := (probed_bases_iff uninitialised host.space place barNum).mpr
      (harmless place listed barNum six) assignment assigned
    obtain ⟨_, rfl⟩ := (mem_probed uninitialised host.space place barNum assignment).mp assigned
    exact isBase

/-- One function with a 64-bit memory register at an address above four gigabytes. -/
def wideMemory : Host where
  address := 0
  space location :=
    if location = Place.location ⟨0, 1, 0⟩ 0x00 then 0x11112222
    else if location = Place.location ⟨0, 1, 0⟩ 0x10 then 0x00000004
    else if location = Place.location ⟨0, 1, 0⟩ 0x14 then 0x000000C1
    else 0

/-- One function whose header type has no base address registers. -/
def withoutRegisters : Host where
  address := 0
  space location :=
    if location = Place.location ⟨0, 1, 0⟩ 0x00 then 0x11112222
    else if location = Place.location ⟨0, 1, 0⟩ 0x0C then 0x00020000
    else 0

/-- Every result happens to hold the same port. -/
def samePort (_bus _device _function : Nat) : Uninitialised where
  portBase := 0
  register _ := ⟨false, 0xC000, 0, .InputOutput⟩

/-- The upper half of the address of a memory register, and what a result happened to
hold, are assigned as port bases. -/
theorem port_bases_invented :
    (¬∀ assignment ∈ (selectDrivers hostBus construct samePort ⟨wideMemory, [], []⟩).assigned,
        IsBase wideMemory.space ⟨assignment.bus, assignment.device, assignment.function⟩
          assignment.portBase) ∧
      ¬∀ assignment ∈
        (selectDrivers hostBus construct samePort ⟨withoutRegisters, [], []⟩).assigned,
        IsBase withoutRegisters.space ⟨assignment.bus, assignment.device, assignment.function⟩
          assignment.portBase := by
  constructor
  · intro bases
    have assigned : (⟨0, 1, 0, 0xC0⟩ : Assignment) ∈
        (selectDrivers hostBus construct samePort ⟨wideMemory, [], []⟩).assigned :=
      (mem_assigned samePort wideMemory _).mpr
        ⟨⟨0, 1, 0⟩, (mem_present _ _).mpr (by decide), 1, by decide, by decide⟩
    obtain ⟨barNum, register, port, _⟩ := bases _ assigned
    have few : barNum < 6 := isRegister_lt _ _ barNum register
    interval_cases barNum <;> revert register port <;> decide
  · intro bases
    have assigned : (⟨0, 1, 0, 0xC000⟩ : Assignment) ∈
        (selectDrivers hostBus construct samePort ⟨withoutRegisters, [], []⟩).assigned :=
      (mem_assigned samePort withoutRegisters _).mpr
        ⟨⟨0, 1, 0⟩, (mem_present _ _).mpr (by decide), 0, by decide, by decide⟩
    obtain ⟨barNum, register, _⟩ := bases _ assigned
    have few : barNum < 0 := isRegister_lt _ _ barNum register
    exact absurd few (Nat.not_lt_zero barNum)

end BlueOs.PortBases
