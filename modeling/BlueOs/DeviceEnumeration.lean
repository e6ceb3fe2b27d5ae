import BlueOs.FunctionRegisters
import BlueOs.Library.Numerals

/-!
# Enumeration of functions

`selectDrivers` asks every bus, device and function for its vendor. Reading leaves the
registers as they are, so each part of the scan adds to the record what the registers
alone determine, and the record of the whole scan is the concatenation of its parts.
-/

namespace BlueOs.DeviceEnumeration

open NumberPrinting (Printed printHex hex)
open Numerals (hexadecimal hexadecimal_two hexadecimal_four)
open PeripheralComponentInterconnect ConfigurationSpace FunctionRegisters

/-- The order in which functions are asked for. -/
def Before (one other : Place) : Prop :=
  one.bus < other.bus ∨ one.bus = other.bus ∧
    (one.device < other.device ∨ one.device = other.device ∧ one.function < other.function)

section places

variable (space : Location → Word)

/-- A function answers with a vendor that is neither all zeros nor all ones. -/
def Answers (place : Place) : Prop := vendorId space place ≠ 0x0000 ∧ vendorId space place ≠ 0xFFFF

instance (place : Place) : Decidable (Answers space place) :=
  inferInstanceAs (Decidable (_ ∧ _))

/-- The functions of a device that answer. -/
def onDevice (bus device : Nat) : List Place :=
  ((List.range (if several space bus device then 8 else 1)).map (Place.mk bus device)).filter
    (Answers space ·)

def onBus (bus : Nat) : List Place := (List.range 32).flatMap (onDevice space bus)

def present : List Place := (List.range 8).flatMap (onBus space)

/-- The line for a function: its numbers in two hexadecimal digits, its identification
in four. -/
def announcement (place : Place) : List Char :=
  "PCI BUS ".toList ++ hexadecimal 2 place.bus ++
    ", DEVICE ".toList ++ hexadecimal 2 place.device ++
    ", FUNCTION ".toList ++ hexadecimal 2 place.function ++
    " = VENDOR ".toList ++ hexadecimal 4 (vendorId space place).toNat ++
    ", DEVICE ".toList ++ hexadecimal 4 (deviceId space place).toNat ++ "\n".toList

/-- The calls that print the line for a function. -/
def report (place : Place) : List Printed :=
  line (BitVec.ofNat 16 place.bus) (BitVec.ofNat 16 place.device) (BitVec.ofNat 16 place.function)
    (vendorId space place) (deviceId space place)

theorem mem_onDevice (bus device : Nat) (place : Place) :
    place ∈ onDevice space bus device ↔
      (place.bus = bus ∧ place.device = device) ∧
        (place.function < 8 ∧ (place.function = 0 ∨ several space bus device)) ∧
        Answers space place := by
  have count (function : Nat) : function < (if several space bus device then 8 else 1) ↔
      function < 8 ∧ (function = 0 ∨ several space bus device = true) := by
    cases several space bus device with
    | false => simp only [Bool.false_eq_true, if_false, or_false]; omega
    | true => simp only [if_true, or_true, and_true]
  simp only [onDevice, List.mem_filter, List.mem_map, List.mem_range, decide_eq_true_eq]
  constructor
  · rintro ⟨⟨function, listed, rfl⟩, answers⟩
    exact ⟨⟨rfl, rfl⟩, (count function).mp listed, answers⟩
  · rintro ⟨⟨rfl, rfl⟩, listed, answers⟩
    exact ⟨⟨place.function, (count place.function).mpr listed, rfl⟩, answers⟩

theorem mem_onBus (bus : Nat) (place : Place) :
    place ∈ onBus space bus ↔
      place.bus = bus ∧ place.device < 32 ∧
        (place.function < 8 ∧ (place.function = 0 ∨ several space bus place.device)) ∧
        Answers space place := by
  simp only [onBus, List.mem_flatMap, List.mem_range, mem_onDevice]
  constructor
  · rintro ⟨device, small, ⟨same, rfl⟩, listed⟩
    exact ⟨same, small, listed⟩
  · rintro ⟨same, small, listed⟩
    exact ⟨place.device, small, ⟨same, rfl⟩, listed⟩

theorem mem_present (place : Place) :
    place ∈ present space ↔
      (place.bus < 8 ∧ place.device < 32 ∧ place.function < 8) ∧ Answers space place ∧
        (place.function = 0 ∨ several space place.bus place.device) := by
  simp only [present, List.mem_flatMap, List.mem_range, mem_onBus]
  constructor
  · rintro ⟨bus, small, rfl, device, ⟨function, first⟩, answers⟩
    exact ⟨⟨small, device, function⟩, answers, first⟩
  · rintro ⟨⟨small, device, function⟩, answers, first⟩
    exact ⟨place.bus, small, rfl, device, ⟨function, first⟩, answers⟩

theorem present_ordered : (present space).Pairwise Before := by
  rw [present, List.pairwise_flatMap]
  constructor
  · intro bus _
    rw [onBus, List.pairwise_flatMap]
    constructor
    · intro device _
      apply List.Pairwise.filter
      rw [List.pairwise_map]
      apply List.pairwise_lt_range.imp
      intro one other earlier
      exact Or.inr ⟨rfl, Or.inr ⟨rfl, earlier⟩⟩
    · apply List.pairwise_lt_range.imp
      intro device device' earlier one listed other listed'
      obtain ⟨⟨bus, rfl⟩, _⟩ := (mem_onDevice space _ _ one).mp listed
      obtain ⟨⟨bus', rfl⟩, _⟩ := (mem_onDevice space _ _ other).mp listed'
      exact Or.inr ⟨bus.trans bus'.symm, Or.inl earlier⟩
  · apply List.pairwise_lt_range.imp
    intro bus bus' earlier one listed other listed'
    obtain ⟨rfl, _⟩ := (mem_onBus space _ one).mp listed
    obtain ⟨rfl, _⟩ := (mem_onBus space _ other).mp listed'
    exact Or.inl earlier

/-- Nothing comes before itself, so none is listed twice. -/
theorem present_nodup : (present space).Nodup := by
  apply (present_ordered space).imp
  rintro one other before rfl
  rcases before with earlier | ⟨_, earlier | ⟨_, earlier⟩⟩
  · exact lt_irrefl _ earlier
  · exact lt_irrefl _ earlier
  · exact lt_irrefl _ earlier

end places

section numerals

/-- A nibble has an upper case digit. -/
theorem hex_eq (nibble : Word) (small : nibble.toNat < 16) :
    hex nibble = (Nat.digitChar nibble.toNat).toUpper := by
  rw [hex]
  generalize nibble.toNat = value at small ⊢
  revert value
  decide

/-- A byte is printed in two digits. -/
theorem printHex_eq (key : Byte) : printHex key = hexadecimal 2 key.toNat := by
  have bound := key.isLt
  have wide : (key.setWidth 32).toNat = key.toNat := BitVec.toNat_setWidth_of_le (by decide)
  have low : (key.setWidth 32 &&& 0xF).toNat = key.toNat % 16 := by
    rw [BitVec.toNat_and, wide]
    exact Nat.and_two_pow_sub_one_eq_mod _ 4
  have high : ((key.setWidth 32 >>> 4) &&& 0xF).toNat = key.toNat / 16 % 16 := by
    rw [BitVec.toNat_and, BitVec.toNat_ushiftRight, wide, Nat.shiftRight_eq_div_pow]
    exact Nat.and_two_pow_sub_one_eq_mod _ 4
  rw [printHex, hex_eq _ (by omega), hex_eq _ (by omega), low, high, hexadecimal_two]

theorem low_byte (number : Nat) :
    ((BitVec.ofNat 16 number) &&& 0xFF).setWidth 8 = BitVec.ofNat 8 number := by
  apply BitVec.eq_of_toNat_eq
  have masked : (BitVec.ofNat 16 number &&& 0xFF).toNat = number % 2 ^ 16 % 256 := by
    rw [BitVec.toNat_and, BitVec.toNat_ofNat]
    exact Nat.and_two_pow_sub_one_eq_mod _ 8
  rw [BitVec.toNat_setWidth, masked, BitVec.toNat_ofNat]
  omega

/-- The two bytes of an identification. -/
theorem halves_toNat (key : Half) :
    (((key &&& 0xFF00) >>> 8).setWidth 8).toNat = key.toNat / 256 ∧
      ((key &&& 0xFF).setWidth 8).toNat = key.toNat % 256 := by
  have bound := key.isLt
  have upper : (key &&& 0xFF00) >>> 8 = key >>> 8 := by
    apply BitVec.eq_of_getLsbD_eq
    intro bit inside
    have mask : ∀ bit < 8, (0xFF00 : Half).getLsbD (8 + bit) = true := by decide
    rw [BitVec.getLsbD_ushiftRight, BitVec.getLsbD_ushiftRight, BitVec.getLsbD_and]
    by_cases low : bit < 8
    · rw [mask bit low, Bool.and_true]
    · rw [BitVec.getLsbD_of_ge key _ (by omega), Bool.false_and]
  have lower : (key &&& 0xFF).toNat = key.toNat % 256 := by
    rw [BitVec.toNat_and]
    exact Nat.and_two_pow_sub_one_eq_mod _ 8
  rw [upper, BitVec.toNat_setWidth, BitVec.toNat_setWidth, lower, BitVec.toNat_ushiftRight,
    Nat.shiftRight_eq_div_pow]
  omega

/-- A number below 256 is printed in its two digits. -/
theorem printHex_number (number : Nat) :
    printHex (((BitVec.ofNat 16 number) &&& 0xFF).setWidth 8) = hexadecimal 2 number := by
  have high : number % 256 / 16 % 16 = number / 16 % 16 := by omega
  have low : number % 256 % 16 = number % 16 := by omega
  rw [low_byte, printHex_eq, BitVec.toNat_ofNat, hexadecimal_two, hexadecimal_two, high, low]

/-- An identification is printed in its four digits. -/
theorem printHex_halves (key : Half) (rest : List Char) :
    printHex (((key &&& 0xFF00) >>> 8).setWidth 8) ++
        (printHex ((key &&& 0xFF).setWidth 8) ++ rest) = hexadecimal 4 key.toNat ++ rest := by
  obtain ⟨high, low⟩ := halves_toNat key
  rw [printHex_eq, printHex_eq, high, low, hexadecimal_four, List.append_assoc]

/-- The calls print the line. -/
theorem report_announcement (space : Location → Word) (place : Place) :
    (report space place).flatMap Printed.characters = announcement space place := by
  unfold announcement
  simp only [report, line, List.flatMap_cons, List.flatMap_nil, Printed.characters,
    printHex_number, printHex_halves, List.append_assoc, List.append_nil]

end numerals

section recording

variable {σ α : Type}

/-- A part of the scan leaves the registers as they are and adds to what is printed and to
the assignments. -/
structure Extends (printed : List Printed) (assigned : List Assignment)
    (before after : Scan Host) : Prop where
  space_kept : after.devices.space = before.devices.space
  printed_added : after.printed = before.printed ++ printed
  assigned_added : after.assigned = before.assigned ++ assigned

/-- An access alone adds nothing. -/
theorem Extends.refl (scan : Scan Host) (address : Word) :
    Extends [] [] scan { scan with devices := { scan.devices with address := address } } where
  space_kept := rfl
  printed_added := (List.append_nil _).symm
  assigned_added := (List.append_nil _).symm

theorem Extends.trans {printed printed' : List Printed} {assigned assigned' : List Assignment}
    {before between after : Scan Host} (first : Extends printed assigned before between)
    (second : Extends printed' assigned' between after) :
    Extends (printed ++ printed') (assigned ++ assigned') before after where
  space_kept := second.space_kept.trans first.space_kept
  printed_added := by
    rw [second.printed_added, first.printed_added, List.append_assoc]
  assigned_added := by
    rw [second.assigned_added, first.assigned_added, List.append_assoc]

/-- A line printed at the end. -/
theorem Extends.announced {assigned : List Assignment} {before after : Scan Host}
    (added : Extends [] assigned before after) (printed : List Printed) :
    Extends printed assigned before { after with printed := after.printed ++ printed } where
  space_kept := added.space_kept
  printed_added := by
    rw [added.printed_added, List.append_nil]
  assigned_added := added.assigned_added

/-- A loop adds what its turns add, one after the other. -/
theorem extends_foldl (space : Location → Word) (scanOf : σ → Scan Host) (turn : σ → α → σ)
    (printed : α → List Printed) (assigned : α → List Assignment) (elements : List α)
    (turns : ∀ element ∈ elements, ∀ state, (scanOf state).devices.space = space →
      Extends (printed element) (assigned element) (scanOf state) (scanOf (turn state element)))
    (state : σ) (holds : (scanOf state).devices.space = space) :
    Extends (elements.flatMap printed) (elements.flatMap assigned) (scanOf state)
      (scanOf (elements.foldl turn state)) := by
  induction elements generalizing state with
  | nil => exact Extends.refl (scanOf state) (scanOf state).devices.address
  | cons element rest ih =>
    have first := turns element List.mem_cons_self state holds
    have later := ih (fun other listed => turns other (List.mem_cons_of_mem _ listed))
      (turn state element) (first.space_kept.trans holds)
    exact first.trans later

/-- The same for a loop over the scan alone. -/
theorem extends_foldl_scan (space : Location → Word) (turn : Scan Host → α → Scan Host)
    (printed : α → List Printed) (assigned : α → List Assignment) (elements : List α)
    (turns : ∀ element ∈ elements, ∀ scan, scan.devices.space = space →
      Extends (printed element) (assigned element) scan (turn scan element))
    (scan : Scan Host) (holds : scan.devices.space = space) :
    Extends (elements.flatMap printed) (elements.flatMap assigned) scan
      (elements.foldl turn scan) :=
  extends_foldl space id turn printed assigned elements turns scan holds

end recording

section scanning

variable (uninitialised : Nat → Nat → Nat → Uninitialised) (space : Location → Word)

/-- What the probe of one register assigns. -/
def probed (place : Place) (barNum : Nat) : List Assignment :=
  let result := probe space place
    ((uninitialised place.bus place.device place.function).register barNum) barNum
  if result.address ≠ 0 ∧ result.type = .InputOutput then
    [⟨place.bus, place.device, place.function, result.address⟩]
  else []

def assignments (place : Place) : List Assignment :=
  (List.range 6).flatMap (probed uninitialised space place)

/-- The body of the loop over the registers adds what its probe assigns. -/
theorem selectRegister_extends (place : Place) (few : place.function < 8) (barNum : Nat)
    (six : barNum < 6) (current : DeviceDescriptor × Scan Host)
    (holds : current.2.devices.space = space) :
    Extends [] (probed uninitialised space place barNum) current.2
      (selectRegister hostBus construct uninitialised place.bus place.device place.function
        current barNum).2 := by
  obtain ⟨deviceDescriptor, scan⟩ := current
  subst holds
  obtain ⟨address, probing⟩ := getBaseAddressRegister_place place few scan.devices
    ((uninitialised place.bus place.device place.function).register barNum) barNum six
  simp only [selectRegister, probing, probed]
  split
  · exact ⟨rfl, (List.append_nil _).symm, rfl⟩
  · exact Extends.refl scan address

/-- The body of the loop over the registers keeps the identification. -/
theorem selectRegister_identity (bus device function barNum : Nat)
    (current : DeviceDescriptor × Scan Host) :
    (selectRegister hostBus construct uninitialised bus device function current
        barNum).1.vendor_id = current.1.vendor_id ∧
      (selectRegister hostBus construct uninitialised bus device function current
        barNum).1.device_id = current.1.device_id := by
  obtain ⟨deviceDescriptor, scan⟩ := current
  simp only [selectRegister]
  split
  · exact ⟨rfl, rfl⟩
  · exact ⟨rfl, rfl⟩

theorem selectPortBase_extends (place : Place) (few : place.function < 8)
    (deviceDescriptor : DeviceDescriptor) (scan : Scan Host)
    (holds : scan.devices.space = space) :
    Extends [] (assignments uninitialised space place) scan
      (selectPortBase hostBus construct uninitialised place.bus place.device place.function
        deviceDescriptor scan).2 := by
  have turns := extends_foldl space Prod.snd
    (selectRegister hostBus construct uninitialised place.bus place.device place.function)
    (fun _ => []) (probed uninitialised space place) (List.range 6)
    (fun barNum listed current kept => selectRegister_extends uninitialised space place few barNum
      (List.mem_range.mp listed) current kept)
    (deviceDescriptor, scan) holds
  have nothing : (List.range 6).flatMap (fun _ => ([] : List Printed)) = [] := rfl
  rw [nothing] at turns
  exact turns

theorem selectPortBase_identity (bus device function : Nat) (deviceDescriptor : DeviceDescriptor)
    (scan : Scan Host) :
    (selectPortBase hostBus construct uninitialised bus device function deviceDescriptor
        scan).1.vendor_id = deviceDescriptor.vendor_id ∧
      (selectPortBase hostBus construct uninitialised bus device function deviceDescriptor
        scan).1.device_id = deviceDescriptor.device_id := by
  rw [selectPortBase]
  induction List.range 6 generalizing deviceDescriptor scan with
  | nil => exact ⟨rfl, rfl⟩
  | cons barNum rest ih =>
    have turn := selectRegister_identity uninitialised bus device function barNum
      (deviceDescriptor, scan)
    have later := ih
      (selectRegister hostBus construct uninitialised bus device function (deviceDescriptor, scan)
        barNum).1
      (selectRegister hostBus construct uninitialised bus device function (deviceDescriptor, scan)
        barNum).2
    exact ⟨later.1.trans turn.1, later.2.trans turn.2⟩

/-- A function that answers is announced and its registers are probed. -/
theorem selectFunction_extends (place : Place) (few : place.function < 8) (scan : Scan Host)
    (holds : scan.devices.space = space) :
    Extends (if Answers space place then report space place else [])
      (if Answers space place then assignments uninitialised space place else []) scan
      (selectFunction hostBus construct uninitialised place.bus place.device scan
        place.function) := by
  subst holds
  obtain ⟨deviceDescriptor, address, described, vendor, device⟩ := getDeviceDescriptor_place place
    few scan.devices (uninitialised place.bus place.device place.function).portBase
  have silent : deviceDescriptor.vendor_id = 0x0000 ∨ deviceDescriptor.vendor_id = 0xFFFF ↔
      ¬Answers scan.devices.space place := by
    rw [vendor, Answers, not_and_or, not_not, not_not]
  have asked := Extends.refl scan address
  simp only [selectFunction, described]
  by_cases answers : Answers scan.devices.space place
  · have probes := asked.trans (selectPortBase_extends uninitialised scan.devices.space place few
      deviceDescriptor _ rfl)
    have identity := selectPortBase_identity uninitialised place.bus place.device place.function
      deviceDescriptor { scan with devices := { scan.devices with address := address } }
    rw [List.nil_append, List.nil_append] at probes
    rw [if_neg (fun absent => silent.mp absent answers), if_pos answers, if_pos answers]
    generalize selectPortBase hostBus construct uninitialised place.bus place.device
      place.function deviceDescriptor
      { scan with devices := { scan.devices with address := address } } = after at *
    rw [identity.1, identity.2, vendor, device]
    exact probes.announced (report scan.devices.space place)
  · rw [if_pos (silent.mpr answers), if_neg answers, if_neg answers]
    exact asked

/-- Over the functions of a device, the ones listed are those that answer. -/
theorem onDevice_flatMap {α : Type} (bus device : Nat) (entries : Place → List α) :
    (List.range (if several space bus device then 8 else 1)).flatMap (fun function =>
        if Answers space ⟨bus, device, function⟩ then entries ⟨bus, device, function⟩ else []) =
      (onDevice space bus device).flatMap entries := by
  rw [onDevice]
  induction List.range (if several space bus device then 8 else 1) with
  | nil => rfl
  | cons function rest ih =>
    rw [List.flatMap_cons, List.map_cons, ih]
    by_cases answers : Answers space ⟨bus, device, function⟩
    · rw [if_pos answers, List.filter_cons, if_pos (decide_eq_true answers), List.flatMap_cons]
    · rw [if_neg answers, List.filter_cons, if_neg (mt of_decide_eq_true answers),
        List.nil_append]

theorem selectDevice_extends (bus device : Nat) (scan : Scan Host)
    (holds : scan.devices.space = space) :
    Extends ((onDevice space bus device).flatMap (report space))
      ((onDevice space bus device).flatMap (assignments uninitialised space)) scan
      (selectDevice hostBus construct uninitialised bus scan device) := by
  subst holds
  obtain ⟨address, asked⟩ := hasFunctions_host bus device scan.devices
  have asking := Extends.refl scan address
  rw [← onDevice_flatMap, ← onDevice_flatMap]
  simp only [selectDevice, asked]
  apply asking.trans
  apply extends_foldl_scan scan.devices.space
  · intro function listed current kept
    have few : function < 8 := by
      have bound := List.mem_range.mp listed
      split at bound
      · exact bound
      · omega
    exact selectFunction_extends uninitialised scan.devices.space ⟨bus, device, function⟩ few
      current kept
  · rfl

theorem selectBus_extends (bus : Nat) (scan : Scan Host) (holds : scan.devices.space = space) :
    Extends ((onBus space bus).flatMap (report space))
      ((onBus space bus).flatMap (assignments uninitialised space)) scan
      ((List.range 32).foldl (selectDevice hostBus construct uninitialised bus) scan) := by
  rw [onBus, List.flatMap_assoc, List.flatMap_assoc]
  apply extends_foldl_scan space
  · intro device _ current kept
    exact selectDevice_extends uninitialised space bus device current kept
  · exact holds

theorem selectDrivers_extends (scan : Scan Host) :
    Extends ((present scan.devices.space).flatMap (report scan.devices.space))
      ((present scan.devices.space).flatMap (assignments uninitialised scan.devices.space)) scan
      (selectDrivers hostBus construct uninitialised scan) := by
  rw [present, List.flatMap_assoc, List.flatMap_assoc, selectDrivers]
  apply extends_foldl_scan scan.devices.space
  · intro bus _ current kept
    exact selectBus_extends uninitialised scan.devices.space bus current kept
  · rfl

end scanning

/-- Over every content of configuration space, one line is printed for each function that
answers, in order and once, with the identification found there. -/
theorem functions_listed (uninitialised : Nat → Nat → Nat → Uninitialised) (scan : Scan Host) :
    ∃ (places : List Place) (calls : List Printed),
      (selectDrivers hostBus construct uninitialised scan).printed = scan.printed ++ calls ∧
        calls.flatMap Printed.characters = places.flatMap (announcement scan.devices.space) ∧
        (places.Pairwise Before ∧ places.Nodup) ∧
        ∀ place, place ∈ places ↔
          (place.bus < 8 ∧ place.device < 32 ∧ place.function < 8) ∧
            Answers scan.devices.space place ∧
            (place.function = 0 ∨ several scan.devices.space place.bus place.device) := by
  have scanned := selectDrivers_extends uninitialised scan
  refine ⟨present scan.devices.space, _, scanned.printed_added, ?_,
    ⟨present_ordered _, present_nodup _⟩, mem_present _⟩
  rw [List.flatMap_assoc]
  exact List.flatMap_congr fun place _ => report_announcement scan.devices.space place

end BlueOs.DeviceEnumeration
