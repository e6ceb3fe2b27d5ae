import BlueOs.DeviceEnumeration
import BlueOs.PrintedText

/-!
# The listing of the devices

In the lines that `selectDrivers` prints the names of the fields are fixed texts and the
numbers have a fixed number of hexadecimal digits, so each line is a message. What the
scan finds in the configuration space can be read off the console again.
-/

namespace BlueOs.DeviceListing

open PrintedText DeviceEnumeration
open NumberPrinting (Printed)
open PeripheralComponentInterconnect ConfigurationSpace FunctionRegisters
open TextConsole (Console print)

/-- What a line says. -/
structure Entry where
  bus : Byte
  device : Byte
  function : Byte
  vendorId : Half
  deviceId : Half
deriving DecidableEq

def Entry.place (entry : Entry) : Place :=
  ⟨entry.bus.toNat, entry.device.toNat, entry.function.toNat⟩

/-- The upper byte is printed first. -/
def halves (key : Half) : Byte × Byte :=
  (((key &&& 0xFF00) >>> 8).setWidth 8, (key &&& 0xFF).setWidth 8)

theorem halves_append (key : Half) : (halves key).1 ++ (halves key).2 = key := by
  apply BitVec.eq_of_toNat_eq
  obtain ⟨upper, lower⟩ := halves_toNat key
  rw [halves, BitVec.toNat_append, upper, lower,
    ← Nat.shiftLeft_add_eq_or_of_lt (Nat.mod_lt _ (by decide)), Nat.shiftLeft_eq]
  omega

def hexHalf : Messages.Format Half Byte :=
  (hexByte.pair hexByte).retract halves (fun both => both.1 ++ both.2) halves_append

abbrev Fields := Byte × Byte × Byte × Half × Half

def Entry.fields (entry : Entry) : Fields :=
  (entry.bus, entry.device, entry.function, entry.vendorId, entry.deviceId)

def ofFields (fields : Fields) : Entry :=
  ⟨fields.1, fields.2.1, fields.2.2.1, fields.2.2.2.1, fields.2.2.2.2⟩

theorem ofFields_fields (entry : Entry) : ofFields entry.fields = entry := rfl

def lineFormat : Messages.Format Entry Byte :=
  ((hexByte.behind (bytes "PCI BUS ".toList)).pair <|
    (hexByte.behind (bytes ", DEVICE ".toList)).pair <|
    (hexByte.behind (bytes ", FUNCTION ".toList)).pair <|
    (hexHalf.behind (bytes " = VENDOR ".toList)).pair <|
    (hexHalf.behind (bytes ", DEVICE ".toList)).before (bytes "\n".toList)).retract
      Entry.fields ofFields ofFields_fields

section listing

variable (space : Location → Word)

/-- The line for a function. -/
def entryOf (place : Place) : Entry where
  bus := BitVec.ofNat 8 place.bus
  device := BitVec.ofNat 8 place.device
  function := BitVec.ofNat 8 place.function
  vendorId := vendorId space place
  deviceId := deviceId space place

/-- A function that the scan finds, with its identification. -/
structure Found (entry : Entry) : Prop where
  bus : entry.bus.toNat < 8
  device : entry.device.toNat < 32
  function : entry.function.toNat < 8
  answers : Answers space entry.place
  counted : entry.function = 0 ∨ several space entry.bus.toNat entry.device.toNat = true
  vendorId : entry.vendorId = vendorId space entry.place
  deviceId : entry.deviceId = deviceId space entry.place

/-- The line that is printed is the message. -/
theorem text_report (place : Place) :
    text (report space place) = lineFormat.encode (entryOf space place) := by
  rw [report, line, low_byte, low_byte, low_byte]
  simp only [text, List.flatMap_cons, List.flatMap_nil, Printed.characters, bytes_append,
    List.append_nil]
  rfl

theorem report_proper (place : Place) : ∀ c ∈ text (report space place), c ≠ 0 := by
  rw [report, line]
  simp only [text, List.flatMap_cons, List.flatMap_nil, Printed.characters, bytes_append,
    List.append_nil, List.forall_mem_append]
  have hex (key : Byte) := digits_proper _ (printHex_digits key)
  refine ⟨?_, hex _, ?_, hex _, ?_, hex _, ?_, hex _, hex _, ?_, hex _, hex _, ?_⟩
  · exact literal_proper _ (by decide)
  · exact literal_proper _ (by decide)
  · exact literal_proper _ (by decide)
  · exact literal_proper _ (by decide)
  · exact literal_proper _ (by decide)
  · exact literal_proper _ (by decide)

/-- The lines of functions, one after the other. -/
theorem text_listing (places : List Place) :
    text (places.flatMap (report space)) =
      lineFormat.stream (places.map (entryOf space)) := by
  induction places with
  | nil => rfl
  | cons place rest inductionHypothesis =>
    rw [List.flatMap_cons, text_append, inductionHypothesis, text_report, List.map_cons,
      Messages.Format.stream_cons]

theorem listing_proper (places : List Place) :
    ∀ c ∈ text (places.flatMap (report space)), c ≠ 0 := by
  induction places with
  | nil => exact literal_proper _ rfl
  | cons place rest inductionHypothesis =>
    rw [List.flatMap_cons, text_append, List.forall_mem_append]
    exact ⟨report_proper space place, inductionHypothesis⟩

/-- The places that the scan asks for fit into the digits printed for them. -/
theorem entryOf_place (place : Place) (bus : place.bus < 8) (device : place.device < 32)
    (function : place.function < 8) : (entryOf space place).place = place := by
  have small (number : Nat) (fits : number < 256) : (BitVec.ofNat 8 number).toNat = number := by
    rw [BitVec.toNat_ofNat]
    exact Nat.mod_eq_of_lt fits
  rw [Entry.place, entryOf, small place.bus (by omega), small place.device (by omega),
    small place.function (by omega)]

theorem mem_present_found (entry : Entry) :
    entry ∈ (present space).map (entryOf space) ↔ Found space entry := by
  rw [List.mem_map]
  constructor
  · rintro ⟨place, member, rfl⟩
    obtain ⟨⟨bus, device, function⟩, answers, counted⟩ := (mem_present space place).mp member
    have same := entryOf_place space place bus device function
    have busSame := congrArg Place.bus same
    have deviceSame := congrArg Place.device same
    have functionSame := congrArg Place.function same
    simp only [Entry.place] at busSame deviceSame functionSame
    refine ⟨?_, ?_, ?_, ?_, ?_, ?_, ?_⟩
    · rwa [busSame]
    · rwa [deviceSame]
    · rwa [functionSame]
    · rwa [same]
    · rw [busSame, deviceSame]
      refine counted.imp (fun first => ?_) id
      rw [entryOf, first]
      rfl
    · rw [same, entryOf]
    · rw [same, entryOf]
  · rintro ⟨bus, device, function, answers, counted, vendor, identification⟩
    refine ⟨entry.place, (mem_present space entry.place).mpr
      ⟨⟨bus, device, function⟩, answers, counted.imp (congrArg BitVec.toNat) id⟩, ?_⟩
    rw [entryOf, ← vendor, ← identification, Entry.place]
    simp only [BitVec.ofNat_toNat, BitVec.setWidth_eq]

end listing

/-- Whatever the configuration space holds, the lines of the scan appear on the console as one
text, and from this text the functions are read back in their order: exactly those that
the scan was to find, each with its identification. -/
theorem listing_read_back (uninitialised : Nat → Nat → Nat → Uninitialised) (scan : Scan Host)
    (console : Console) :
    ∃ calls listing entries,
      (selectDrivers hostBus construct uninitialised scan).printed = scan.printed ++ calls ∧
        printAll console calls = print console listing ∧
        lineFormat.read listing = some entries ∧
        (entries.map Entry.place).Pairwise Before ∧
        ∀ entry, entry ∈ entries ↔ Found scan.devices.space entry := by
  have scanned := selectDrivers_extends uninitialised scan
  refine ⟨_, _, _, scanned.printed_added,
    printAll_eq console _ (listing_proper scan.devices.space _), ?_, ?_,
    mem_present_found scan.devices.space⟩
  · rw [text_listing]
    exact lineFormat.read_stream _
  · have places : ((present scan.devices.space).map (entryOf scan.devices.space)).map Entry.place =
        present scan.devices.space := by
      rw [List.map_map]
      refine (List.map_congr_left fun place member => ?_).trans (List.map_id _)
      obtain ⟨⟨bus, device, function⟩, -⟩ := (mem_present scan.devices.space place).mp member
      exact entryOf_place scan.devices.space place bus device function
    rw [places]
    exact present_ordered scan.devices.space

end BlueOs.DeviceListing
