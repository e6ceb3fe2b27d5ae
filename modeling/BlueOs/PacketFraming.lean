import BlueOs.Library.Runs
import BlueOs.Mouse

/-!
# The memory of the mouse driver

The offset into the packet buffer and the coordinates are plain bytes here, and the
video memory does not end with the screen. Every access to the buffer and to the
video memory is recorded, and so are the bytes read and the packets made of them.

The driver of the mouse module, whose offset and position cannot leave their ranges,
is an abstraction of this one: each interrupt keeps the two in correspondence. So
the ranges hold here too, and with them the accesses stay in bounds.
-/

namespace BlueOs.PacketFraming

open TextConsole (Byte Cell)
open Mouse (inverted clamp moved coordinate_toInt)

/-- The globals and fields of the driver, with records of its accesses, newest first. -/
structure Driver where
  videoMemory : Int → Cell
  mouseX : Byte
  mouseY : Byte
  data : Cell
  buffer : Nat → Byte
  offset : Byte
  button : Byte
  videoAccesses : List Int
  bufferAccesses : List Nat
  dataReads : Nat
  packets : List (Byte × Byte × Byte)

namespace Driver

variable (driver : Driver)

/-- `80*mouseY + mouseX`, of signed bytes. -/
def cursor : Int := 80 * driver.mouseY.toInt + driver.mouseX.toInt

/-- Save the cell under the pointer and show the pointer there. -/
def drawMouseCursor : Driver :=
  { driver with
    data := driver.videoMemory driver.cursor
    videoMemory := Function.update driver.videoMemory driver.cursor
      (inverted (driver.videoMemory driver.cursor))
    videoAccesses := driver.cursor :: driver.videoAccesses }

/-- Put the saved cell back. -/
def clearMouseCursor : Driver :=
  { driver with
    videoMemory := Function.update driver.videoMemory driver.cursor driver.data
    videoAccesses := driver.cursor :: driver.videoAccesses }

/-- The bounds checks on a coordinate, in the order of the source. -/
def bound (last value : Byte) : Byte :=
  let value := if (last + 1).sle value then last else value
  if value.slt 0 then 0 else value

/-- Move the pointer by the second and third byte of the buffer. -/
def move : Driver :=
  { driver with
    mouseX := bound 79 (driver.mouseX + driver.buffer 1)
    mouseY := bound 24 (driver.mouseY - driver.buffer 2)
    bufferAccesses := 2 :: 1 :: driver.bufferAccesses }

/-- `button = buffer[0]`; the packet is complete. -/
def press : Driver :=
  { driver with
    button := driver.buffer 0
    bufferAccesses := 0 :: driver.bufferAccesses
    packets := driver.packets ++ [(driver.buffer 0, driver.buffer 1, driver.buffer 2)] }

/-- `buffer[offset] = dataPort.read(); offset = (offset + 1) % 3` -/
def receive (byte : Byte) : Driver :=
  { driver with
    buffer := Function.update driver.buffer driver.offset.toNat byte
    bufferAccesses := driver.offset.toNat :: driver.bufferAccesses
    dataReads := driver.dataReads + 1
    offset := BitVec.ofNat 8 ((driver.offset.toNat + 1) % 3) }

/-- `handleInterrupt`, with what the two ports deliver. -/
def handleInterrupt (status byte : Byte) : Driver :=
  if status &&& 0x20 = 0 then driver
  else
    let driver := driver.receive byte
    if driver.offset ≠ 0 then driver else driver.clearMouseCursor.move.drawMouseCursor.press

/-- `activate`, as far as memory goes; the records begin here. -/
def activate : Driver :=
  { driver with
    offset := 0
    button := 0
    mouseX := 40
    mouseY := 12
    videoAccesses := []
    bufferAccesses := []
    dataReads := 0
    packets := [] }

end Driver

/-- The bounds checks of a coordinate agree with those of the abstract driver. -/
theorem bound_toInt (last : Nat) (small : last < 127) (value : Byte) :
    (Driver.bound (BitVec.ofNat 8 last) value).toInt = (clamp last value : Int) := by
  have limit : (BitVec.ofNat 8 last).toInt = last := coordinate_toInt last (by omega)
  have next : (BitVec.ofNat 8 last + 1).toInt = last + 1 := by
    have one : (1 : Byte).toInt = 1 := rfl
    rw [BitVec.toInt_add, limit, one, Int.bmod_eq_of_le_mul_two] <;> omega
  have zero : (0 : Byte).toInt = 0 := rfl
  simp only [Driver.bound, clamp, BitVec.sle, BitVec.slt, next, zero, decide_eq_true_eq]
  by_cases high : (last : Int) + 1 ≤ value.toInt
  · rw [if_pos high, dif_pos high, limit, if_neg (by omega), limit]
    rfl
  · rw [if_neg high, dif_neg high]
    by_cases low : value.toInt < 0
    · rw [if_pos low, dif_pos low, zero]
      rfl
    · rw [if_neg low, dif_neg low]
      simp only
      omega

/-- The driver is in the state of the abstract one. -/
structure Represents (driver : Driver) (machine : Mouse.Machine) : Prop where
  cells : ∀ cell : Fin 2000, driver.videoMemory (cell.val : Int) = machine.console.screen cell
  column : driver.mouseX.toInt = (machine.mouse.position.x : Nat)
  row : driver.mouseY.toInt = (machine.mouse.position.y : Nat)
  data : driver.data = machine.mouse.data
  offset : driver.offset.toNat = machine.mouse.offset
  buffer : ∀ index : Fin 3, driver.buffer index = machine.mouse.buffer index
  button : driver.button = machine.mouse.button

/-- The pointer is at a cell of the screen. -/
theorem Represents.cursor {driver : Driver} {machine : Mouse.Machine}
    (represents : Represents driver machine) :
    driver.cursor = (machine.mouse.position.cell.val : Int) := by
  simp only [Driver.cursor, represents.column, represents.row, TextConsole.Position.cell]
  omega

/-- A change of one cell of the screen is one of the same cell of the memory. -/
theorem update_cells (videoMemory : Int → Cell) (screen : TextConsole.Screen)
    (cells : ∀ cell : Fin 2000, videoMemory (cell.val : Int) = screen cell) (place : Fin 2000)
    (value : Cell) (cell : Fin 2000) :
    Function.update videoMemory (place.val : Int) value (cell.val : Int) =
      Function.update screen place value cell := by
  by_cases here : cell = place
  · rw [here, Function.update_self, Function.update_self]
  · have elsewhere : (cell.val : Int) ≠ place.val := by
      intro same
      exact here (Fin.ext (Int.ofNat_inj.mp same))
    rw [Function.update_of_ne elsewhere, Function.update_of_ne here, cells]

theorem drawMouseCursor_represents (driver : Driver) (machine : Mouse.Machine)
    (represents : Represents driver machine) :
    Represents driver.drawMouseCursor (Mouse.drawMouseCursor machine) := by
  have place := represents.cursor
  have saved := represents.cells machine.mouse.position.cell
  refine ⟨?_, represents.column, represents.row, ?_, represents.offset, represents.buffer,
    represents.button⟩
  · intro cell
    simp only [Driver.drawMouseCursor, Mouse.drawMouseCursor, place, saved]
    exact update_cells _ _ represents.cells _ _ cell
  · simp only [Driver.drawMouseCursor, Mouse.drawMouseCursor, place, saved]

theorem clearMouseCursor_represents (driver : Driver) (machine : Mouse.Machine)
    (represents : Represents driver machine) :
    Represents driver.clearMouseCursor (Mouse.clearMouseCursor machine) := by
  have place := represents.cursor
  refine ⟨?_, represents.column, represents.row, represents.data, represents.offset,
    represents.buffer, represents.button⟩
  intro cell
  simp only [Driver.clearMouseCursor, Mouse.clearMouseCursor, place, represents.data]
  exact update_cells _ _ represents.cells _ _ cell

/-- A byte that is a coordinate is the byte of that coordinate. -/
theorem byte_of_toInt (value : Byte) (coordinate : Nat) (same : value.toInt = coordinate) :
    value = BitVec.ofNat 8 coordinate := by
  have wide := value.toInt_lt
  apply BitVec.eq_of_toInt_eq
  rw [same, coordinate_toInt coordinate (by omega)]

theorem move_represents (driver : Driver) (machine : Mouse.Machine)
    (represents : Represents driver machine) :
    Represents driver.move { machine with mouse := { machine.mouse with
      position :=
        moved machine.mouse.position (machine.mouse.buffer 1) (machine.mouse.buffer 2) } } := by
  have right : driver.buffer 1 = machine.mouse.buffer 1 := represents.buffer 1
  have up : driver.buffer 2 = machine.mouse.buffer 2 := represents.buffer 2
  refine ⟨represents.cells, ?_, ?_, represents.data, represents.offset, represents.buffer,
    represents.button⟩
  · simp only [Driver.move, moved, right, byte_of_toInt _ _ represents.column]
    exact bound_toInt 79 (by decide) _
  · simp only [Driver.move, moved, up, byte_of_toInt _ _ represents.row]
    exact bound_toInt 24 (by decide) _

theorem receive_represents (driver : Driver) (machine : Mouse.Machine)
    (represents : Represents driver machine) (byte : Byte) :
    Represents (driver.receive byte) { machine with mouse := { machine.mouse with
      buffer := Function.update machine.mouse.buffer machine.mouse.offset byte
      offset := machine.mouse.offset + 1 } } := by
  refine ⟨represents.cells, represents.column, represents.row, represents.data, ?_, ?_,
    represents.button⟩
  · simp only [Driver.receive, represents.offset, BitVec.toNat_ofNat, Fin.val_add]
    omega
  · intro index
    simp only [Driver.receive, represents.offset]
    by_cases here : index = machine.mouse.offset
    · rw [here, Function.update_self, Function.update_self]
    · have elsewhere : index.val ≠ machine.mouse.offset.val := fun same => here (Fin.ext same)
      rw [Function.update_of_ne elsewhere, Function.update_of_ne here, represents.buffer]

theorem press_represents (driver : Driver) (machine : Mouse.Machine)
    (represents : Represents driver machine) :
    Represents driver.press { machine with mouse := { machine.mouse with
      button := machine.mouse.buffer 0 } } where
  cells := represents.cells
  column := represents.column
  row := represents.row
  data := represents.data
  offset := represents.offset
  buffer := represents.buffer
  button := represents.buffer 0

/-- Each interrupt keeps the two drivers in correspondence. -/
theorem handleInterrupt_represents (driver : Driver) (machine : Mouse.Machine)
    (represents : Represents driver machine) (status byte : Byte) :
    Represents (driver.handleInterrupt status byte)
      (Mouse.handleInterrupt machine status byte) := by
  simp only [Driver.handleInterrupt, Mouse.handleInterrupt]
  split
  case isTrue => exact represents
  case isFalse =>
    have received := receive_represents driver machine represents byte
    have full : (driver.receive byte).offset ≠ 0 ↔ machine.mouse.offset + 1 ≠ 0 := by
      have same := received.offset
      simp only at same
      rw [ne_eq, ne_eq, not_iff_not, ← BitVec.toNat_inj, same, Fin.ext_iff]
      rfl
    by_cases more : machine.mouse.offset + 1 ≠ 0
    · rw [if_pos (full.mpr more), if_pos more]
      exact received
    · rw [if_neg (fun other => more (full.mp other)), if_neg more]
      have cleared := clearMouseCursor_represents _ _ received
      have moving := move_represents _ _ cleared
      have drawn := drawMouseCursor_represents _ _ moving
      exact press_represents _ _ drawn

/-- An interrupt: the status and the byte that the ports deliver. -/
structure Event where
  status : Byte
  byte : Byte

def step (driver : Driver) (event : Event) : Option Driver :=
  some (driver.handleInterrupt event.status event.byte)

/-- The bytes of the interrupts whose status announces a byte of the mouse. -/
def accepted (events : List Event) : List Byte :=
  (events.filter fun event => event.status &&& 0x20 ≠ 0).map Event.byte

theorem accepted_ignored (event : Event) (rest : List Event)
    (ignored : event.status &&& 0x20 = 0) : accepted (event :: rest) = accepted rest := by
  unfold accepted
  rw [List.filter_cons_of_neg (by simpa using ignored)]

theorem accepted_asked (event : Event) (rest : List Event)
    (asked : ¬ event.status &&& 0x20 = 0) :
    accepted (event :: rest) = event.byte :: accepted rest := by
  unfold accepted
  rw [List.filter_cons_of_pos (by simpa using asked), List.map_cons]

/-- The bytes at the places of a packet. -/
def PacketAt (bytes : List Byte) (index : Nat) (packet : Byte × Byte × Byte) : Prop :=
  bytes[3 * index]? = some packet.1 ∧ bytes[3 * index + 1]? = some packet.2.1 ∧
    bytes[3 * index + 2]? = some packet.2.2

/-- What holds of the accesses and the packets after the given bytes. -/
structure Framed (bytes : List Byte) (driver : Driver) : Prop where
  bufferAccesses : ∀ index ∈ driver.bufferAccesses, index < 3
  videoAccesses : ∀ cell ∈ driver.videoAccesses, 0 ≤ cell ∧ cell < 2000
  dataReads : driver.dataReads = bytes.length
  count : driver.packets.length = bytes.length / 3
  packets : ∀ index packet, driver.packets[index]? = some packet → PacketAt bytes index packet

/-- The bytes of the packet under way are in the buffer. -/
structure Invariant (bytes : List Byte) (driver : Driver) : Prop where
  framed : Framed bytes driver
  represents : ∃ machine, Represents driver machine
  offset : driver.offset.toNat = bytes.length % 3
  pending : ∀ place < bytes.length % 3,
    bytes[3 * (bytes.length / 3) + place]? = some (driver.buffer place)

/-- A byte received is the next one of the packet under way. -/
theorem receive_pending (bytes : List Byte) (driver : Driver) (held : Invariant bytes driver)
    (byte : Byte) (place : Nat) (before : place ≤ bytes.length % 3) :
    (bytes ++ [byte])[3 * (bytes.length / 3) + place]? =
      some ((driver.receive byte).buffer place) := by
  simp only [Driver.receive, held.offset]
  by_cases last : place = bytes.length % 3
  · have here : 3 * (bytes.length / 3) + place = bytes.length := by omega
    rw [here, last, Function.update_self]
    simp
  · rw [Function.update_of_ne last, List.getElem?_append_left (by omega)]
    exact held.pending place (by omega)

/-- Packets stay where they are when bytes are added. -/
theorem packetAt_append (bytes : List Byte) (byte : Byte) (index : Nat)
    (packet : Byte × Byte × Byte) (whole : 3 * index + 2 < bytes.length)
    (packetAt : PacketAt bytes index packet) : PacketAt (bytes ++ [byte]) index packet := by
  obtain ⟨first, second, third⟩ := packetAt
  rw [PacketAt, List.getElem?_append_left (by omega), List.getElem?_append_left (by omega),
    List.getElem?_append_left whole]
  exact ⟨first, second, third⟩

theorem packets_append (bytes : List Byte) (driver : Driver) (framed : Framed bytes driver)
    (byte : Byte) (index : Nat) (packet : Byte × Byte × Byte)
    (made : driver.packets[index]? = some packet) : PacketAt (bytes ++ [byte]) index packet := by
  have inside := (List.getElem?_eq_some_iff.mp made).1
  have count := framed.count
  exact packetAt_append bytes byte index packet (by omega) (framed.packets index packet made)

section receiving

variable (bytes : List Byte) (driver : Driver) (held : Invariant bytes driver) (byte : Byte)
include held

theorem receive_offset : (driver.receive byte).offset.toNat = (bytes.length + 1) % 3 := by
  simp only [Driver.receive, held.offset, BitVec.toNat_ofNat]
  omega

theorem receive_bufferAccesses : ∀ index ∈ (driver.receive byte).bufferAccesses, index < 3 := by
  intro index member
  rcases List.mem_cons.mp member with rfl | earlier
  · rw [held.offset]
    omega
  · exact held.framed.bufferAccesses index earlier

/-- A byte within a packet. -/
theorem receive_invariant (within : bytes.length % 3 < 2) :
    Invariant (bytes ++ [byte]) (driver.receive byte) := by
  have framed := held.framed
  obtain ⟨machine, represents⟩ := held.represents
  have size : (bytes ++ [byte]).length = bytes.length + 1 := by simp
  have counted : (driver.receive byte).packets.length = (bytes ++ [byte]).length / 3 := by
    rw [size]
    simp only [Driver.receive, framed.count]
    omega
  constructor
  · constructor
    · exact receive_bufferAccesses bytes driver held byte
    · exact framed.videoAccesses
    · rw [size]
      simp only [Driver.receive, framed.dataReads]
    · exact counted
    · exact packets_append bytes driver framed byte
  · exact ⟨_, receive_represents driver machine represents byte⟩
  · rw [size]
    exact receive_offset bytes driver held byte
  · intro place before
    rw [size] at before ⊢
    rw [show (bytes.length + 1) / 3 = bytes.length / 3 by omega]
    exact receive_pending bytes driver held byte place (by omega)

/-- What the driver does with a whole packet in the buffer. -/
theorem complete_bufferAccesses : ∀ index ∈
    (driver.receive byte).clearMouseCursor.move.drawMouseCursor.press.bufferAccesses,
    index < 3 := by
  intro index member
  change index ∈ 0 :: 2 :: 1 :: (driver.receive byte).bufferAccesses at member
  simp only [List.mem_cons] at member
  rcases member with rfl | rfl | rfl | earlier
  · decide
  · decide
  · decide
  · exact receive_bufferAccesses bytes driver held byte index earlier

/-- The cell left and the cell reached are those of two positions. -/
theorem complete_videoAccesses : ∀ cell ∈
    (driver.receive byte).clearMouseCursor.move.drawMouseCursor.press.videoAccesses,
    0 ≤ cell ∧ cell < 2000 := by
  obtain ⟨machine, represents⟩ := held.represents
  have received := receive_represents driver machine represents byte
  have cleared := clearMouseCursor_represents _ _ received
  have moving := move_represents _ _ cleared
  have onScreen (place : Fin 2000) : (0 : Int) ≤ place.val ∧ (place.val : Int) < 2000 := by omega
  intro cell member
  change cell ∈ (driver.receive byte).clearMouseCursor.move.cursor ::
    (driver.receive byte).cursor :: driver.videoAccesses at member
  simp only [List.mem_cons] at member
  rcases member with rfl | rfl | earlier
  · rw [moving.cursor]
    exact onScreen _
  · rw [received.cursor]
    exact onScreen _
  · exact held.framed.videoAccesses cell earlier

/-- The newest packet is made of the last three bytes. -/
theorem complete_packets (last : bytes.length % 3 = 2) (index : Nat) (packet : Byte × Byte × Byte)
    (made : (driver.receive byte).clearMouseCursor.move.drawMouseCursor.press.packets[index]? =
      some packet) : PacketAt (bytes ++ [byte]) index packet := by
  have count := held.framed.count
  change (driver.packets ++ [((driver.receive byte).buffer 0, (driver.receive byte).buffer 1,
    (driver.receive byte).buffer 2)])[index]? = some packet at made
  by_cases earlier : index < driver.packets.length
  · rw [List.getElem?_append_left earlier] at made
    exact packets_append bytes driver held.framed byte index packet made
  · have newest : index = bytes.length / 3 := by
      have inside := (List.getElem?_eq_some_iff.mp made).1
      rw [List.length_append, List.length_singleton] at inside
      omega
    rw [List.getElem?_append_right (by omega), newest, count, Nat.sub_self] at made
    obtain rfl := Option.some.inj made
    rw [newest]
    exact ⟨receive_pending bytes driver held byte 0 (by omega),
      receive_pending bytes driver held byte 1 (by omega),
      receive_pending bytes driver held byte 2 (by omega)⟩

/-- The last byte of a packet. -/
theorem complete_invariant (last : bytes.length % 3 = 2)
    (next : ∃ machine, Represents
      (driver.receive byte).clearMouseCursor.move.drawMouseCursor.press machine) :
    Invariant (bytes ++ [byte])
      (driver.receive byte).clearMouseCursor.move.drawMouseCursor.press := by
  have size : (bytes ++ [byte]).length = bytes.length + 1 := by simp
  constructor
  · constructor
    · exact complete_bufferAccesses bytes driver held byte
    · exact complete_videoAccesses bytes driver held byte
    · rw [size, ← held.framed.dataReads]
      rfl
    · rw [size]
      simp only [Driver.press, Driver.drawMouseCursor, Driver.move, Driver.clearMouseCursor,
        Driver.receive, List.length_append, List.length_singleton, held.framed.count]
      omega
    · exact complete_packets bytes driver held byte last
  · exact next
  · rw [size]
    exact receive_offset bytes driver held byte
  · intro place before
    rw [size] at before
    omega

end receiving

/-- An interrupt whose status lacks the bit of the mouse changes nothing. -/
theorem handleInterrupt_ignored (driver : Driver) (status byte : Byte)
    (ignored : status &&& 0x20 = 0) : driver.handleInterrupt status byte = driver := by
  rw [Driver.handleInterrupt, if_pos ignored]

/-- An interrupt that brings a byte. -/
theorem handleInterrupt_invariant (bytes : List Byte) (driver : Driver)
    (held : Invariant bytes driver) (status byte : Byte) (asked : ¬ status &&& 0x20 = 0) :
    Invariant (bytes ++ [byte]) (driver.handleInterrupt status byte) := by
  obtain ⟨machine, represents⟩ := held.represents
  have next := handleInterrupt_represents driver machine represents status byte
  have place := receive_offset bytes driver held byte
  rw [Driver.handleInterrupt, if_neg asked] at next ⊢
  by_cases last : bytes.length % 3 = 2
  · have full : ¬ (driver.receive byte).offset ≠ 0 := by
      rw [ne_eq, not_not, ← BitVec.toNat_inj, place]
      show (bytes.length + 1) % 3 = 0
      omega
    simp only [if_neg full] at next ⊢
    exact complete_invariant bytes driver held byte last ⟨_, next⟩
  · have more : (driver.receive byte).offset ≠ 0 := by
      rw [ne_eq, ← BitVec.toNat_inj, place]
      show ¬ (bytes.length + 1) % 3 = 0
      omega
    simp only [if_pos more]
    exact receive_invariant bytes driver held byte (by omega)

/-- The driver just activated, whatever it was. -/
theorem activate_invariant (driver : Driver) : Invariant [] driver.activate := by
  refine ⟨⟨by simp [Driver.activate], by simp [Driver.activate], rfl, rfl,
    by simp [Driver.activate]⟩, ?_, rfl, by simp⟩
  exact ⟨{ console := ⟨fun cell => driver.videoMemory (cell.val : Int), .corner⟩
           mouse :=
            { position := .middle
              data := driver.data
              buffer := fun index => driver.buffer index
              offset := 0
              button := 0 } },
    fun _ => rfl, rfl, rfl, rfl, rfl, fun _ => rfl, rfl⟩

/-- The bytes accepted so far and those to come are the bytes of the whole run. -/
def Passed (events rest : List Event) (driver : Driver) : Prop :=
  ∃ bytes, accepted events = bytes ++ accepted rest ∧ Invariant bytes driver

theorem step_passed (events : List Event) (event : Event) (rest : List Event) (driver : Driver)
    (passed : Passed events (event :: rest) driver) :
    ∃ next, step driver event = some next ∧ Passed events rest next := by
  obtain ⟨bytes, all, held⟩ := passed
  refine ⟨_, rfl, ?_⟩
  by_cases ignored : event.status &&& 0x20 = 0
  · rw [accepted_ignored event rest ignored] at all
    rw [handleInterrupt_ignored driver event.status event.byte ignored]
    exact ⟨bytes, all, held⟩
  · rw [accepted_asked event rest ignored, List.append_cons] at all
    exact ⟨_, all, handleInterrupt_invariant bytes driver held event.status event.byte ignored⟩

/-- After `activate`, every run of interrupts indexes the packet buffer by 0 to 2 only,
accesses the video memory at cells of the screen only, reads a byte for each
interrupt that announces one, and makes packets of these bytes three by three in
their order; an interrupt that announces none changes nothing and reads no byte. -/
theorem packets_framed (driver : Driver) (events : List Event) :
    ∃ final, Runs.run step events driver.activate = some final ∧
      Framed (accepted events) final ∧
      ∀ status byte, status &&& 0x20 = 0 → final.handleInterrupt status byte = final := by
  obtain ⟨final, completed, bytes, all, held⟩ := Runs.run_total step (Passed events)
    (step_passed events) events driver.activate ⟨[], rfl, activate_invariant driver⟩
  have whole : accepted events = bytes := by simpa [accepted] using all
  rw [whole]
  exact ⟨final, completed, held.framed, fun status byte ignored =>
    handleInterrupt_ignored final status byte ignored⟩

end BlueOs.PacketFraming
