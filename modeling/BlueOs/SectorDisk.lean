import BlueOs.AdvanceTechnologyAttachment
import Mathlib.Tactic.IntervalCases

/-!
# A channel with ready drives

The two drives of a channel share the registers behind the ports. A sector command
starts the transfer of the addressed sectors of the selected drive, word by word
through the data port; the drives are never busy and report no error.

Whatever state the channel was in, the port writes that start a transfer of one
sector address that sector.
-/

namespace BlueOs.SectorDisk

open Port AdvanceTechnologyAttachment

inductive Transfer where
  | none
  | reading
  | writing
deriving DecidableEq

/-- The drives' sectors by drive, address and word, the registers and the transfer. -/
structure Channel where
  sectors : Bool → BitVec 28 → Nat → BitVec 16
  sectorCount : Byte
  lbaLow : Byte
  lbaMid : Byte
  lbaHigh : Byte
  device : Byte
  transfer : Transfer
  position : Nat
  statusReads : Nat

/-- The values of the status port: neither busy nor an error. -/
structure Statuses where
  value : Nat → Byte
  ready : ∀ index, value index &&& 0x81 = 0

namespace Channel

variable (channel : Channel)

/-- The selected drive is the second one. -/
def selected : Bool := channel.device.getLsbD 4

def address : BitVec 28 :=
  channel.device.setWidth 4 ++ channel.lbaHigh ++ channel.lbaMid ++ channel.lbaLow

/-- The words of a transfer; a sector count of zero means 256. -/
def words : Nat :=
  256 * if channel.sectorCount = 0 then 256 else channel.sectorCount.toNat

/-- The sector of the next word. -/
def current : BitVec 28 := channel.address + BitVec.ofNat 28 (channel.position / 256)

/-- A word was transferred; the last one ends the transfer. -/
def advance : Channel :=
  { channel with
    position := channel.position + 1
    transfer := if channel.position + 1 = channel.words then .none else channel.transfer }

def readWord : BitVec 16 × Channel :=
  if channel.transfer = .reading then
    (channel.sectors channel.selected channel.current (channel.position % 256), channel.advance)
  else (0xFFFF, channel)

/-- Replace a word of a sector. -/
def store (drive : Bool) (sector : BitVec 28) (index : Nat) (word : BitVec 16) : Channel :=
  { channel with
    sectors := fun otherDrive otherSector otherIndex =>
      if otherDrive = drive ∧ otherSector = sector ∧ otherIndex = index then word
      else channel.sectors otherDrive otherSector otherIndex }

def writeWord (word : BitVec 16) : Channel :=
  if channel.transfer = .writing then
    (channel.store channel.selected channel.current (channel.position % 256) word).advance
  else channel

/-- READ SECTORS, WRITE SECTORS; any other command transfers no sector. -/
def command (value : Byte) : Channel :=
  { channel with
    transfer := if value = 0x20 then .reading else if value = 0x30 then .writing else .none
    position := 0 }

end Channel

/-- The channel behind its ports. -/
def channelBus (statuses : Statuses) (portBase : BitVec 16) : Bus Channel where
  inb port channel :=
    if port = portBase + 7 then
      (statuses.value channel.statusReads, { channel with statusReads := channel.statusReads + 1 })
    else (0x00, channel)
  outb port value channel :=
    if port = portBase + 2 then { channel with sectorCount := value }
    else if port = portBase + 3 then { channel with lbaLow := value }
    else if port = portBase + 4 then { channel with lbaMid := value }
    else if port = portBase + 5 then { channel with lbaHigh := value }
    else if port = portBase + 6 then { channel with device := value }
    else if port = portBase + 7 then channel.command value
    else channel
  inw port channel := if port = portBase then channel.readWord else (0xFFFF, channel)
  outw port word channel := if port = portBase then channel.writeWord word else channel

/-- A transfer of one sector is under way, with a number of words transferred. -/
structure Transfers (transfer : Transfer) (drive : Bool) (sector : Word) (position : Nat)
    (channel : Channel) : Prop where
  selected : channel.selected = drive
  address : channel.address = sector.setWidth 28
  words : channel.words = 256
  moved : channel.position = position
  pending : position < 256 → channel.transfer = transfer

section commands

variable (statuses : Statuses) (master : Bool) (portBase : BitVec 16)

/-- The bits of the address, gathered from the four registers that hold them. -/
theorem address_gathered (sector : Word) :
    (((if master then 0xE0 else 0xF0 : Byte) |||
        ((sector &&& 0x0F000000) >>> 24).setWidth 8).setWidth 4 ++
        ((sector >>> 16) &&& 0xFF).setWidth 8 ++ ((sector >>> 8) &&& 0xFF).setWidth 8 ++
        (sector &&& 0xFF).setWidth 8 : BitVec 28) = sector.setWidth 28 := by
  apply BitVec.eq_of_getLsbD_eq
  intro bit inside
  simp only [BitVec.getLsbD_append, BitVec.getLsbD_setWidth, BitVec.getLsbD_or,
    BitVec.getLsbD_ushiftRight, BitVec.getLsbD_and]
  cases master <;> interval_cases bit <;> simp

theorem device_selected (sector : Word) :
    ((if master then 0xE0 else 0xF0 : Byte) |||
        ((sector &&& 0x0F000000) >>> 24).setWidth 8).getLsbD 4 = !master := by
  cases master <;> simp

/-- The port writes of a transfer fill the registers and give the command. -/
theorem writePorts_transfer (sector : Word) (command : Byte) (machine : Machine Channel) :
    (writePorts (channelBus statuses portBase)
        (transfer (construct master portBase) sector command) machine).devices =
      Channel.command { machine.devices with
        device := (if master then 0xE0 else 0xF0 : Byte) |||
          ((sector &&& 0x0F000000) >>> 24).setWidth 8
        sectorCount := 1
        lbaLow := (sector &&& 0xFF).setWidth 8
        lbaMid := ((sector >>> 8) &&& 0xFF).setWidth 8
        lbaHigh := ((sector >>> 16) &&& 0xFF).setWidth 8 } command := by
  cases master <;> simp [writePorts, transfer, Port8Bit.write, channelBus, construct]

/-- Before the first word, the addressed sector is selected for the transfer. -/
theorem transfer_transfers (sector : Word) (command : Byte) (machine : Machine Channel) :
    Transfers (if command = 0x20 then .reading else if command = 0x30 then .writing else .none)
      (!master) sector 0 (writePorts (channelBus statuses portBase)
        (transfer (construct master portBase) sector command) machine).devices := by
  rw [writePorts_transfer]
  exact ⟨device_selected master sector, address_gathered master sector, rfl, rfl, fun _ => rfl⟩

/-- The next word belongs to the addressed sector. -/
theorem current_transfers (transfer : Transfer) (drive : Bool) (sector : Word) (position : Nat)
    (channel : Channel) (transfers : Transfers transfer drive sector position channel)
    (within : position < 256) :
    channel.current = sector.setWidth 28 ∧ channel.position % 256 = position := by
  have first : position / 256 = 0 := Nat.div_eq_of_lt within
  rw [Channel.current, transfers.address, transfers.moved, first]
  exact ⟨BitVec.add_zero _, Nat.mod_eq_of_lt within⟩

/-- Moving a word counts it, and the last one ends the transfer. -/
theorem advance_transfers (transfer : Transfer) (drive : Bool) (sector : Word) (position : Nat)
    (channel : Channel) (transfers : Transfers transfer drive sector position channel)
    (within : position < 256) :
    Transfers transfer drive sector (position + 1) channel.advance := by
  refine ⟨transfers.selected, transfers.address, transfers.words, ?_, fun more => ?_⟩
  · simp only [Channel.advance, transfers.moved]
  · have unfinished : channel.position + 1 ≠ channel.words := by
      rw [transfers.moved, transfers.words]
      omega
    simp only [Channel.advance, if_neg unfinished]
    exact transfers.pending within

/-- A read takes the word at the position and changes no sector. -/
theorem readWord_transfers (drive : Bool) (sector : Word) (position : Nat) (channel : Channel)
    (transfers : Transfers .reading drive sector position channel) (within : position < 256) :
    channel.readWord.1 = channel.sectors drive (sector.setWidth 28) position ∧
      Transfers .reading drive sector (position + 1) channel.readWord.2 ∧
      channel.readWord.2.sectors = channel.sectors := by
  obtain ⟨current, index⟩ := current_transfers _ _ _ _ channel transfers within
  have read : channel.readWord =
      (channel.sectors drive (sector.setWidth 28) position, channel.advance) := by
    simp only [Channel.readWord, transfers.pending within, if_true, transfers.selected, current,
      index]
  rw [read]
  exact ⟨rfl, advance_transfers _ _ _ _ channel transfers within, rfl⟩

/-- A write replaces the word at the position and leaves every other word of every
sector of both drives. -/
theorem writeWord_sectors (drive : Bool) (sector : Word) (position : Nat) (channel : Channel)
    (word : BitVec 16) (transfers : Transfers .writing drive sector position channel)
    (within : position < 256) :
    Transfers .writing drive sector (position + 1) (channel.writeWord word) ∧
      (channel.writeWord word).sectors = fun otherDrive otherSector otherIndex =>
        if otherDrive = drive ∧ otherSector = sector.setWidth 28 ∧ otherIndex = position then word
        else channel.sectors otherDrive otherSector otherIndex := by
  obtain ⟨current, index⟩ := current_transfers _ _ _ _ channel transfers within
  have written : channel.writeWord word =
      (channel.store drive (sector.setWidth 28) position word).advance := by
    simp only [Channel.writeWord, transfers.pending within, if_true, transfers.selected, current,
      index]
  rw [written]
  exact ⟨advance_transfers _ _ _ _ _ ⟨transfers.selected, transfers.address, transfers.words,
    transfers.moved, transfers.pending⟩ within, rfl⟩

/-- The addressed sector after a write. -/
theorem writeWord_transfers (drive : Bool) (sector : Word) (position : Nat) (channel : Channel)
    (word : BitVec 16) (transfers : Transfers .writing drive sector position channel)
    (within : position < 256) :
    Transfers .writing drive sector (position + 1) (channel.writeWord word) ∧
      (channel.writeWord word).sectors drive (sector.setWidth 28) =
        Function.update (channel.sectors drive (sector.setWidth 28)) position word := by
  obtain ⟨next, sectors⟩ := writeWord_sectors drive sector position channel word transfers within
  refine ⟨next, ?_⟩
  funext other
  simp only [sectors, true_and, Function.update_apply]

end commands

end BlueOs.SectorDisk
