import BlueOs.SectorRoundTrip

/-!
# What a sector write does to the ports and the drives

The writes to the ports are recorded beside the channel. A sector write within the
limits writes the command block and then 256 words to the data port; they make up
the addressed sector of the selected drive, the data first and zeros after it, and
every other word of both drives stays. Outside the limits it writes to no port. The
data past the count are not looked at.
-/

namespace BlueOs.SectorWrite

open Port Programs AdvanceTechnologyAttachment SectorDisk SectorRoundTrip

section data

variable {δ : Type} (bus : Bus δ) (ata : Driver) (sector count : Word)

/-- A sector write is the same program for any data that agree up to the count. -/
theorem write28_congr (data other : Nat → Byte)
    (agree : ∀ index < count.toNat, other index = data index) :
    write28 bus ata sector other count = write28 bus ata sector data count := by
  have body : loop (fun machine : Machine δ => machine.index < count)
        (writeWord bus ata other count) =
      loop (fun machine => machine.index < count) (writeWord bus ata data count) := by
    apply loop_congr
    intro machine inside
    have first : other machine.index.toNat = data machine.index.toNat :=
      agree _ (BitVec.lt_def.mp (of_decide_eq_true inside))
    simp only [writeWord, first]
    by_cases paired : machine.index + 1 < count
    · have second : other (machine.index + 1).toNat = data (machine.index + 1).toNat :=
        agree _ (BitVec.lt_def.mp paired)
      simp only [if_pos paired, second]
    · simp only [if_neg paired]
  simp only [write28, body]

/-- Outside the limits a sector write does nothing. -/
theorem write28_refused (data : Nat → Byte) (outside : 0x0FFFFFFF < sector ∨ 512 < count)
    (fuel : Nat) (machine : Machine δ) :
    (write28 bus ata sector data count).run fuel machine = .finished machine := by
  by_cases high : 0x0FFFFFFF < sector
  · simp only [write28, branch, high, decide_true, if_true, skip, step, id]
  · have long : 512 < count := outside.resolve_left high
    simp only [write28, branch, high, long, decide_true, decide_false, Bool.false_eq_true, if_false,
      if_true, skip, step, id]

end data

/-- The port writes that start the write of a sector. -/
def commandBlock (master : Bool) (portBase : BitVec 16) (sector : Word) : List PortWrite :=
  (transfer (construct master portBase) sector 0x30).map fun access =>
    .outb access.1.portnumber access.2

/-- Port writes go into the record and to the devices. -/
theorem writePorts_recorded {δ : Type} (bus : Bus δ) (accesses : List (Port8Bit × Byte))
    (machine : Machine (δ × List PortWrite)) :
    (writePorts (recorded bus) accesses machine).devices =
      ((writePorts bus accesses { machine with devices := machine.devices.1 }).devices,
        machine.devices.2 ++ accesses.map fun access => .outb access.1.portnumber access.2) := by
  simp only [writePorts]
  induction accesses generalizing machine with
  | nil => simp
  | cons access rest inductionHypothesis =>
    simp only [List.foldl_cons, List.map_cons]
    have later := inductionHypothesis { machine with
      devices := access.1.write (recorded bus) access.2 machine.devices }
    simp only at later
    rw [later]
    simp [Port8Bit.write, recorded]

section transfers

variable (statuses : Statuses) (master : Bool) (portBase : BitVec 16) (sector count : Word)
  (data : Nat → Byte)

/-- The channel with a record of the writes to its ports. -/
abbrev recordedChannel : Bus (Channel × List PortWrite) := recorded (channelBus statuses portBase)

/-- The sectors after the words of a write up to a turn. -/
def filled (before : Bool → BitVec 28 → Nat → BitVec 16) (turn : Nat) :
    Bool → BitVec 28 → Nat → BitVec 16 :=
  fun drive address index =>
    if drive = !master ∧ address = sector.setWidth 28 ∧ index < turn then wordOf data count index
    else before drive address index

/-- One more word fills one more word. -/
theorem filled_succ (before : Bool → BitVec 28 → Nat → BitVec 16) (turn : Nat) :
    (fun otherDrive otherSector otherIndex =>
        if otherDrive = !master ∧ otherSector = sector.setWidth 28 ∧ otherIndex = turn then
          wordOf data count turn
        else filled master sector count data before turn otherDrive otherSector otherIndex) =
      filled master sector count data before (turn + 1) := by
  funext drive address index
  simp only [filled]
  by_cases addressed : drive = !master ∧ address = sector.setWidth 28
  · obtain ⟨rfl, rfl⟩ := addressed
    simp only [true_and]
    by_cases last : index = turn
    · rw [if_pos last, if_pos (by omega), last]
    · rw [if_neg last]
      exact if_congr (by omega) rfl rfl
  · have elsewhere : ∀ condition : Prop,
        ¬ (drive = !master ∧ address = sector.setWidth 28 ∧ condition) :=
      fun condition all => addressed ⟨all.1, all.2.1⟩
    rw [if_neg (elsewhere _), if_neg (elsewhere _), if_neg (elsewhere _)]

/-- A write has sent the words up to a turn and nothing else. -/
structure Sent (start : Machine (Channel × List PortWrite)) (turn : Nat)
    (machine : Machine (Channel × List PortWrite)) : Prop where
  index : machine.index.toNat = 2 * turn
  transfers : Transfers .writing (!master) sector turn machine.devices.1
  sectors : machine.devices.1.sectors =
    filled master sector count data start.devices.1.sectors turn
  ports : machine.devices.2 = start.devices.2 ++ commandBlock master portBase sector ++
    (List.range turn).map fun index => .outw portBase (wordOf data count index)

/-- One more word of the write. -/
theorem sent_next (start : Machine (Channel × List PortWrite)) (turn : Nat)
    (machine next : Machine (Channel × List PortWrite))
    (sent : Sent master portBase sector count data start turn machine) (within : turn < 256)
    (devices : next.devices = (machine.devices.1.writeWord (wordOf data count turn),
      machine.devices.2 ++ [.outw portBase (wordOf data count turn)]))
    (index : next.index = machine.index + 2) :
    Sent master portBase sector count data start (turn + 1) next := by
  obtain ⟨transfers, sectors⟩ := writeWord_sectors (!master) sector turn machine.devices.1
    (wordOf data count turn) sent.transfers within
  have place := sent.index
  constructor
  · rw [index]
    bv_omega
  · rw [devices]
    exact transfers
  · rw [devices]
    simp only [sectors, sent.sectors]
    exact filled_succ master sector count data start.devices.1.sectors turn
  · rw [devices]
    simp only [sent.ports, List.range_succ, List.map_append, List.map_cons, List.map_nil,
      List.append_assoc]

/-- After the command block no word has been sent. -/
theorem command_sent (machine : Machine (Channel × List PortWrite)) :
    Sent master portBase sector count data machine 0
      (setIndex 0 (printLiteral "Writing to ATA Drive: "
        (writePorts (recordedChannel statuses portBase)
          (transfer (construct master portBase) sector 0x30) machine))) := by
  have devices := writePorts_recorded (channelBus statuses portBase)
    (transfer (construct master portBase) sector 0x30) machine
  have selected := transfer_transfers statuses master portBase sector 0x30
    { machine with devices := machine.devices.1 }
  have block := writePorts_transfer statuses master portBase sector 0x30
    { machine with devices := machine.devices.1 }
  constructor
  · rfl
  · simp only [setIndex, printLiteral, print, devices]
    exact selected
  · simp only [setIndex, printLiteral, print, devices, block, Channel.command]
    funext drive address index
    simp [filled]
  · simp only [setIndex, printLiteral, print, devices, commandBlock, List.range_zero, List.map_nil,
      List.append_nil]

/-- A write to the data port goes to the channel and into the record. -/
theorem dataPort_recorded (word : BitVec 16) (devices : Channel × List PortWrite) :
    (construct master portBase).dataPort.write (recordedChannel statuses portBase) word devices =
      (devices.1.writeWord word, devices.2 ++ [.outw portBase word]) := by
  simp only [Port16Bit.write, recordedChannel, recorded, channelBus, construct, if_true]

/-- Within the limits all 256 words are sent. -/
theorem write28_sends (start : Machine (Channel × List PortWrite)) (inside : sector ≤ 0x0FFFFFFF)
    (fits : count ≤ 512) :
    Achieves (· = start) (write28 (recordedChannel statuses portBase) (construct master portBase)
      sector data count) (Sent master portBase sector count data start 256) := by
  apply write28_achieves _ _ _ _ _ _ _ inside fits
  · intro turn machine sent
    exact sent.index
  · rintro machine rfl
    exact command_sent statuses master portBase sector count data machine
  · intro turn machine within more sent
    apply sent_next master portBase sector count data start turn machine _ sent within
    · rw [writeWord_devices _ _ count data turn machine sent.index more, dataPort_recorded]
    · rfl
  · intro machine sent
    exact ⟨rounded_toNat count fits, sent.transfers, sent.sectors, sent.ports⟩
  · intro turn machine within outside sent
    apply sent_next master portBase sector count data start turn machine _ sent within
    · rw [padWord_devices _ _ count data turn machine outside, dataPort_recorded]
    · rfl

end transfers

/-- A byte of a sector: the even ones are the low halves of its words. -/
def sectorByte (words : Nat → BitVec 16) (position : Nat) : Byte :=
  if position % 2 = 0 then (words (position / 2)).setWidth 8
  else (words (position / 2) >>> 8).setWidth 8

/-- The bytes of the words that a write leaves. -/
theorem wordOf_bytes (data : Nat → Byte) (count : Word) (position : Nat) :
    sectorByte (wordOf data count) position =
      if position < count.toNat then data position else 0 := by
  have high : ∀ low : Byte, ((low.setWidth 16 : BitVec 16) >>> 8).setWidth 8 = (0 : Byte) := by
    decide
  obtain ⟨turn, even | odd⟩ := Nat.even_or_odd' position
  · have low : position % 2 = 0 ∧ position / 2 = turn := by omega
    rw [sectorByte, if_pos low.1, low.2, wordOf, even]
    by_cases paired : 2 * turn + 1 < count.toNat
    · rw [if_pos paired, if_pos (by omega), packed_low]
    · rw [if_neg paired]
      by_cases inside : 2 * turn < count.toNat
      · rw [if_pos inside, if_pos inside]
        simp
      · rw [if_neg inside, if_neg inside]
        rfl
  · have upper : ¬ position % 2 = 0 ∧ position / 2 = turn := by omega
    rw [sectorByte, if_neg upper.1, upper.2, wordOf, odd]
    by_cases paired : 2 * turn + 1 < count.toNat
    · rw [if_pos paired, if_pos paired, packed_high]
    · rw [if_neg paired, if_neg paired]
      by_cases inside : 2 * turn < count.toNat
      · rw [if_pos inside, high]
      · rw [if_neg inside]
        rfl

/-- A sector write within the limits returns; it has written the command block and 256
words to the data port and nothing else, the addressed sector of the selected drive
holds the data and zeros after them, and no other word of either drive has changed.
Outside the limits it returns without a port write, and in either case the data past
the count do not matter. -/
theorem write28_exact (statuses : Statuses) (master : Bool) (portBase : BitVec 16)
    (sector count : Word) (data : Nat → Byte) (machine : Machine (Channel × List PortWrite)) :
    (sector ≤ 0x0FFFFFFF → count ≤ 512 → ∃ last,
        Returns (write28 (recordedChannel statuses portBase) (construct master portBase) sector data
          count) machine last ∧
        last.devices.2 = machine.devices.2 ++ commandBlock master portBase sector ++
          (List.range 256).map (fun index => .outw portBase (wordOf data count index)) ∧
        (∀ position < 512,
          sectorByte (last.devices.1.sectors (!master) (sector.setWidth 28)) position =
            if position < count.toNat then data position else 0) ∧
        ∀ drive address index, ¬ (drive = !master ∧ address = sector.setWidth 28 ∧ index < 256) →
          last.devices.1.sectors drive address index =
            machine.devices.1.sectors drive address index) ∧
      (0x0FFFFFFF < sector ∨ 512 < count →
        Returns (write28 (recordedChannel statuses portBase) (construct master portBase) sector data
          count) machine machine) ∧
      ∀ other : Nat → Byte, (∀ index < count.toNat, other index = data index) →
        write28 (recordedChannel statuses portBase) (construct master portBase) sector other count =
          write28 (recordedChannel statuses portBase) (construct master portBase) sector data
            count := by
  refine ⟨?_, ?_, write28_congr _ _ sector count data⟩
  · intro inside fits
    obtain ⟨last, returned, sent⟩ := write28_sends statuses master portBase sector count data
      machine inside fits machine rfl
    refine ⟨last, returned, sent.ports, ?_, ?_⟩
    · intro position within
      have word : position / 2 < 256 := by omega
      rw [← wordOf_bytes data count position]
      simp only [sectorByte, sent.sectors, filled, true_and, if_pos word]
    · intro drive address index elsewhere
      rw [sent.sectors, filled, if_neg elsewhere]
  · intro outside
    exact ⟨0, write28_refused _ _ sector count data outside 0 machine⟩

/-- Three bytes written to sector 5: the word they end in and the rest are filled up. -/
theorem write28_exact_odd_count :
    ∃ last, Returns (write28 (recordedChannel ready 0x1F0) (construct true 0x1F0) 5
        (fun _ => 0x41) 3) ⟨(blank.devices, []), [], 0, 0⟩ last ∧
      ∀ position < 512, sectorByte (last.devices.1.sectors false 5) position =
        if position < 3 then 0x41 else 0 := by
  obtain ⟨last, returned, -, bytes, -⟩ := (write28_exact ready true 0x1F0 5 3 (fun _ => 0x41)
    ⟨(blank.devices, []), [], 0, 0⟩).1 (by decide) (by decide)
  exact ⟨last, returned, bytes⟩

end BlueOs.SectorWrite
