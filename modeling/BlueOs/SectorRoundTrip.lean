import BlueOs.SectorDisk
import Mathlib.Data.List.Flatten
import Mathlib.Data.List.TakeWhile

/-!
# A sector written and read back

On ready drives `write28` stores its bytes two to a word, low byte first, and fills
the sector with zeros; `read28` takes the words apart again and prints each as a
string of two characters. A string ends at its first zero byte, so a zero in the
low half of a word hides the high half.
-/

namespace BlueOs.SectorRoundTrip

open Port Programs AdvanceTechnologyAttachment SectorDisk

/-- The word of a sector that a write of `count` bytes leaves at an index. -/
def wordOf (data : Nat → Byte) (count : Word) (index : Nat) : BitVec 16 :=
  if 2 * index + 1 < count.toNat then
    (data (2 * index)).setWidth 16 ||| ((data (2 * index + 1)).setWidth 16 <<< 8)
  else if 2 * index < count.toNat then (data (2 * index)).setWidth 16
  else 0

/-- The characters a read of `count` bytes prints for a word. -/
def printed (count : Word) (word : BitVec 16) (index : Nat) : List Byte :=
  [word.setWidth 8, if 2 * index + 1 < count.toNat then (word >>> 8).setWidth 8 else 0].takeWhile
    (· ≠ 0)

/-- The words that hold `count` bytes. -/
def half (count : Word) : Nat := (count.toNat + 1) / 2

def heading : List Byte := "Reading ATA Drive: ".toList.map fun character =>
  BitVec.ofNat 8 character.toNat

section counting

variable (count : Word)

theorem slt_small (index limit : Word) (low : index.toNat < 2 ^ 31) (small : limit.toNat < 2 ^ 31) :
    index.slt limit = decide (index.toNat < limit.toNat) := by
  rw [BitVec.slt, BitVec.toInt_eq_toNat_of_lt (by omega), BitVec.toInt_eq_toNat_of_lt (by omega)]
  simp

/-- The counter of the last loops runs to the end of the sector. -/
theorem slt_sector (index : Word) (turn : Nat) (place : index.toNat = 2 * turn)
    (within : turn ≤ 256) : index.slt 512 = decide (turn < 256) := by
  have size : (512 : Word).toNat = 512 := rfl
  rw [slt_small index 512 (by omega) (by omega), place, size, decide_eq_decide]
  omega

theorem rounded_toNat (fits : count ≤ 512) : (count + count % 2).toNat = 2 * half count := by
  have sized : count.toNat ≤ 512 := fits
  have parity : (count % 2).toNat = count.toNat % 2 := rfl
  rw [BitVec.toNat_add, parity, half]
  omega

/-- The signed remainder of a count is the unsigned one. -/
theorem rounded_signed (fits : count ≤ 512) : count.srem 2 = count % 2 := by
  have sized : count.toNat ≤ 512 := fits
  have positive : count.msb = false := BitVec.msb_eq_false_iff_two_mul_lt.mpr (by omega)
  have two : (2 : Word).msb = false := rfl
  rw [BitVec.srem_eq, positive, two]

end counting

section turns

variable {δ : Type} (bus : Bus δ) (ata : Driver) (sector count : Word) (data : Nat → Byte)

/-- A turn of the copying loop packs the word at the counter. -/
theorem writeWord_devices (turn : Nat) (machine : Machine δ)
    (index : machine.index.toNat = 2 * turn) (inside : 2 * turn < count.toNat) :
    (writeWord bus ata data count machine).devices =
      ata.dataPort.write bus (wordOf data count turn) machine.devices := by
  have next : (machine.index + 1).toNat = 2 * turn + 1 := by bv_omega
  have paired : machine.index + 1 < count ↔ 2 * turn + 1 < count.toNat := by
    rw [BitVec.lt_def, next]
  simp only [writeWord, writeData, print, setIndex, index, next, paired, wordOf, inside, if_true]

/-- A turn of the padding loop writes a zero word. -/
theorem padWord_devices (turn : Nat) (machine : Machine δ) (outside : count.toNat ≤ 2 * turn) :
    (padWord bus ata machine).devices =
      ata.dataPort.write bus (wordOf data count turn) machine.devices := by
  have beyond : ¬2 * turn + 1 < count.toNat := by omega
  simp only [padWord, writeData, setIndex, wordOf, if_neg beyond, if_neg (Nat.not_lt.mpr outside)]

/-- A sector write within the limits: an invariant indexed by the turns goes through
the copying loop and, from the rounded count on, through the padding loop. -/
theorem write28_achieves (before : Machine δ → Prop) (invariant : Nat → Machine δ → Prop)
    (inside : sector ≤ 0x0FFFFFFF) (fits : count ≤ 512)
    (place : ∀ turn machine, invariant turn machine → machine.index.toNat = 2 * turn)
    (starts : ∀ machine, before machine → invariant 0 (setIndex 0
      (printLiteral "Writing to ATA Drive: "
        (writePorts bus (transfer ata sector 0x30) machine))))
    (copies : ∀ turn machine, turn < 256 → 2 * turn < count.toNat → invariant turn machine →
      invariant (turn + 1) (writeWord bus ata data count machine))
    (rounds : ∀ machine, invariant (half count) machine →
      invariant (half count) (setIndex (count + count % 2) machine))
    (pads : ∀ turn machine, turn < 256 → count.toNat ≤ 2 * turn → invariant turn machine →
      invariant (turn + 1) (padWord bus ata machine)) :
    Achieves before (write28 bus ata sector data count) (invariant 256) := by
  have sized : count.toNat ≤ 512 := fits
  apply achieves_branch_no _ _ _ _ _ (fun _ _ => by simpa using BitVec.not_lt.mpr inside)
  apply achieves_branch_no _ _ _ _ _ (fun _ _ => by simpa using BitVec.not_lt.mpr fits)
  apply achieves_seq _ (invariant 0) _ _ _ (achieves_step _ _ _ starts)
  apply achieves_seq _ (invariant (half count))
  · apply achieves_loop _ _ invariant 0 (half count) (Nat.zero_le _)
    · intro turn machine _ within held
      simp only [half] at within
      have more : 2 * turn < count.toNat := by omega
      constructor
      · simpa [BitVec.lt_def, place turn machine held] using more
      · exact copies turn machine (by omega) more held
    · intro machine held
      simp only [decide_eq_false_iff_not, BitVec.lt_def, place _ machine held, half]
      omega
  apply achieves_seq _ (invariant (half count)) _ _ _ (achieves_step _ _ _ rounds)
  apply achieves_loop _ _ _ _ _ (by simp only [half]; omega)
  · intro turn machine beyond within held
    simp only [half] at beyond
    constructor
    · rw [slt_sector machine.index turn (place turn machine held) (by omega), decide_eq_true_iff]
      exact within
    · exact pads turn machine within (by omega) held
  · intro machine held
    rw [slt_sector machine.index 256 (place 256 machine held) (Nat.le_refl _),
      decide_eq_false_iff_not]
    exact Nat.lt_irrefl 256

end turns

section transfers

variable (statuses : Statuses) (master : Bool) (portBase : BitVec 16) (sector count : Word)
  (data : Nat → Byte)

/-- A write has stored the words up to a turn. -/
structure Written (turn : Nat) (machine : Machine Channel) : Prop where
  index : machine.index.toNat = 2 * turn
  transfers : Transfers .writing (!master) sector turn machine.devices
  stored : ∀ index < turn,
    machine.devices.sectors (!master) (sector.setWidth 28) index = wordOf data count index

/-- A word of the write, at the next position. -/
theorem written_next (turn : Nat) (machine next : Machine Channel)
    (written : Written master sector count data turn machine) (within : turn < 256)
    (devices : next.devices = machine.devices.writeWord (wordOf data count turn))
    (index : next.index = machine.index + 2) :
    Written master sector count data (turn + 1) next := by
  obtain ⟨transfers, stored⟩ := writeWord_transfers (!master) sector turn machine.devices
    (wordOf data count turn) written.transfers within
  have place := written.index
  constructor
  · rw [index]
    bv_omega
  · rw [devices]
    exact transfers
  · intro earlier before
    rw [devices, stored]
    by_cases last : earlier = turn
    · subst last
      exact Function.update_self ..
    · rw [Function.update_of_ne last]
      exact written.stored earlier (by omega)

/-- A write to the data port goes to the channel. -/
theorem dataPort_channel (word : BitVec 16) (devices : Channel) :
    (construct master portBase).dataPort.write (channelBus statuses portBase) word devices =
      devices.writeWord word := by
  simp only [Port16Bit.write, channelBus, construct, if_true]

/-- Every word of the sector is written. -/
theorem write28_stores (inside : sector ≤ 0x0FFFFFFF) (fits : count ≤ 512) :
    Achieves (fun _ => True) (write28 (channelBus statuses portBase) (construct master portBase)
      sector data count) fun machine => ∀ index < 256,
        machine.devices.sectors (!master) (sector.setWidth 28) index = wordOf data count index := by
  have complete : Achieves (fun _ => True) (write28 (channelBus statuses portBase)
      (construct master portBase) sector data count) (Written master sector count data 256) := by
    apply write28_achieves _ _ _ _ _ _ _ inside fits
    · intro turn machine written
      exact written.index
    · intro machine _
      exact ⟨rfl, transfer_transfers statuses master portBase sector 0x30 machine,
        fun index before => absurd before (Nat.not_lt_zero index)⟩
    · intro turn machine within more written
      apply written_next master sector count data turn machine _ written within
      · rw [writeWord_devices _ _ count data turn machine written.index more, dataPort_channel]
      · rfl
    · intro machine written
      exact ⟨rounded_toNat count fits, written.transfers, written.stored⟩
    · intro turn machine within outside written
      apply written_next master sector count data turn machine _ written within
      · rw [padWord_devices _ _ count data turn machine outside, dataPort_channel]
      · rfl
  exact achieves_weaken complete fun _ written => written.stored

/-- A read has taken the words up to a turn and printed those up to another. -/
structure Taken (before : List Byte) (words : Nat → BitVec 16) (shown turn : Nat)
    (machine : Machine Channel) : Prop where
  index : machine.index.toNat = 2 * turn
  transfers : Transfers .reading (!master) sector turn machine.devices
  sectors : machine.devices.sectors (!master) (sector.setWidth 28) = words
  console : machine.console = before ++ heading ++
    (List.range shown).flatMap fun index => printed count (words index) index

/-- The drive has accepted the command and shows itself ready. -/
structure Started (before : List Byte) (words : Nat → BitVec 16) (machine : Machine Channel) :
    Prop where
  status : machine.status &&& 0x81 = 0
  transfers : Transfers .reading (!master) sector 0 machine.devices
  sectors : machine.devices.sectors (!master) (sector.setWidth 28) = words
  console : machine.console = before

variable (before : List Byte) (words : Nat → BitVec 16)

/-- A read of the data port is a read of the channel's next word. -/
theorem readData_channel (machine : Machine Channel) :
    readData (channelBus statuses portBase) (construct master portBase) machine =
      (machine.devices.readWord.1, { machine with devices := machine.devices.readWord.2 }) := by
  simp only [readData, Port16Bit.read, channelBus, construct, if_true]

/-- A turn of the reading loop takes a word apart and prints it. -/
theorem readWord_taken (turn : Nat) (machine : Machine Channel) (fits : count ≤ 512)
    (inside : 2 * turn < count.toNat)
    (taken : Taken master sector count before words turn turn machine) :
    Taken master sector count before words (turn + 1) (turn + 1)
      (readWord (channelBus statuses portBase) (construct master portBase) count machine) := by
  have sized : count.toNat ≤ 512 := fits
  have place := taken.index
  obtain ⟨word, transfers, kept⟩ :=
    readWord_transfers (!master) sector turn machine.devices taken.transfers (by omega)
  have next : (machine.index + 1).toNat = 2 * turn + 1 := by bv_omega
  have paired : (machine.index + 1).slt count = decide (2 * turn + 1 < count.toNat) := by
    rw [slt_small _ _ (by omega) (by omega), next]
  rw [readWord, readData_channel]
  refine ⟨?_, transfers, kept ▸ taken.sectors, ?_⟩
  · show (machine.index + 2).toNat = 2 * (turn + 1)
    bv_omega
  · have shown := taken.console
    rw [taken.sectors] at word
    simp only [print, setIndex, paired, word, shown, printed, decide_eq_true_eq,
      List.range_succ, List.flatMap_append, List.flatMap_singleton, List.append_assoc]

/-- A turn of the last loop drops a word. -/
theorem drainWord_taken (shown turn : Nat) (machine : Machine Channel) (within : turn < 256)
    (taken : Taken master sector count before words shown turn machine) :
    Taken master sector count before words shown (turn + 1)
      (drainWord (channelBus statuses portBase) (construct master portBase) machine) := by
  have place := taken.index
  obtain ⟨-, transfers, kept⟩ :=
    readWord_transfers (!master) sector turn machine.devices taken.transfers within
  rw [drainWord, readData_channel]
  refine ⟨?_, transfers, kept ▸ taken.sectors, taken.console⟩
  show (machine.index + 2).toNat = 2 * (turn + 1)
  bv_omega

/-- A read of the status port leaves the transfer alone. -/
theorem readStatus_channel (machine : Machine Channel) :
    readStatus (channelBus statuses portBase) (construct master portBase) machine =
      { machine with
        status := statuses.value machine.devices.statusReads
        devices := { machine.devices with statusReads := machine.devices.statusReads + 1 } } := by
  simp only [readStatus, Port8Bit.read, channelBus, construct, if_true]

/-- A ready status has neither the busy nor the error bit. -/
theorem ready_bits : ∀ status : Byte, status &&& 0x81 = 0 →
    status &&& 0x80 = 0 ∧ status &&& 0x01 = 0 := by
  decide

/-- After the command the status shows a ready drive. -/
theorem command_started (machine : Machine Channel)
    (same : machine.devices.sectors (!master) (sector.setWidth 28) = words)
    (console : machine.console = before) :
    Started master sector before words (readStatus (channelBus statuses portBase)
      (construct master portBase) (writePorts (channelBus statuses portBase)
        (transfer (construct master portBase) sector 0x20) machine)) := by
  have selected : Transfers .reading (!master) sector 0 _ :=
    transfer_transfers statuses master portBase sector 0x20 machine
  have devices := writePorts_transfer statuses master portBase sector 0x20 machine
  constructor
  · rw [readStatus_channel]
    exact statuses.ready _
  · rw [readStatus_channel]
    exact ⟨selected.selected, selected.address, selected.words, selected.moved, selected.pending⟩
  · rw [readStatus_channel]
    simp only [devices, Channel.command]
    exact same
  · exact console

/-- A ready drive ends the polling at once. -/
theorem poll_started :
    Achieves (Started master sector before words)
      (poll (channelBus statuses portBase) (construct master portBase))
      (Started master sector before words) := by
  apply achieves_loop _ _ (fun _ => Started master sector before words) 0 0 (Nat.le_refl 0)
  · intro turn _ _ none
    exact absurd none (Nat.not_lt_zero turn)
  · intro machine started
    obtain ⟨settled, -⟩ := ready_bits machine.status started.status
    simp only [busyWithoutError, settled]
    rfl

/-- The words of the sector are taken apart, printed up to the count and dropped
after it. -/
theorem readWords_prints (fits : count ≤ 512) :
    Achieves (Started master sector before words)
      (readWords (channelBus statuses portBase) (construct master portBase) count)
      fun machine => machine.console = before ++ heading ++
        (List.range (half count)).flatMap fun index => printed count (words index) index := by
  have sized : count.toNat ≤ 512 := fits
  apply achieves_seq _ (Taken master sector count before words 0 0)
  · apply achieves_step
    intro machine started
    have whole : heading.takeWhile (· ≠ 0) = heading := by decide
    have shown : machine.console ++ heading.takeWhile (· ≠ 0) = before ++ heading ++ [] := by
      rw [whole, started.console, List.append_nil]
    exact ⟨rfl, started.transfers, started.sectors, shown⟩
  apply achieves_seq _ (Taken master sector count before words (half count) (half count))
  · apply achieves_loop _ _ (fun turn => Taken master sector count before words turn turn) 0
      (half count) (Nat.zero_le _)
    · intro turn machine _ inside taken
      have place := taken.index
      simp only [half] at inside
      have more : 2 * turn < count.toNat := by omega
      constructor
      · rw [slt_small _ _ (by omega) (by omega), place, decide_eq_true_iff]
        exact more
      · exact readWord_taken statuses master portBase sector count before words turn machine fits
          more taken
    · intro machine taken
      have place := taken.index
      simp only [half] at place
      rw [slt_small _ _ (by omega) (by omega), place, decide_eq_false_iff_not]
      omega
  apply achieves_seq _ (Taken master sector count before words (half count) (half count))
  · apply achieves_step
    intro machine taken
    have rounded : (count + count.srem 2).toNat = 2 * half count := by
      rw [rounded_signed count fits]
      exact rounded_toNat count fits
    exact ⟨rounded, taken.transfers, taken.sectors, taken.console⟩
  have drained : Achieves (Taken master sector count before words (half count) (half count))
      (loop (fun machine => machine.index.slt 512)
        (drainWord (channelBus statuses portBase) (construct master portBase)))
      (Taken master sector count before words (half count) 256) := by
    apply achieves_loop _ _ _ _ _ (by simp only [half]; omega)
    · intro turn machine _ within taken
      constructor
      · rw [slt_sector machine.index turn taken.index (by omega), decide_eq_true_iff]
        exact within
      · exact drainWord_taken statuses master portBase sector count before words _ turn machine
          within taken
    · intro machine taken
      rw [slt_sector machine.index 256 taken.index (Nat.le_refl _), decide_eq_false_iff_not]
      exact Nat.lt_irrefl 256
  exact achieves_weaken drained fun _ complete => complete.console

/-- What a sector read prints, by the words of the sector. -/
theorem read28_prints (inside : sector ≤ 0x0FFFFFFF) (fits : count ≤ 512) :
    Achieves (fun machine => machine.devices.sectors (!master) (sector.setWidth 28) = words ∧
        machine.console = before)
      (read28 (channelBus statuses portBase) (construct master portBase) sector count)
      fun machine => machine.console = before ++ heading ++
        (List.range (half count)).flatMap fun index => printed count (words index) index := by
  apply achieves_branch_no _ _ _ _ _ (fun _ _ => by simpa using BitVec.not_lt.mpr inside)
  apply achieves_seq _ (Started master sector before words)
  · apply achieves_step
    rintro machine ⟨same, console⟩
    exact command_started statuses master portBase sector before words machine same console
  apply achieves_seq _ _ _ _ _ (poll_started statuses master portBase sector before words)
  apply achieves_branch_no
  · intro machine started
    obtain ⟨-, succeeded⟩ := ready_bits machine.status started.status
    simp only [failed, succeeded]
    rfl
  · exact readWords_prints statuses master portBase sector count before words fits

end transfers

/-- The bytes of a range that are not zero, in order. -/
def nonZero (data : Nat → Byte) (count : Word) : List Byte :=
  ((List.range count.toNat).map data).filter (· ≠ 0)

/-- If every piece of one concatenation is a sublist of the piece of another, the
concatenations are equal only when all pieces are. -/
theorem flatMap_eq_iff {α β : Type} (indices : List α) (some all : α → List β)
    (pieces : ∀ index ∈ indices, (some index).Sublist (all index)) :
    indices.flatMap some = indices.flatMap all ↔ ∀ index ∈ indices, some index = all index := by
  constructor
  · intro same
    induction indices with
    | nil => simp
    | cons index rest inductionHypothesis =>
      rw [List.forall_mem_cons] at pieces ⊢
      have shorter : (rest.flatMap some).length ≤ (rest.flatMap all).length :=
        (List.Sublist.flatMap_right rest pieces.2).length_le
      simp only [List.flatMap_cons] at same
      have lengths := congrArg List.length same
      simp only [List.length_append] at lengths
      have first := pieces.1.length_le
      have head : some index = all index := pieces.1.eq_of_length (by omega)
      rw [head, List.append_cancel_left_eq] at same
      exact ⟨head, inductionHypothesis pieces.2 same⟩
  · intro each
    exact List.flatMap_congr each

/-- The bytes of a count that share the word at an index. -/
def bytesOf (data : Nat → Byte) (count index : Nat) : List Byte :=
  data (2 * index) :: if 2 * index + 1 < count then [data (2 * index + 1)] else []

/-- An even number of bytes is a number of pairs. -/
theorem pairs (data : Nat → Byte) (turns : Nat) :
    (List.range (2 * turns)).map data =
      (List.range turns).flatMap fun index => [data (2 * index), data (2 * index + 1)] := by
  induction turns with
  | zero => rfl
  | succ turns inductionHypothesis =>
    rw [show 2 * (turns + 1) = 2 * turns + 1 + 1 by omega]
    simp [List.range_succ, inductionHypothesis]

/-- The bytes of a count, word by word. -/
theorem bytesOf_flatMap (data : Nat → Byte) (count : Nat) :
    (List.range count).map data = (List.range ((count + 1) / 2)).flatMap (bytesOf data count) := by
  have full (turns : Nat) (within : 2 * turns ≤ count) :
      (List.range (2 * turns)).map data = (List.range turns).flatMap (bytesOf data count) := by
    rw [pairs]
    refine List.flatMap_congr fun index member => ?_
    have before := List.mem_range.mp member
    rw [bytesOf, if_pos (by omega)]
  obtain ⟨turns, even | odd⟩ := Nat.even_or_odd' count
  · have words : (count + 1) / 2 = turns := by omega
    rw [words, ← full turns (by omega), even]
  · have words : (count + 1) / 2 = turns + 1 := by omega
    have last : bytesOf data count turns = [data (2 * turns)] := by
      rw [bytesOf, if_neg (by omega)]
    rw [words, List.range_succ, List.flatMap_append, ← full turns (by omega), odd,
      List.range_succ, List.map_append]
    rw [odd] at last
    simp [last]

theorem nonZero_halves (data : Nat → Byte) (count : Word) :
    nonZero data count = (List.range (half count)).flatMap fun index =>
      (bytesOf data count.toNat index).filter (· ≠ 0) := by
  rw [nonZero, bytesOf_flatMap, List.filter_flatMap, half]

theorem packed_low (first second : Byte) :
    (first.setWidth 16 ||| (second.setWidth 16 <<< 8)).setWidth 8 = first := by
  apply BitVec.eq_of_getElem_eq
  intro bit inside
  interval_cases bit <;> simp

theorem packed_high (first second : Byte) :
    ((first.setWidth 16 ||| (second.setWidth 16 <<< 8)) >>> 8).setWidth 8 = second := by
  apply BitVec.eq_of_getElem_eq
  intro bit inside
  interval_cases bit <;> simp

/-- The printed characters of a word that a write left, by its bytes. -/
theorem printed_wordOf (data : Nat → Byte) (count : Word) (index : Nat)
    (inside : 2 * index < count.toNat) :
    printed count (wordOf data count index) index =
      (bytesOf data count.toNat index).takeWhile (· ≠ 0) := by
  by_cases paired : 2 * index + 1 < count.toNat
  · simp only [printed, wordOf, bytesOf, if_pos paired, packed_low, packed_high]
  · have alone : ((data (2 * index)).setWidth 16).setWidth 8 = data (2 * index) := by simp
    simp only [printed, wordOf, bytesOf, if_neg paired, if_pos inside, alone]
    by_cases hidden : data (2 * index) = 0#8 <;> simp [hidden]

/-- A string loses a byte exactly when it is the second of its word and the first is
zero. -/
theorem takeWhile_bytesOf_iff (data : Nat → Byte) (count index : Nat) :
    (bytesOf data count index).takeWhile (· ≠ 0) = (bytesOf data count index).filter (· ≠ 0) ↔
      (2 * index + 1 < count → data (2 * index) = 0 → data (2 * index + 1) = 0) := by
  by_cases paired : 2 * index + 1 < count
  · rw [bytesOf, if_pos paired]
    generalize data (2 * index) = first
    generalize data (2 * index + 1) = second
    by_cases hidden : first = 0#8 <;> by_cases last : second = 0#8 <;>
      simp [paired, hidden, last]
  · rw [bytesOf, if_neg paired]
    by_cases hidden : data (2 * index) = 0#8 <;>
      simp [paired, hidden]

/-- The data that a sector read prints after a sector write. -/
def handed (data : Nat → Byte) (count : Word) : List Byte :=
  (List.range (half count)).flatMap fun index => (bytesOf data count.toNat index).takeWhile (· ≠ 0)

/-- On ready drives both operations return, and the read prints the bytes of each
word up to the first zero. -/
theorem read_after_write (statuses : Statuses) (master : Bool) (portBase : BitVec 16)
    (sector count : Word) (data : Nat → Byte) (machine : Machine Channel)
    (inside : sector ≤ 0x0FFFFFFF) (fits : count ≤ 512) :
    ∃ middle last,
      Returns (write28 (channelBus statuses portBase) (construct master portBase) sector data count)
        machine middle ∧
      Returns (read28 (channelBus statuses portBase) (construct master portBase) sector count)
        middle last ∧
      last.console = middle.console ++ heading ++ handed data count := by
  have sized : count.toNat ≤ 512 := fits
  obtain ⟨middle, written, stored⟩ :=
    write28_stores statuses master portBase sector count data inside fits machine trivial
  obtain ⟨last, read, console⟩ := read28_prints statuses master portBase sector count
    middle.console _ inside fits middle ⟨rfl, rfl⟩
  refine ⟨middle, last, written, read, ?_⟩
  rw [console, handed]
  refine congrArg _ (List.flatMap_congr fun index member => ?_)
  have before := List.mem_range.mp member
  simp only [half] at before
  rw [stored index (by omega), printed_wordOf data count index (by omega)]

/-- A sector write and then a sector read on ready drives return, and the read hands
the non-zero bytes of the data to the console in order exactly when no byte at an
even index is zero before a non-zero one. -/
theorem round_trip_iff (statuses : Statuses) (master : Bool) (portBase : BitVec 16)
    (sector count : Word) (data : Nat → Byte) (machine : Machine Channel)
    (inside : sector ≤ 0x0FFFFFFF) (fits : count ≤ 512) :
    ∃ middle last,
      Returns (write28 (channelBus statuses portBase) (construct master portBase) sector data count)
        machine middle ∧
      Returns (read28 (channelBus statuses portBase) (construct master portBase) sector count)
        middle last ∧
      (last.console = middle.console ++ heading ++ nonZero data count ↔
        ∀ index, 2 * index + 1 < count.toNat → data (2 * index) = 0 →
          data (2 * index + 1) = 0) := by
  obtain ⟨middle, last, written, read, console⟩ :=
    read_after_write statuses master portBase sector count data machine inside fits
  refine ⟨middle, last, written, read, ?_⟩
  have pieces : ∀ index ∈ List.range (half count),
      ((bytesOf data count.toNat index).takeWhile (· ≠ 0)).Sublist
        ((bytesOf data count.toNat index).filter (· ≠ 0)) := by
    intro index _
    have kept : ((bytesOf data count.toNat index).takeWhile (· ≠ 0)).filter (· ≠ 0) =
        (bytesOf data count.toNat index).takeWhile (· ≠ 0) :=
      List.filter_eq_self.mpr fun _ member =>
        List.mem_takeWhile_imp (p := fun byte => decide (byte ≠ 0)) member
    rw [← kept]
    exact (List.takeWhile_sublist _).filter _
  rw [console, List.append_cancel_left_eq, nonZero_halves, handed, flatMap_eq_iff _ _ _ pieces]
  simp only [takeWhile_bytesOf_iff, List.mem_range, half]
  constructor
  · intro each index paired
    exact each index (by omega) paired
  · intro each index _
    exact each index

/-- A channel whose drives hold zeros, before any command. -/
def blank : Machine Channel where
  devices := ⟨fun _ _ _ => 0, 0, 0, 0, 0, 0, .none, 0, 0⟩
  console := []
  status := 0
  index := 0

/-- The drives are ready whenever they are asked. -/
def ready : Statuses where
  value _ := 0x50
  ready _ := by decide

/-- A sector of text comes back as it was written. -/
theorem round_trip_iff_text :
    ∃ middle last,
      Returns (write28 (channelBus ready 0x1F0) (construct true 0x1F0) 5
        (fun index => 0x41 + BitVec.ofNat 8 index) 25) blank middle ∧
      Returns (read28 (channelBus ready 0x1F0) (construct true 0x1F0) 5 25) middle last ∧
      (last.console = middle.console ++ heading ++
          nonZero (fun index => 0x41 + BitVec.ofNat 8 index) 25 ↔
        ∀ index, 2 * index + 1 < (25 : Word).toNat →
          (0x41 + BitVec.ofNat 8 (2 * index) : Byte) = 0 →
          (0x41 + BitVec.ofNat 8 (2 * index + 1) : Byte) = 0) :=
  round_trip_iff ready true 0x1F0 5 25 (fun index => 0x41 + BitVec.ofNat 8 index) blank
    (by decide) (by decide)

/-- The bytes 0x00 and 0x41 are written to sector 5 and read back: nothing is printed
after the heading. -/
theorem hidden_byte :
    ¬∀ middle last,
      Returns (write28 (channelBus ready 0x1F0) (construct true 0x1F0) 5
        (fun index => if index = 1 then 0x41 else 0x00) 2) blank middle →
      Returns (read28 (channelBus ready 0x1F0) (construct true 0x1F0) 5 2) middle last →
      last.console = middle.console ++ heading ++
        nonZero (fun index => if index = 1 then 0x41 else 0x00) 2 := by
  intro claimed
  obtain ⟨middle, last, written, read, console⟩ := read_after_write ready true 0x1F0 5 2
    (fun index => if index = 1 then 0x41 else 0x00) blank (by decide) (by decide)
  have same := claimed middle last written read
  rw [console, List.append_cancel_left_eq] at same
  exact absurd same (by decide)

end BlueOs.SectorRoundTrip
