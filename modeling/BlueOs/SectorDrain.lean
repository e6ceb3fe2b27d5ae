import BlueOs.DrivePolling

/-!
# How many words a sector read takes

After the command a sector read takes one word for every two bytes of the count, and
then goes on from the count, rounded away from zero to an even number, until byte
512. The count is an `int` without a range check. The two loops meet at the end of
the sector exactly when the count is one of a part of a sector, from 0 to 512.
-/

namespace BlueOs.SectorDrain

open Port Programs AdvanceTechnologyAttachment DrivePolling

/-- The turns of a loop that counts in steps of two from one number up to another. -/
def turns (first limit : Int) : Nat := ((limit - first + 1) / 2).toNat

/-- The words of both loops. -/
def wordsTaken (count : Int) : Nat := turns 0 count + turns (count + count.tmod 2) 512

/-- The remainder of an `int` has the sign of the `int`. -/
theorem tmod_two (count : Int) :
    count.tmod 2 = if count < 0 then -((-count) % 2) else count % 2 := by
  split
  · rw [← Int.tmod_eq_emod_of_nonneg (by omega), Int.neg_tmod, Int.neg_neg]
  · exact Int.tmod_eq_emod_of_nonneg (by omega)

/-- Both loops together take 256 words for the counts of a part of a sector. -/
theorem wordsTaken_iff (count : Int) : wordsTaken count = 256 ↔ 0 ≤ count ∧ count ≤ 512 := by
  simp only [wordsTaken, turns, tmod_two]
  split <;> omega

section counting

variable (base : Nat)

/-- A loop that takes one word a turn, with a counter that does not wrap. -/
theorem counted_achieves (limit : Word) (body : Machine Reads → Machine Reads)
    (advances : ∀ machine, (body machine).index = machine.index + 2)
    (reads : ∀ machine, (body machine).devices.dataReads = machine.devices.dataReads + 1)
    (room : limit.toInt + 2 ≤ 2 ^ 31) (first : Int) :
    Achieves (fun machine => machine.index.toInt = first ∧ machine.devices.dataReads = base)
      (loop (fun machine => machine.index.slt limit) body)
      fun machine => machine.devices.dataReads = base + turns first limit.toInt := by
  have counted : Achieves
      (fun machine => machine.index.toInt = first + 2 * (0 : Nat) ∧
        machine.devices.dataReads = base + 0)
      (loop (fun machine => machine.index.slt limit) body)
      (fun machine => machine.index.toInt = first + 2 * (turns first limit.toInt : Nat) ∧
        machine.devices.dataReads = base + turns first limit.toInt) := by
    apply achieves_loop _ _ (fun (turn : Nat) (machine : Machine Reads) =>
      machine.index.toInt = first + 2 * turn ∧ machine.devices.dataReads = base + turn) 0 _
      (Nat.zero_le _)
    · rintro turn machine - within ⟨index, taken⟩
      simp only [turns] at within
      have below : machine.index.toInt < limit.toInt := by omega
      have bottom := BitVec.le_toInt machine.index
      have two : (2 : Word).toInt = 2 := rfl
      have moved : (machine.index + 2).toInt = machine.index.toInt + 2 := by
        rw [BitVec.toInt_add, two, Int.bmod_eq_of_le_mul_two] <;> omega
      refine ⟨by simpa [BitVec.slt] using below, ?_, ?_⟩
      · rw [advances, moved, index]
        omega
      · rw [reads, taken]
        omega
    · rintro machine ⟨index, -⟩
      simp only [turns] at index
      have reached : ¬ machine.index.toInt < limit.toInt := by omega
      simpa [BitVec.slt] using reached
  rintro machine ⟨index, taken⟩
  obtain ⟨last, returned, -, total⟩ := counted machine ⟨by omega, taken⟩
  exact ⟨last, returned, total⟩

end counting

section reading

variable (ata : Driver) (statuses : Nat → Byte) (words : Nat → BitVec 16) (base : Nat)

/-- The counter of the second loop, when the first one ended. -/
theorem rounded_toInt (count : Word) (bounded : count ≠ 0x7FFFFFFF) :
    (count + count.srem 2).toInt = count.toInt + count.toInt.tmod 2 := by
  have bottom := BitVec.le_toInt count
  have top := count.toInt_lt
  have below : count.toInt ≠ 0x7FFFFFFF := fun same =>
    bounded (BitVec.eq_of_toInt_eq (same.trans (by decide)))
  have two : (2 : Word).toInt = 2 := rfl
  have parity : (count.srem 2).toInt = count.toInt.tmod 2 := by
    rw [BitVec.toInt_srem, two]
  rw [BitVec.toInt_add, parity, tmod_two, Int.bmod_eq_of_le_mul_two]
  · split <;> omega
  · split <;> omega

/-- The transfer of a sector read takes the words of both loops. -/
theorem readWords_takes (count : Word) (bounded : count ≠ 0x7FFFFFFF) :
    Achieves (fun machine => machine.devices.dataReads = base)
      (readWords (streamBus ata statuses words) ata count)
      fun machine => machine.devices.dataReads = base + wordsTaken count.toInt := by
  have top := count.toInt_lt
  have below : count.toInt ≠ 0x7FFFFFFF := fun same =>
    bounded (BitVec.eq_of_toInt_eq (same.trans (by decide)))
  apply achieves_seq _
    (fun machine => machine.index.toInt = 0 ∧ machine.devices.dataReads = base)
  · apply achieves_step
    intro machine held
    exact ⟨rfl, held⟩
  apply achieves_seq _
    (fun machine => machine.devices.dataReads = base + turns 0 count.toInt)
  · exact counted_achieves base count _ (fun _ => rfl) (fun _ => rfl) (by omega) 0
  apply achieves_seq _ (fun machine =>
    machine.index.toInt = count.toInt + count.toInt.tmod 2 ∧
      machine.devices.dataReads = base + turns 0 count.toInt)
  · apply achieves_step
    intro machine held
    exact ⟨rounded_toInt count bounded, held⟩
  · have size : (512 : Word).toInt = 512 := rfl
    have drained := counted_achieves (base + turns 0 count.toInt) 512
      (drainWord (streamBus ata statuses words) ata) (fun _ => rfl) (fun _ => rfl)
      (by rw [size]; decide) (count.toInt + count.toInt.tmod 2)
    rw [size, Nat.add_assoc] at drained
    exact drained

/-- The status values become ready without an error, after a while. -/
def EndsWithoutError : Prop :=
  ∃ count, (∀ earlier < count, ¬ Settled (statuses earlier)) ∧ Settled (statuses count) ∧
    statuses count &&& 0x01 = 0

/-- Polling takes no words. -/
theorem poll_takes (ends : EndsWithoutError statuses) :
    Achieves (fun machine => Holds statuses 0 machine ∧ machine.devices.dataReads = base)
      (poll (streamBus ata statuses words) ata)
      fun machine => failed machine = false ∧ machine.devices.dataReads = base := by
  obtain ⟨count, busy, settled, succeeded⟩ := ends
  rintro machine ⟨holds, taken⟩
  obtain ⟨last, returned, status, kept⟩ :=
    poll_returns ata statuses words machine holds count settled busy
  refine ⟨last, returned, ?_, kept.trans taken⟩
  simp only [failed, status, succeeded]
  rfl

/-- A sector read within the address space takes the words of both loops. -/
theorem read28_takes (sectorNum count : Word) (inside : sectorNum ≤ 0x0FFFFFFF)
    (bounded : count ≠ 0x7FFFFFFF) (ends : EndsWithoutError statuses) :
    Achieves (fun machine => machine.devices.statusReads = 0 ∧ machine.devices.dataReads = base)
      (read28 (streamBus ata statuses words) ata sectorNum count)
      fun machine => machine.devices.dataReads = base + wordsTaken count.toInt := by
  apply achieves_branch_no _ _ _ _ _ (fun _ _ => by simpa using BitVec.not_lt.mpr inside)
  apply achieves_seq _ (fun machine => Holds statuses 0 machine ∧ machine.devices.dataReads = base)
  · apply achieves_step
    rintro machine ⟨fresh, taken⟩
    rw [writePorts_stream]
    have first := readStatus_holds ata statuses words machine
    rw [fresh] at first
    exact ⟨first, (readStatus_dataReads ata statuses words machine).trans taken⟩
  apply achieves_seq _ _ _ _ _ (poll_takes ata statuses words base ends)
  apply achieves_branch_no _ _ _ _ _ (fun machine held => held.1)
  intro machine held
  exact readWords_takes ata statuses words base count bounded machine held.2

/-- For every sequence of status values that ends without an error, a sector read
returns after exactly 256 words if and only if its count is from 0 to 512. -/
theorem read28_drains_iff (sectorNum count : Word) (machine : Machine Reads)
    (fresh : machine.devices.statusReads = 0) (inside : sectorNum ≤ 0x0FFFFFFF)
    (ends : EndsWithoutError statuses) :
    (∃ last, Returns (read28 (streamBus ata statuses words) ata sectorNum count) machine last ∧
        last.devices.dataReads = machine.devices.dataReads + 256) ↔
      0 ≤ count.toInt ∧ count.toInt ≤ 512 := by
  by_cases bounded : count = 0x7FFFFFFF
  · -- The first loop does not end.
    subst bounded
    have halting := read28_halts_iff ata statuses words sectorNum 0x7FFFFFFF machine fresh
      ⟨ends.choose, ends.choose_spec.2.1⟩
    have forever : ¬ Halts (read28 (streamBus ata statuses words) ata sectorNum 0x7FFFFFFF)
        machine := by
      rw [halting]
      rintro (outside | other | ⟨index, before, error⟩)
      · exact absurd inside (BitVec.not_le.mpr outside)
      · exact other rfl
      · obtain ⟨count, busy, settled, succeeded⟩ := ends
        rcases Nat.lt_trichotomy index count with early | same | late
        · exact busy index early (Or.inr error)
        · exact error (same ▸ succeeded)
        · exact before count late settled
    constructor
    · rintro ⟨last, returned, -⟩
      exact absurd ⟨last, returned⟩ forever
    · rintro ⟨-, small⟩
      exact absurd small (by decide)
  · obtain ⟨last, returned, taken⟩ := read28_takes ata statuses words machine.devices.dataReads
      sectorNum count inside bounded ends machine ⟨fresh, rfl⟩
    rw [← wordsTaken_iff]
    constructor
    · rintro ⟨other, returnedToo, drained⟩
      rw [returns_unique _ machine other last returnedToo returned, taken] at drained
      exact Nat.add_left_cancel drained
    · intro whole
      exact ⟨last, returned, by rw [taken, whole]⟩

end reading

/-- Twenty-five bytes from a drive that is busy for three reads. -/
theorem read28_drains_iff_slow_drive :
    ∃ last, Returns (read28 (streamBus (construct false 0x1F0)
        (fun count => if count < 3 then 0x80 else 0x58) fun _ => 0x4142) (construct false 0x1F0)
        0 25) unread last ∧ last.devices.dataReads = 256 :=
  (read28_drains_iff (construct false 0x1F0) (fun count => if count < 3 then 0x80 else 0x58)
    (fun _ => 0x4142) 0 25 unread rfl (by decide) ⟨3, by decide, by decide, by decide⟩).mpr
      (by decide)

/-- A sector read of a ready drive. -/
def readyRead (count : Word) : Program (Machine Reads) :=
  read28 (streamBus (construct false 0x1F0) (fun _ => 0x58) fun _ => 0x4142)
    (construct false 0x1F0) 0 count

theorem readyRead_takes (count : Word) (bounded : count ≠ 0x7FFFFFFF) :
    ∃ last, Returns (readyRead count) unread last ∧
      last.devices.dataReads = 0 + wordsTaken count.toInt :=
  read28_takes (construct false 0x1F0) (fun _ => 0x58) (fun _ => 0x4142) 0 0 count (by decide)
    bounded ⟨0, by decide, by decide, by decide⟩ unread ⟨rfl, rfl⟩

/-- Reads of 514 bytes and of minus one byte take a word too many. -/
theorem drain_passes_the_end :
    (∃ last, Returns (readyRead 514) unread last ∧ last.devices.dataReads = 257) ∧
      (∃ last, Returns (readyRead (-1)) unread last ∧ last.devices.dataReads = 257) ∧
      ¬ ∃ last, Returns (readyRead 514) unread last ∧ last.devices.dataReads = 256 := by
  refine ⟨readyRead_takes 514 (by decide), readyRead_takes (-1) (by decide), ?_⟩
  rintro ⟨last, returned, drained⟩
  obtain ⟨other, returnedToo, taken⟩ := readyRead_takes 514 (by decide)
  rw [returns_unique _ unread last other returned returnedToo, taken] at drained
  exact absurd drained (by decide)

end BlueOs.SectorDrain
