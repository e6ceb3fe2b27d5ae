import BlueOs.AdvanceTechnologyAttachment

/-!
# When the ATA operations return

The status port is an arbitrary sequence of values, read one after the other; the
other ports do nothing. A polling loop ends at the first value that satisfies its
exit condition, and the loops that transfer words end unless their counter wraps.

The exit condition of `identify` and `read28` is the documented one, busy clear or
error set. That of `flush` ignores the error bit, so on a floating bus it never
returns.
-/

namespace BlueOs.DrivePolling

open Port Programs AdvanceTechnologyAttachment

/-- How many values the driver has read so far. -/
structure Reads where
  statusReads : Nat
  dataReads : Nat

/-- A drive that answers status reads with a given sequence. -/
def streamBus (ata : Driver) (statuses : Nat → Byte) (words : Nat → BitVec 16) : Bus Reads where
  inb port reads :=
    if port = ata.commandPort.portnumber then
      (statuses reads.statusReads, { reads with statusReads := reads.statusReads + 1 })
    else (0xFF, reads)
  outb _ _ reads := reads
  inw _ reads := (words reads.dataReads, { reads with dataReads := reads.dataReads + 1 })
  outw _ _ reads := reads

/-- Busy clear or error set. -/
def Settled (status : Byte) : Prop := status &&& 0x80 = 0 ∨ status &&& 0x01 ≠ 0

instance (status : Byte) : Decidable (Settled status) := inferInstanceAs (Decidable (_ ∨ _))

/-- The first settled value has the error bit. -/
def FailsFirst (statuses : Nat → Byte) : Prop :=
  ∃ count, (∀ earlier < count, ¬ Settled (statuses earlier)) ∧ statuses count &&& 0x01 ≠ 0

/-- When an operation returns. -/
def ReturnsWhen (statuses : Nat → Byte) : Call → Prop
  | .identify => statuses 0 = 0xFF ∨ ∃ count, Settled (statuses (count + 1))
  | .read28 sectorNum count =>
    0x0FFFFFFF < sectorNum ∨ count ≠ 0x7FFFFFFF ∨ FailsFirst statuses
  | .write28 _ _ _ => True
  | .flush => ∃ count, statuses count &&& 0x80 = 0

/-- The guard of the documented polling loops is false at settled values. -/
theorem busyWithoutError_false {δ : Type} (machine : Machine δ) :
    busyWithoutError machine = false ↔ Settled machine.status := by
  have bits : ∀ status : Byte, (status &&& 0x80 = 0x80 && status &&& 0x01 ≠ 0x01) = false ↔
      (status &&& 0x80 = 0 ∨ status &&& 0x01 ≠ 0) := by
    decide
  exact bits machine.status

section counting

variable {δ : Type}

/-- A signed counter that cannot pass the largest `int` reaches its limit. -/
theorem halts_counting (limit stride : Word) (body : Machine δ → Machine δ)
    (advances : ∀ machine, (body machine).index = machine.index + stride)
    (positive : 0 < stride.toInt) (room : limit.toInt + stride.toInt ≤ 2 ^ 31)
    (machine : Machine δ) :
    Halts (loop (fun machine => machine.index.slt limit) body) machine := by
  refine halts_loop_of_measure _ _
    (fun machine => (limit.toInt - machine.index.toInt).toNat) ?_ machine
  intro current below
  have lower : current.index.toInt < limit.toInt := by simpa [BitVec.slt] using below
  have bottom := BitVec.le_toInt current.index
  have moved : (current.index + stride).toInt = current.index.toInt + stride.toInt := by
    rw [BitVec.toInt_add, Int.bmod_eq_of_le_mul_two] <;> omega
  simp only [advances, moved]
  omega

/-- Counting up to a small unsigned limit in steps of two. -/
theorem halts_counting_unsigned (limit : Word) (body : Machine δ → Machine δ)
    (advances : ∀ machine, (body machine).index = machine.index + 2) (small : limit ≤ 512)
    (machine : Machine δ) : Halts (loop (fun machine => machine.index < limit) body) machine := by
  refine halts_loop_of_measure _ _ (fun machine => limit.toNat - machine.index.toNat) ?_ machine
  intro current below
  simp only [decide_eq_true_eq] at below
  simp only [advances]
  bv_omega

/-- An even counter never reaches the largest `int`. -/
theorem counting_forever (body : Machine δ → Machine δ)
    (advances : ∀ machine, (body machine).index = machine.index + 2) (machine : Machine δ)
    (even : machine.index.toNat % 2 = 0) :
    ¬ Halts (loop (fun machine => machine.index.slt 0x7FFFFFFF) body) machine := by
  refine not_halts_loop_of_invariant _ _ (fun machine => machine.index.toNat % 2 = 0) ?_ ?_
    machine even
  · intro current held
    rw [advances]
    bv_omega
  · intro current held
    have bound := current.index.isLt
    have top : (0x7FFFFFFF : Word).toInt = 2147483647 := by decide
    simp only [BitVec.slt, decide_eq_true_eq, top, BitVec.toInt_eq_toNat_cond current.index]
    split <;> omega

end counting

section transfers

variable {δ : Type} (bus : Bus δ) (ata : Driver)

/-- The words of an identification are all transferred, whatever they are. -/
theorem identifyWords_halts (machine : Machine δ) :
    Halts (identifyWords bus ata) machine := by
  rw [identifyWords, halts_step_seq, halts_seq_of_total _ _ _ fun _ => halts_step _ _]
  exact halts_counting 256 1 _ (fun _ => rfl) (by decide) (by decide) _

/-- A sector read transfers all its words unless the count is the largest `int`. -/
theorem readWords_halts_iff (count : Word) (machine : Machine δ) :
    Halts (readWords bus ata count) machine ↔ count ≠ 0x7FFFFFFF := by
  have drained (middle : Machine δ) : Halts (seq (step (setIndex (count + count.srem 2)))
      (loop (fun machine => machine.index.slt 512)
        (drainWord bus ata))) middle := by
    rw [halts_step_seq]
    exact halts_counting 512 2 _ (fun _ => rfl) (by decide) (by decide) _
  rw [readWords, halts_step_seq, halts_seq_of_total _ _ _ drained]
  by_cases largest : count = 0x7FFFFFFF
  · subst largest
    simp only [ne_eq, not_true_eq_false, iff_false]
    exact counting_forever _ (fun _ => rfl) _ rfl
  · simp only [ne_eq, largest, not_false_eq_true, iff_true]
    have top := count.toInt_lt
    have below : count.toInt ≠ 0x7FFFFFFF := fun same =>
      largest (BitVec.eq_of_toInt_eq (same.trans (by decide)))
    exact halts_counting count 2 _ (fun _ => rfl) (by decide) (by
      have stride : (2 : Word).toInt = 2 := by decide
      omega) _

/-- A sector write polls nothing and always returns. -/
theorem write28_halts (sector : Word) (data : Nat → Byte) (count : Word) (machine : Machine δ) :
    Halts (write28 bus ata sector data count) machine := by
  have padded (middle : Machine δ) : Halts (seq (step (setIndex (count + count % 2)))
      (loop (fun machine => machine.index.slt 512)
        (padWord bus ata))) middle := by
    rw [halts_step_seq]
    exact halts_counting 512 2 _ (fun _ => rfl) (by decide) (by decide) _
  simp only [write28, halts_branch, halts_skip, halts_step_seq, halts_seq_of_total _ _ _ padded]
  split
  · trivial
  · split
    · trivial
    case isFalse fits =>
      refine halts_counting_unsigned count _ (fun _ => rfl) ?_ _
      simp only [decide_eq_true_eq] at fits
      bv_omega

end transfers

section stream

variable (ata : Driver) (statuses : Nat → Byte) (words : Nat → BitVec 16)

/-- The machine holds a value of the sequence and has read as far as that value. -/
structure Holds (position : Nat) (machine : Machine Reads) : Prop where
  status : machine.status = statuses position
  next : machine.devices.statusReads = position + 1

/-- Port writes leave the sequence where it is. -/
theorem writePorts_stream (accesses : List (Port8Bit × Byte)) (machine : Machine Reads) :
    writePorts (streamBus ata statuses words) accesses machine = machine := by
  have kept : ∀ reads : Reads, accesses.foldl (fun devices access =>
      access.1.write (streamBus ata statuses words) access.2 devices) reads = reads := by
    intro reads
    induction accesses with
    | nil => rfl
    | cons access rest inductionHypothesis => exact inductionHypothesis
  simp only [writePorts, kept]

theorem readStatus_holds (machine : Machine Reads) :
    Holds statuses machine.devices.statusReads
      (readStatus (streamBus ata statuses words) ata machine) := by
  constructor <;> simp [readStatus, Port8Bit.read, streamBus]

/-- Polling moves along the sequence. -/
theorem readStatus_iterate (position count : Nat) (machine : Machine Reads)
    (held : Holds statuses position machine) :
    Holds statuses (position + count)
      ((readStatus (streamBus ata statuses words) ata)^[count] machine) := by
  induction count with
  | zero => exact held
  | succ count inductionHypothesis =>
    rw [Function.iterate_succ_apply']
    have next := readStatus_holds ata statuses words
      ((readStatus (streamBus ata statuses words) ata)^[count] machine)
    rwa [inductionHypothesis.next] at next

/-- Status reads take no words. -/
theorem readStatus_dataReads (machine : Machine Reads) :
    (readStatus (streamBus ata statuses words) ata machine).devices.dataReads =
      machine.devices.dataReads := by
  simp [readStatus, Port8Bit.read, streamBus]

theorem readStatus_iterate_dataReads (count : Nat) (machine : Machine Reads) :
    ((readStatus (streamBus ata statuses words) ata)^[count] machine).devices.dataReads =
      machine.devices.dataReads := by
  induction count with
  | zero => rfl
  | succ count inductionHypothesis =>
    rw [Function.iterate_succ_apply', readStatus_dataReads]
    exact inductionHypothesis

theorem poll_halts_iff (position : Nat) (machine : Machine Reads)
    (held : Holds statuses position machine) :
    Halts (poll (streamBus ata statuses words) ata) machine ↔
      ∃ count, Settled (statuses (position + count)) := by
  simp only [poll, halts_loop_iff, busyWithoutError_false,
    (readStatus_iterate ata statuses words position _ machine held).status]

/-- Polling from the first value ends at the first settled one. -/
theorem poll_returns (machine : Machine Reads) (held : Holds statuses 0 machine) (count : Nat)
    (settled : Settled (statuses count))
    (first : ∀ earlier < count, ¬ Settled (statuses earlier)) :
    ∃ last, Returns (poll (streamBus ata statuses words) ata) machine last ∧
      last.status = statuses count ∧ last.devices.dataReads = machine.devices.dataReads := by
  have values (index : Nat) := readStatus_iterate ata statuses words 0 index machine held
  simp only [Nat.zero_add] at values
  have taken := readStatus_iterate_dataReads ata statuses words count machine
  refine ⟨_, returns_loop busyWithoutError _ count machine ?_ ?_, (values count).status, taken⟩
  · intro earlier before
    have unsettled := first earlier before
    rw [← (values earlier).status, ← busyWithoutError_false] at unsettled
    simpa using unsettled
  · rw [busyWithoutError_false, (values count).status]
    exact settled

theorem identify_halts_iff (machine : Machine Reads) (fresh : machine.devices.statusReads = 0) :
    Halts (identify (streamBus ata statuses words) ata) machine ↔
      ReturnsWhen statuses .identify := by
  have first := readStatus_holds ata statuses words machine
  rw [fresh] at first
  have second := readStatus_holds ata statuses words
    (readStatus (streamBus ata statuses words) ata machine)
  rw [first.next] at second
  have rest (middle : Machine Reads) : Halts (branch failed (step (printLiteral "ERROR"))
      (identifyWords (streamBus ata statuses words) ata)) middle := by
    simp [identifyWords_halts]
  simp only [identify, halts_step_seq, writePorts_stream, halts_branch, halts_skip, first.status,
    second.status, halts_seq_of_total _ _ _ rest, poll_halts_iff ata statuses words _ _ second,
    decide_eq_true_eq, ReturnsWhen]
  by_cases floating : statuses 0 = 0xFF
  · simp [floating]
  · simp only [floating, if_false, false_or, Nat.zero_add, Nat.add_comm 1]
    by_cases absent : statuses 1 = 0x00
    · simp only [absent, if_true, true_iff]
      exact ⟨0, by rw [Nat.zero_add, absent]; decide⟩
    · simp only [absent, if_false]

theorem read28_halts_iff (sectorNum count : Word) (machine : Machine Reads)
    (fresh : machine.devices.statusReads = 0) (eventually : ∃ count, Settled (statuses count)) :
    Halts (read28 (streamBus ata statuses words) ata sectorNum count) machine ↔
      ReturnsWhen statuses (.read28 sectorNum count) := by
  have first := readStatus_holds ata statuses words machine
  rw [fresh] at first
  -- The loop ends at the first settled value, and its error bit decides what follows.
  obtain ⟨last, returned, value, -⟩ := poll_returns ata statuses words _ first (Nat.find eventually)
    (Nat.find_spec eventually) (fun earlier before => Nat.find_min eventually before)
  have fails : statuses (Nat.find eventually) &&& 0x01 ≠ 0 ↔ FailsFirst statuses := by
    constructor
    · intro failed
      exact ⟨_, fun earlier before => Nat.find_min eventually before, failed⟩
    · rintro ⟨settled, before, failed⟩
      have same : Nat.find eventually = settled := (Nat.find_eq_iff eventually).mpr
        ⟨Or.inr failed, before⟩
      rwa [same]
  simp only [read28, halts_branch, halts_skip, halts_step_seq, writePorts_stream, ReturnsWhen,
    halts_seq_of_returns _ _ _ _ returned, halts_step, readWords_halts_iff, failed, value,
    decide_eq_true_eq, ← fails]
  by_cases outside : 0x0FFFFFFF < sectorNum
  · simp only [outside, if_true, true_or]
  · by_cases error : statuses (Nat.find eventually) &&& 0x01 = 0
    · simp only [outside, error, ne_eq, not_true_eq_false, if_false, false_or, or_false]
    · simp only [outside, error, ne_eq, not_false_eq_true, if_true, if_false, or_true]

theorem flush_halts_iff (machine : Machine Reads) (fresh : machine.devices.statusReads = 0) :
    Halts (flush (streamBus ata statuses words) ata) machine ↔ ReturnsWhen statuses .flush := by
  have first := readStatus_holds ata statuses words machine
  rw [fresh] at first
  have reported (middle : Machine Reads) : Halts (branch failed
      (step (printLiteral "ATA FLUSH ERROR\n")) (step (printLiteral "ATA FLUSH Completed\n")))
      middle := by
    simp
  have values (count : Nat) := readStatus_iterate ata statuses words 0 count _ first
  simp only [Nat.zero_add] at values
  simp only [flush, halts_step_seq, writePorts_stream, halts_seq_of_total _ _ _ reported,
    halts_loop_iff, busy, (values _).status, ReturnsWhen, ne_eq, decide_not, Bool.not_eq_false',
    decide_eq_true_eq]

/-- Every sequence of status values with a settled one, read from its start: an
operation returns exactly when the sequence lets its own polling loop end and, for
`read28`, the counter of its transfer does not wrap. -/
theorem halts_iff (call : Call) (machine : Machine Reads)
    (fresh : machine.devices.statusReads = 0) (eventually : ∃ count, Settled (statuses count)) :
    Halts (call.program (streamBus ata statuses words) ata) machine ↔
      ReturnsWhen statuses call := by
  cases call with
  | identify => exact identify_halts_iff ata statuses words machine fresh
  | read28 sectorNum count =>
    exact read28_halts_iff ata statuses words sectorNum count machine fresh eventually
  | write28 sector data count =>
    exact iff_of_true (write28_halts _ ata sector data count machine) trivial
  | flush => exact flush_halts_iff ata statuses words machine fresh

end stream

/-- Nothing read yet and nothing printed. -/
def unread : Machine Reads where
  devices := { statusReads := 0, dataReads := 0 }
  console := []
  status := 0
  index := 0

/-- A drive that is busy for three reads and then ready. -/
theorem halts_iff_slow_drive :
    Halts ((Call.read28 0 25).program
        (streamBus (construct false 0x1F0) (fun count => if count < 3 then 0x80 else 0x58)
          fun _ => 0x4142) (construct false 0x1F0)) unread ↔
      ReturnsWhen (fun count => if count < 3 then 0x80 else 0x58) (.read28 0 25) :=
  halts_iff (construct false 0x1F0) (fun count => if count < 3 then 0x80 else 0x58)
    (fun _ => 0x4142) (.read28 0 25) unread rfl ⟨3, by decide⟩

/-- On a floating bus, where every status value has the error bit, `flush` does not
return. -/
theorem flush_hangs_on_floating_bus :
    (∃ count : Nat, Settled ((fun _ => 0xFF : Nat → Byte) count)) ∧
      ¬ Halts (Call.flush.program
        (streamBus (construct false 0x1F0) (fun _ => 0xFF) fun _ => 0xFFFF)
        (construct false 0x1F0)) unread := by
  refine ⟨⟨0, by decide⟩, ?_⟩
  change ¬ Halts (flush _ _) unread
  rw [flush_halts_iff _ _ _ unread rfl]
  rintro ⟨count, ready⟩
  change (0xFF : Byte) &&& 0x80 = 0 at ready
  exact absurd ready (by decide)

end BlueOs.DrivePolling
