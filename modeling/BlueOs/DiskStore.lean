import BlueOs.DrivePolling
import BlueOs.Library.LatestWrites
import BlueOs.SectorWrite

/-!
# The drives of a channel as a store

Both drives of a channel share its registers, so a call on one drive overwrites what a
call on the other one left there. Still, over any sequence of calls on the two ready
drives every sector holds the data of the latest accepted write to it, and a sector read
prints that data, of each word the characters up to its first zero byte. No other call
changes a sector.
-/

namespace BlueOs.DiskStore

open Port Programs AdvanceTechnologyAttachment SectorDisk SectorRoundTrip

/-- A call of an operation of one of the two drives. -/
structure DriveCall where
  master : Bool
  call : Call

/-- The sectors by drive, address and word. -/
abbrev Sectors := Bool → BitVec 28 → Nat → BitVec 16

/-- A write that was accepted, with the words it leaves. -/
structure Write where
  drive : Bool
  sector : BitVec 28
  words : Nat → BitVec 16

def Write.place (write : Write) : Bool × BitVec 28 := (write.drive, write.sector)

/-- What a call writes. -/
def DriveCall.written : DriveCall → Option Write
  | ⟨master, .write28 sector data count⟩ =>
    if sector ≤ 0x0FFFFFFF ∧ count ≤ 512 then
      some ⟨!master, sector.setWidth 28, wordOf data count⟩
    else none
  | _ => none

/-- The store after calls: each sector as its latest write left it. -/
def store (before : Sectors) (calls : List DriveCall) (drive : Bool) (sector : BitVec 28) :
    Nat → BitVec 16 :=
  ((LatestWrites.latest Write.place (calls.filterMap DriveCall.written) (drive, sector)).map
    Write.words).getD (before drive sector)

/-- A read asks for no more than a sector holds. -/
def DriveCall.Bounded : DriveCall → Prop
  | ⟨_, .read28 _ count⟩ => count ≤ 512
  | _ => True

section kept

variable (statuses : Statuses) (master : Bool) (portBase : BitVec 16) (before : Sectors)

/-- The sectors of the drives. -/
def Kept (machine : Machine Channel) : Prop := machine.devices.sectors = before

theorem readWord_sectors (channel : Channel) : channel.readWord.2.sectors = channel.sectors := by
  rw [Channel.readWord]
  split
  · rfl
  · rfl

theorem readStatus_kept (machine : Machine Channel) (kept : Kept before machine) :
    Kept before (readStatus (channelBus statuses portBase) (construct master portBase) machine) := by
  rw [readStatus_channel]
  exact kept

theorem readData_kept (machine : Machine Channel) (kept : Kept before machine) :
    Kept before
      (readData (channelBus statuses portBase) (construct master portBase) machine).2 := by
  rw [readData_channel, Kept]
  exact (readWord_sectors machine.devices).trans kept

/-- A byte written to a port changes no sector. -/
theorem writePorts_kept (accesses : List (Port8Bit × Byte)) (machine : Machine Channel)
    (kept : Kept before machine) :
    Kept before (writePorts (channelBus statuses portBase) accesses machine) := by
  have outb (port : BitVec 16) (value : Byte) (channel : Channel) :
      ((channelBus statuses portBase).outb port value channel).sectors = channel.sectors := by
    simp only [channelBus]
    repeat' split
    all_goals rfl
  induction accesses generalizing machine with
  | nil => exact kept
  | cons access rest inductionHypothesis =>
    apply inductionHypothesis { machine with
      devices := access.1.write (channelBus statuses portBase) access.2 machine.devices }
    exact (outb _ _ _).trans kept

/-- A loop whose body reads the data port. -/
theorem loop_kept (guard : Machine Channel → Bool) (body : Machine Channel → Machine Channel)
    (reads : ∀ machine, Kept before machine → Kept before (body machine)) :
    Ensures (Kept before) (loop guard body) (Kept before) fun _ => True :=
  ensures_loop _ _ _ guard body (Kept before) (fun machine held _ => reads machine held)
    (fun _ held => held) (fun _ held _ => held) fun _ _ => trivial

theorem identifyWords_kept :
    Ensures (Kept before)
      (identifyWords (channelBus statuses portBase) (construct master portBase)) (Kept before)
      fun _ => True := by
  apply ensures_seq _ (Kept before)
  · exact ensures_step _ _ _ _ fun _ held => held
  apply ensures_seq _ (Kept before)
  · exact loop_kept before _ _ fun machine held =>
      readData_kept statuses master portBase before machine held
  · exact ensures_step _ _ _ _ fun _ held => held

theorem readWords_kept (count : Word) :
    Ensures (Kept before)
      (readWords (channelBus statuses portBase) (construct master portBase) count) (Kept before)
      fun _ => True := by
  apply ensures_seq _ (Kept before)
  · exact ensures_step _ _ _ _ fun _ held => held
  apply ensures_seq _ (Kept before)
  · exact loop_kept before _ _ fun machine held =>
      readData_kept statuses master portBase before machine held
  apply ensures_seq _ (Kept before)
  · exact ensures_step _ _ _ _ fun _ held => held
  · exact loop_kept before _ _ fun machine held =>
      readData_kept statuses master portBase before machine held

/-- The polling loop changes no sector. -/
theorem poll_kept :
    Ensures (Kept before) (poll (channelBus statuses portBase) (construct master portBase))
      (Kept before) fun _ => True :=
  loop_kept before _ _ fun machine held =>
    readStatus_kept statuses master portBase before machine held

theorem read28_kept (sector count : Word) :
    Ensures (Kept before)
      (read28 (channelBus statuses portBase) (construct master portBase) sector count)
      (Kept before) fun _ => True := by
  apply ensures_branch
  · exact ensures_step _ _ _ _ fun _ held => held.1
  apply ensures_seq _ (Kept before)
  · exact ensures_step _ _ _ _ fun machine held => readStatus_kept statuses master portBase before _
      (writePorts_kept statuses portBase before _ machine held.1)
  apply ensures_seq _ _ _ _ _ _ (poll_kept statuses master portBase before)
  apply ensures_branch
  · exact ensures_step _ _ _ _ fun _ held => held.1
  · intro fuel machine held
    exact readWords_kept statuses master portBase before count fuel machine held.1

/-- The sectors, and a status that shows a ready drive. -/
structure Polled (machine : Machine Channel) : Prop where
  kept : Kept before machine
  status : machine.status &&& 0x81 = 0

/-- Port writes and a status read leave a ready drive. -/
theorem readStatus_polled (accesses : List (Port8Bit × Byte)) (machine : Machine Channel)
    (kept : Kept before machine) :
    Polled before (readStatus (channelBus statuses portBase) (construct master portBase)
      (writePorts (channelBus statuses portBase) accesses machine)) := by
  constructor
  · exact readStatus_kept statuses master portBase before _
      (writePorts_kept statuses portBase before accesses machine kept)
  · rw [readStatus_channel]
    exact statuses.ready _

/-- A loop that polls a ready drive ends at once. -/
theorem polling_achieves (guard : Machine Channel → Bool)
    (ends : ∀ machine : Machine Channel, machine.status &&& 0x81 = 0 → guard machine = false) :
    Achieves (Polled before)
      (loop guard (readStatus (channelBus statuses portBase) (construct master portBase)))
      (Kept before) := by
  intro machine polled
  exact ⟨machine, returns_loop_done _ _ machine (ends machine polled.status), polled.kept⟩

theorem identify_kept :
    Achieves (Kept before) (identify (channelBus statuses portBase) (construct master portBase))
      (Kept before) := by
  apply achieves_seq _ (Polled before)
  · exact achieves_step _ _ _ fun machine held =>
      readStatus_polled statuses master portBase before _ machine held
  apply achieves_branch
  · exact achieves_step _ _ _ fun _ held => held.1.kept
  apply achieves_seq _ (Polled before)
  · exact achieves_step _ _ _ fun machine held =>
      readStatus_polled statuses master portBase before _ machine held.1.kept
  apply achieves_branch
  · exact achieves_step _ _ _ fun _ held => held.1.kept
  apply achieves_seq _ (Kept before)
  · intro machine held
    refine polling_achieves statuses master portBase before _ (fun current ready => ?_) machine
      held.1
    exact (DrivePolling.busyWithoutError_false current).mpr (Or.inl (ready_bits _ ready).1)
  apply achieves_branch
  · exact achieves_step _ _ _ fun _ held => held.1
  · intro machine held
    exact achieves_of_ensures (identifyWords_kept statuses master portBase before)
      (fun current _ => DrivePolling.identifyWords_halts _ _ current) machine held.1

theorem flush_kept :
    Achieves (Kept before) (flush (channelBus statuses portBase) (construct master portBase))
      (Kept before) := by
  apply achieves_seq _ (Polled before)
  · exact achieves_step _ _ _ fun machine held =>
      readStatus_polled statuses master portBase before _ machine held
  apply achieves_seq _ (Kept before)
  · apply polling_achieves statuses master portBase before
    intro machine ready
    simp only [busy, (ready_bits _ ready).1, ne_eq, not_true_eq_false, decide_false]
  apply achieves_branch
  · exact achieves_step _ _ _ fun _ held => held.1
  · exact achieves_step _ _ _ fun _ held => held.1

/-- A bounded read returns. -/
theorem read28_halts (sector count : Word) (fits : count ≤ 512) (machine : Machine Channel) :
    Halts (read28 (channelBus statuses portBase) (construct master portBase) sector count)
      machine := by
  by_cases inside : sector ≤ 0x0FFFFFFF
  · obtain ⟨last, returned, -⟩ := read28_prints statuses master portBase sector count
      machine.console _ inside fits machine ⟨rfl, rfl⟩
    exact ⟨last, returned⟩
  · have refused : (0x0FFFFFFF : Word) < sector := BitVec.not_le.mp inside
    rw [read28, halts_branch, if_pos (decide_eq_true refused)]
    exact halts_skip machine

/-- A write within the limits has stored the words up to a turn. -/
structure Filling (sector count : Word) (data : Nat → Byte) (turn : Nat)
    (machine : Machine Channel) : Prop where
  index : machine.index.toNat = 2 * turn
  transfers : Transfers .writing (!master) sector turn machine.devices
  sectors : Kept (SectorWrite.filled master sector count data before turn) machine

theorem filling_next (sector count : Word) (data : Nat → Byte) (turn : Nat)
    (machine next : Machine Channel)
    (filling : Filling master before sector count data turn machine) (within : turn < 256)
    (devices : next.devices = machine.devices.writeWord (wordOf data count turn))
    (index : next.index = machine.index + 2) :
    Filling master before sector count data (turn + 1) next := by
  obtain ⟨transfers, sectors⟩ := writeWord_sectors (!master) sector turn machine.devices
    (wordOf data count turn) filling.transfers within
  have place := filling.index
  have held : machine.devices.sectors = _ := filling.sectors
  constructor
  · rw [index]
    bv_omega
  · rw [devices]
    exact transfers
  · rw [Kept, devices, sectors, held]
    exact SectorWrite.filled_succ master sector count data before turn

/-- A write within the limits fills its sector and no other. -/
theorem write28_fills (sector count : Word) (data : Nat → Byte) (inside : sector ≤ 0x0FFFFFFF)
    (fits : count ≤ 512) :
    Achieves (Kept before)
      (write28 (channelBus statuses portBase) (construct master portBase) sector data count)
      (Kept (SectorWrite.filled master sector count data before 256)) := by
  have complete : Achieves (Kept before)
      (write28 (channelBus statuses portBase) (construct master portBase) sector data count)
      (Filling master before sector count data 256) := by
    apply write28_achieves _ _ _ _ _ _ _ inside fits
    · intro turn machine filling
      exact filling.index
    · intro machine held
      refine ⟨rfl, transfer_transfers statuses master portBase sector 0x30 machine, ?_⟩
      have none : SectorWrite.filled master sector count data before 0 = before := by
        funext drive address index
        simp [SectorWrite.filled]
      rw [none]
      exact writePorts_kept statuses portBase before _ machine held
    · intro turn machine within more filling
      apply filling_next master before sector count data turn machine _ filling within
      · rw [writeWord_devices _ _ count data turn machine filling.index more, dataPort_channel]
      · rfl
    · intro machine filling
      exact ⟨rounded_toNat count fits, filling.transfers, filling.sectors⟩
    · intro turn machine within outside filling
      apply filling_next master before sector count data turn machine _ filling within
      · rw [padWord_devices _ _ count data turn machine outside, dataPort_channel]
      · rfl
  exact achieves_weaken complete fun _ filling => filling.sectors

end kept

section runs

variable (statuses : Statuses) (portBase : BitVec 16) (before : Sectors)

def DriveCall.program (call : DriveCall) : Program (Machine Channel) :=
  call.call.program (channelBus statuses portBase) (construct call.master portBase)

/-- The drives hold what the calls stored. -/
def Holds (calls : List DriveCall) (machine : Machine Channel) : Prop :=
  ∀ drive sector, ∀ index < 256,
    machine.devices.sectors drive sector index = store before calls drive sector index

/-- A call without an accepted write stores nothing. -/
theorem store_unwritten (calls : List DriveCall) (call : DriveCall) (none : call.written = none) :
    store before (calls ++ [call]) = store before calls := by
  have same : (calls ++ [call]).filterMap DriveCall.written =
      calls.filterMap DriveCall.written := by
    rw [List.filterMap_append, List.filterMap_cons_none none, List.filterMap_nil, List.append_nil]
  funext drive sector
  rw [store, same, store]

/-- An accepted write replaces its sector. -/
theorem store_written (calls : List DriveCall) (call : DriveCall) (write : Write)
    (some : call.written = some write) (drive : Bool) (sector : BitVec 28) :
    store before (calls ++ [call]) drive sector =
      if write.place = (drive, sector) then write.words else store before calls drive sector := by
  have same : (calls ++ [call]).filterMap DriveCall.written =
      calls.filterMap DriveCall.written ++ [write] := by
    rw [List.filterMap_append, List.filterMap_cons_some some, List.filterMap_nil]
  rw [store, same, LatestWrites.latest_append]
  split
  · rfl
  · rfl

/-- A program that keeps every sector, for a call without an accepted write. -/
theorem holds_unwritten (calls : List DriveCall) (call : DriveCall) (none : call.written = none)
    (kept : ∀ sectors, Achieves (Kept sectors) (call.program statuses portBase) (Kept sectors)) :
    Achieves (Holds before calls) (call.program statuses portBase)
      (Holds before (calls ++ [call])) := by
  intro machine holds
  obtain ⟨last, returned, same⟩ := kept machine.devices.sectors machine rfl
  have sectors : last.devices.sectors = machine.devices.sectors := same
  refine ⟨last, returned, ?_⟩
  rw [Holds, store_unwritten before calls call none, sectors]
  exact holds

/-- Every bounded call returns, and the drives hold what it stored. -/
theorem call_holds (calls : List DriveCall) (call : DriveCall) (bounded : call.Bounded) :
    Achieves (Holds before calls) (call.program statuses portBase)
      (Holds before (calls ++ [call])) := by
  obtain ⟨master, operation⟩ := call
  cases operation with
  | identify =>
    exact holds_unwritten statuses portBase before calls _ rfl fun sectors =>
      identify_kept statuses master portBase sectors
  | flush =>
    exact holds_unwritten statuses portBase before calls _ rfl fun sectors =>
      flush_kept statuses master portBase sectors
  | read28 sector count =>
    exact holds_unwritten statuses portBase before calls _ rfl fun sectors =>
      achieves_of_ensures (read28_kept statuses master portBase sectors sector count)
        fun machine _ => read28_halts statuses master portBase sector count bounded machine
  | write28 sector data count =>
    by_cases accepted : sector ≤ 0x0FFFFFFF ∧ count ≤ 512
    · intro machine holds
      obtain ⟨last, returned, filled⟩ := write28_fills statuses master portBase
        machine.devices.sectors sector count data accepted.1 accepted.2 machine rfl
      have sectors : last.devices.sectors = _ := filled
      refine ⟨last, returned, fun drive address index within => ?_⟩
      rw [store_written before calls ⟨master, .write28 sector data count⟩
        ⟨!master, sector.setWidth 28, wordOf data count⟩ (if_pos accepted), sectors,
        SectorWrite.filled, Write.place]
      by_cases addressed : drive = !master ∧ address = sector.setWidth 28
      · obtain ⟨rfl, rfl⟩ := addressed
        rw [if_pos ⟨rfl, rfl, within⟩, if_pos rfl]
      · rw [if_neg fun all => addressed ⟨all.1, all.2.1⟩, if_neg fun same => addressed
          ⟨(Prod.mk.inj same).1.symm, (Prod.mk.inj same).2.symm⟩]
        exact holds drive address index within
    · refine holds_unwritten statuses portBase before calls _ (if_neg accepted) fun sectors => ?_
      intro machine held
      have outside : 0x0FFFFFFF < sector ∨ 512 < count := by
        rw [not_and_or, BitVec.not_le, BitVec.not_le] at accepted
        exact accepted
      exact ⟨machine, ⟨0, SectorWrite.write28_refused _ _ sector count data outside 0 machine⟩,
        held⟩

/-- Over any sequence of bounded calls the drives hold what the calls stored. -/
theorem run_holds (earlier calls : List DriveCall) (bounded : ∀ call ∈ calls, call.Bounded) :
    Achieves (Holds before earlier)
      (sequence (calls.map (DriveCall.program statuses portBase)))
      (Holds before (earlier ++ calls)) := by
  induction calls generalizing earlier with
  | nil =>
    rw [List.append_nil]
    exact achieves_step _ _ _ fun _ holds => holds
  | cons call rest inductionHypothesis =>
    have following := inductionHypothesis (earlier ++ [call]) fun later member =>
      bounded later (List.mem_cons_of_mem call member)
    rw [List.append_assoc] at following
    exact achieves_seq _ _ _ _ _
      (call_holds statuses portBase before earlier call (bounded call List.mem_cons_self))
      following

/-- Any sequence of calls on the two ready drives of a channel returns, and then every
sector of both drives holds the words of the latest accepted write to it, or what it held
before if there is none. -/
theorem calls_store (calls : List DriveCall) (bounded : ∀ call ∈ calls, call.Bounded)
    (machine : Machine Channel) :
    ∃ last, Returns (sequence (calls.map (DriveCall.program statuses portBase))) machine last ∧
      ∀ drive sector, ∀ index < 256, last.devices.sectors drive sector index =
        store machine.devices.sectors calls drive sector index :=
  run_holds statuses portBase machine.devices.sectors [] calls bounded machine
    fun _ _ _ _ => rfl

/-- After any sequence of calls on the two ready drives, a sector read on one of them
prints the first bytes of the latest accepted write to the sector on that drive: of each
word the characters up to its first zero byte. -/
theorem read_latest (calls : List DriveCall) (bounded : ∀ call ∈ calls, call.Bounded)
    (master : Bool) (sector count : Word) (inside : sector ≤ 0x0FFFFFFF) (fits : count ≤ 512)
    (machine : Machine Channel) :
    ∃ middle last,
      Returns (sequence (calls.map (DriveCall.program statuses portBase))) machine middle ∧
      Returns (read28 (channelBus statuses portBase) (construct master portBase) sector count)
        middle last ∧
      last.console = middle.console ++ heading ++
        (List.range (half count)).flatMap fun index =>
          printed count
            (store machine.devices.sectors calls (!master) (sector.setWidth 28) index) index := by
  have sized : count.toNat ≤ 512 := fits
  obtain ⟨middle, returned, holds⟩ := run_holds statuses portBase machine.devices.sectors [] calls
    bounded machine fun _ _ _ _ => rfl
  obtain ⟨last, read, console⟩ := read28_prints statuses master portBase sector count
    middle.console _ inside fits middle ⟨rfl, rfl⟩
  refine ⟨middle, last, returned, read, ?_⟩
  rw [console]
  refine congrArg _ (List.flatMap_congr fun index member => ?_)
  have before := List.mem_range.mp member
  simp only [half] at before
  rw [holds _ _ index (by omega)]
  rfl

end runs

/-- Writes to one sector address on both drives, an accepted and a refused one more, with
other calls between them. -/
def exchange : List DriveCall :=
  [⟨true, .identify⟩, ⟨true, .write28 5 (fun _ => 0x41) 2⟩, ⟨false, .write28 5 (fun _ => 0x42) 2⟩,
    ⟨false, .flush⟩, ⟨true, .read28 5 512⟩, ⟨true, .write28 5 (fun _ => 0x43) 513⟩]

theorem exchange_bounded : ∀ call ∈ exchange, call.Bounded := by
  simp [exchange, DriveCall.Bounded]

theorem calls_store_exchange :
    ∃ last, Returns (sequence (exchange.map (DriveCall.program ready 0x1F0))) blank last ∧
      last.devices.sectors false 5 0 = 0x4141 ∧ last.devices.sectors true 5 0 = 0x4242 := by
  obtain ⟨last, returned, stored⟩ := calls_store ready 0x1F0 exchange exchange_bounded blank
  exact ⟨last, returned, stored false 5 0 (by decide), stored true 5 0 (by decide)⟩

theorem read_latest_exchange :
    ∃ middle last, Returns (sequence (exchange.map (DriveCall.program ready 0x1F0))) blank middle ∧
      Returns (read28 (channelBus ready 0x1F0) (construct true 0x1F0) 5 2) middle last ∧
      last.console = middle.console ++ heading ++ [0x41, 0x41] :=
  read_latest ready 0x1F0 exchange exchange_bounded true 5 2 (by decide) (by decide) blank

end BlueOs.DiskStore
