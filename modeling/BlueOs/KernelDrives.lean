import BlueOs.DiskStore
import BlueOs.DriveChannels

/-!
# The drives of the kernel

`kernelMain` has two drives on each of two channels. Over any sequence of calls on ready
drives every sector of every drive holds the data of the latest accepted write to it, and
a sector read on any of them prints that data, of each word the characters up to its first
zero byte.
-/

namespace BlueOs.KernelDrives

open Port Programs AdvanceTechnologyAttachment SectorDisk SectorRoundTrip DriveChannels
open DiskStore (DriveCall store)

section drives

variable {ι : Type} [DecidableEq ι] (wiring : Wiring ι) (statuses : ι → Statuses)

/-- Ready drives on every channel. -/
def readyBuses (channel : ι) : Bus Channel :=
  channelBus (statuses channel) (wiring.portBase channel)

def drive (call : ChannelCall ι) : DriveCall := ⟨call.master, call.call⟩

/-- The calls on one channel, as calls on its drives. -/
def drivesCalls (channel : ι) (calls : List (ChannelCall ι)) : List DriveCall :=
  (share channel calls).map drive

theorem ownCalls_drives (channel : ι) (calls : List (ChannelCall ι)) :
    ownCalls wiring (readyBuses wiring statuses) channel calls =
      sequence ((drivesCalls channel calls).map
        (DriveCall.program (statuses channel) (wiring.portBase channel))) := by
  rw [ownCalls, drivesCalls, List.map_map]
  congr 1
  apply List.map_congr_left
  intro call member
  obtain rfl : call.channel = channel := of_decide_eq_true (List.mem_filter.mp member).2
  rfl

/-- One channel's bounded calls return, and its drives hold what they stored. -/
theorem ownCalls_holds (calls : List (ChannelCall ι)) (bounded : ∀ call ∈ calls, (drive call).Bounded)
    (channel : ι) (machine : Machine Channel) :
    ∃ last, Returns (ownCalls wiring (readyBuses wiring statuses) channel calls) machine last ∧
      DiskStore.Holds machine.devices.sectors (drivesCalls channel calls) last := by
  rw [ownCalls_drives]
  apply DiskStore.run_holds (statuses channel) (wiring.portBase channel) machine.devices.sectors []
    (drivesCalls channel calls)
  · intro call member
    obtain ⟨own, listed, rfl⟩ := List.mem_map.mp member
    exact bounded own (List.mem_filter.mp listed).1
  · exact fun _ _ _ _ => rfl

/-- After any bounded calls every sector of every drive holds the words of the latest
accepted write to it. -/
theorem allCalls_holds (calls : List (ChannelCall ι)) (bounded : ∀ call ∈ calls, (drive call).Bounded)
    (machine : Machine (ι → Channel)) :
    ∃ last, Returns (allCalls wiring (readyBuses wiring statuses) calls) machine last ∧
      ∀ channel drive sector, ∀ index < 256, (last.devices channel).sectors drive sector index =
        store (machine.devices channel).sectors (drivesCalls channel calls) drive sector index := by
  have halts := (run_halts wiring (readyBuses wiring statuses) calls machine
    _ (part_split machine)).mpr fun channel => by
      obtain ⟨last, returned, -⟩ :=
        ownCalls_holds wiring statuses calls bounded channel (part channel machine)
      exact ⟨last, returned⟩
  obtain ⟨last, returned⟩ := halts
  obtain ⟨transcript, -, -, each⟩ := run_returns wiring (readyBuses wiring statuses) calls machine last
    _ (part_split machine) returned
  refine ⟨last, returned, fun channel drive sector index within => ?_⟩
  obtain ⟨final, finished, devices, -⟩ := each channel
  obtain ⟨other, ended, holds⟩ :=
    ownCalls_holds wiring statuses calls bounded channel (part channel machine)
  obtain rfl := returns_unique _ _ _ _ finished ended
  rw [devices]
  exact holds drive sector index within

/-- A sector read with every channel on the bus prints what the sector holds. -/
theorem routedRead_prints (channel : ι) (master : Bool) (sector count : Word)
    (inside : sector ≤ 0x0FFFFFFF) (fits : count ≤ 512) (machine : Machine (ι → Channel)) :
    ∃ last, Returns (read28 (routed wiring (readyBuses wiring statuses))
        (driver wiring channel master) sector count) machine last ∧
      last.console = machine.console ++ heading ++
        (List.range (half count)).flatMap fun index => printed count
          ((machine.devices channel).sectors (!master) (sector.setWidth 28) index) index := by
  obtain ⟨own, read, shown⟩ := read28_prints (statuses channel) master (wiring.portBase channel)
    sector count machine.console _ inside fits (part channel machine) ⟨rfl, rfl⟩
  obtain ⟨last, returned, -, text, heard, said⟩ := pairs_returns
    (pairs_swap (read28_pairs wiring (readyBuses wiring statuses) master sector count))
    (part channel machine) own machine (viewed_split (part_split machine) channel) read
  refine ⟨last, returned, ?_⟩
  rw [heard]
  exact said.symm.trans shown

/-- Any sequence of bounded calls on the ready drives of all channels returns. Then every
sector of every drive holds the words of the latest accepted write to it, or what it held
before if there is none, and a sector read on any drive prints them, of each word the
characters up to its first zero byte. -/
theorem drives_store (calls : List (ChannelCall ι)) (bounded : ∀ call ∈ calls, (drive call).Bounded)
    (machine : Machine (ι → Channel)) :
    ∃ middle, Returns (allCalls wiring (readyBuses wiring statuses) calls) machine middle ∧
      (∀ channel drive sector, ∀ index < 256,
        (middle.devices channel).sectors drive sector index =
          store (machine.devices channel).sectors (drivesCalls channel calls) drive sector index) ∧
      ∀ channel master (sector count : Word), sector ≤ 0x0FFFFFFF → count ≤ 512 →
        ∃ last, Returns (read28 (routed wiring (readyBuses wiring statuses))
            (driver wiring channel master) sector count) middle last ∧
          last.console = middle.console ++ heading ++
            (List.range (half count)).flatMap fun index => printed count
              (store (machine.devices channel).sectors (drivesCalls channel calls) (!master)
                (sector.setWidth 28) index) index := by
  obtain ⟨middle, returned, holds⟩ := allCalls_holds wiring statuses calls bounded machine
  refine ⟨middle, returned, holds, ?_⟩
  intro channel master sector count inside fits
  obtain ⟨last, read, shown⟩ :=
    routedRead_prints wiring statuses channel master sector count inside fits middle
  refine ⟨last, read, ?_⟩
  rw [shown]
  refine congrArg _ (List.flatMap_congr fun index member => ?_)
  have sized : count.toNat ≤ 512 := fits
  have before := List.mem_range.mp member
  simp only [half] at before
  rw [holds _ _ _ index (by omega)]

end drives

/-- The two channels of `kernelMain`. -/
inductive Position where
  | primary
  | secondary
deriving DecidableEq

/-- The port bases that `kernelMain` passes to the constructors. -/
def portBase : Position → BitVec 16
  | .primary => 0x1F0
  | .secondary => 0x170

def kernelWiring : Wiring Position where
  portBase := portBase
  owner port :=
    if port ∈ ports (portBase .primary) then some .primary
    else if port ∈ ports (portBase .secondary) then some .secondary
    else none
  owned channel port member := by
    cases channel with
    | primary => exact if_pos member
    | secondary =>
      have apart : port ∉ ports (portBase .primary) := by
        simp only [ports, portBase, List.mem_cons, List.not_mem_nil, or_false] at member ⊢
        rcases member with rfl | rfl | rfl | rfl | rfl | rfl | rfl | rfl | rfl
        all_goals decide
      rw [if_neg apart, if_pos member]

/-- The text that `kernelMain` stores. -/
def message : List Byte := "http://www.AlgorithMan.de".toList.map fun character =>
  BitVec.ofNat 8 character.toNat

/-- The calls of `kernelMain` on its drives, in their order. -/
def kernelCalls : List (ChannelCall Position) :=
  [⟨.primary, true, .identify⟩, ⟨.primary, false, .identify⟩,
    ⟨.primary, false, .write28 0 (fun index => (message[index]?).getD 0) 25⟩,
    ⟨.primary, false, .flush⟩, ⟨.primary, false, .read28 0 25⟩,
    ⟨.secondary, true, .identify⟩, ⟨.secondary, false, .identify⟩]

theorem kernelCalls_bounded : ∀ call ∈ kernelCalls, (drive call).Bounded := by
  simp [kernelCalls, drive, DriveCall.Bounded]

/-- Blank drives on every channel. -/
def blankDrives : Machine (Position → Channel) where
  devices _ := blank.devices
  console := []
  status := 0
  index := 0

/-- The read of `kernelMain` prints the text that its write stored. -/
theorem drives_store_kernelMain :
    kernelCalls = kernelCalls.take 4 ++ ⟨.primary, false, .read28 0 25⟩ :: kernelCalls.drop 5 ∧
    ∃ middle last,
      Returns (allCalls kernelWiring (readyBuses kernelWiring fun _ => ready) (kernelCalls.take 4))
        blankDrives middle ∧
      Returns (read28 (routed kernelWiring (readyBuses kernelWiring fun _ => ready))
        (driver kernelWiring .primary false) 0 25) middle last ∧
      last.console = middle.console ++ heading ++ message := by
  refine ⟨rfl, ?_⟩
  obtain ⟨middle, returned, -, reads⟩ := drives_store kernelWiring (fun _ => ready)
    (kernelCalls.take 4) (fun call member => kernelCalls_bounded call (List.mem_of_mem_take member))
    blankDrives
  obtain ⟨last, read, shown⟩ := reads .primary false 0 25 (by decide) (by decide)
  refine ⟨middle, last, returned, read, ?_⟩
  rw [shown]
  refine congrArg _ ?_
  decide

end BlueOs.KernelDrives
