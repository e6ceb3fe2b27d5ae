import BlueOs.AdvanceTechnologyAttachment
import BlueOs.Library.ProgramPairs
import Mathlib.Logic.Function.Basic

/-!
# Channels beside each other

`kernelMain` has drives on two channels, whose ports are apart. Whatever the devices do,
a call on one channel goes as if there were no other: it returns or hangs as it would
alone, prints the same, and the devices of the other channels stay as they are.
-/

namespace BlueOs.DriveChannels

open Port Programs AdvanceTechnologyAttachment

/-- The ports of the driver of a channel. -/
def ports (portBase : BitVec 16) : List (BitVec 16) :=
  [portBase, portBase + 1, portBase + 2, portBase + 3, portBase + 4, portBase + 5, portBase + 6,
    portBase + 7, portBase + 0x206]

/-- Channels with ports of their own. -/
structure Wiring (ι : Type) where
  portBase : ι → BitVec 16
  owner : BitVec 16 → Option ι
  owned : ∀ channel, ∀ port ∈ ports (portBase channel), owner port = some channel

/-- The driver of a drive of a channel. -/
def driver {ι : Type} (wiring : Wiring ι) (channel : ι) (master : Bool) : Driver :=
  construct master (wiring.portBase channel)

theorem transfer_inside {ι : Type} (wiring : Wiring ι) (channel : ι) (master : Bool)
    (sector : Word) (command : Byte) :
    ∀ access ∈ transfer (driver wiring channel master) sector command,
      access.1.portnumber ∈ ports (wiring.portBase channel) := by
  simp [ports, driver, construct, transfer]

section routing

variable {ι δ : Type} [DecidableEq ι] (wiring : Wiring ι) (buses : ι → Bus δ)

/-- A read goes to the devices of the channel that owns the port. -/
def routeRead {width : Nat} (read : ι → δ → BitVec width × δ) (port : BitVec 16)
    (devices : ι → δ) : BitVec width × (ι → δ) :=
  match wiring.owner port with
  | some channel =>
    ((read channel (devices channel)).1,
      Function.update devices channel (read channel (devices channel)).2)
  | none => (BitVec.allOnes width, devices)

def routeWrite (write : ι → δ → δ) (port : BitVec 16) (devices : ι → δ) : ι → δ :=
  match wiring.owner port with
  | some channel => Function.update devices channel (write channel (devices channel))
  | none => devices

/-- All channels on one bus. -/
def routed : Bus (ι → δ) where
  inb port := routeRead wiring (fun channel => (buses channel).inb port) port
  outb port value := routeWrite wiring (fun channel => (buses channel).outb port value) port
  inw port := routeRead wiring (fun channel => (buses channel).inw port) port
  outw port value := routeWrite wiring (fun channel => (buses channel).outw port value) port

variable {channel : ι} {others devices : ι → δ} {device : δ} {port : BitVec 16}

theorem routeRead_owned {width : Nat} (read : ι → δ → BitVec width × δ)
    (owned : wiring.owner port = some channel)
    (same : devices = Function.update others channel device) :
    routeRead wiring read port devices =
      ((read channel device).1, Function.update others channel (read channel device).2) := by
  rw [same]
  simp only [routeRead, owned, Function.update_self, Function.update_idem]

theorem routeWrite_owned (write : ι → δ → δ) (owned : wiring.owner port = some channel)
    (same : devices = Function.update others channel device) :
    routeWrite wiring write port devices =
      Function.update others channel (write channel device) := by
  rw [same]
  simp only [routeWrite, owned, Function.update_self, Function.update_idem]

variable (channel others) (heard said : List Byte)

/-- The machine with all channels and the machine with one of them. Both have printed the
same since they began. -/
structure Viewed (machine : Machine (ι → δ)) (own : Machine δ) : Prop where
  devices : machine.devices = Function.update others channel own.devices
  console : ∃ text, machine.console = heard ++ text ∧ own.console = said ++ text

/-- They have also read the same status. -/
structure Polled (machine : Machine (ι → δ)) (own : Machine δ) : Prop
    extends Viewed channel others heard said machine own where
  status : machine.status = own.status

/-- They are also at the same place of a transfer. -/
structure Counted (machine : Machine (ι → δ)) (own : Machine δ) : Prop
    extends Viewed channel others heard said machine own where
  index : machine.index = own.index

variable {channel others heard said}
variable {machine : Machine (ι → δ)} {own : Machine δ}

theorem print_viewed (text : List Byte) (viewed : Viewed channel others heard said machine own) :
    Viewed channel others heard said (print text machine) (print text own) := by
  obtain ⟨devices, earlier, heardNow, saidNow⟩ := viewed
  refine ⟨devices, earlier ++ text.takeWhile (· ≠ 0), ?_, ?_⟩
  · rw [print, heardNow, List.append_assoc]
  · rw [print, saidNow, List.append_assoc]

theorem setIndex_counted {index other : Word} (same : index = other)
    (viewed : Viewed channel others heard said machine own) :
    Counted channel others heard said (setIndex index machine) (setIndex other own) :=
  ⟨⟨viewed.devices, viewed.console⟩, same⟩

theorem writePorts_viewed (accesses : List (Port8Bit × Byte))
    (inside : ∀ access ∈ accesses, access.1.portnumber ∈ ports (wiring.portBase channel))
    (viewed : Viewed channel others heard said machine own) :
    Viewed channel others heard said (writePorts (routed wiring buses) accesses machine)
      (writePorts (buses channel) accesses own) := by
  induction accesses generalizing machine own with
  | nil => exact viewed
  | cons access rest inductionHypothesis =>
    have owned := wiring.owned channel _ (inside access List.mem_cons_self)
    have next : Viewed channel others heard said
        { machine with devices := access.1.write (routed wiring buses) access.2 machine.devices }
        { own with devices := access.1.write (buses channel) access.2 own.devices } :=
      ⟨routeWrite_owned wiring _ owned viewed.devices, viewed.console⟩
    exact inductionHypothesis (fun later member => inside later (List.mem_cons_of_mem access member))
      next

section driver

variable (master : Bool)

theorem readStatus_polled (viewed : Viewed channel others heard said machine own) :
    Polled channel others heard said
      (readStatus (routed wiring buses) (driver wiring channel master) machine)
      (readStatus (buses channel) (driver wiring channel master) own) := by
  have owned := wiring.owned channel (wiring.portBase channel + 7) (by simp [ports])
  have read := routeRead_owned wiring
    (fun other => (buses other).inb (wiring.portBase channel + 7)) owned viewed.devices
  exact ⟨⟨congrArg Prod.snd read, viewed.console⟩, congrArg Prod.fst read⟩

theorem readData_counted (counted : Counted channel others heard said machine own) :
    (readData (routed wiring buses) (driver wiring channel master) machine).1 =
        (readData (buses channel) (driver wiring channel master) own).1 ∧
      Counted channel others heard said
        (readData (routed wiring buses) (driver wiring channel master) machine).2
        (readData (buses channel) (driver wiring channel master) own).2 := by
  have owned := wiring.owned channel (wiring.portBase channel) (by simp [ports])
  have read := routeRead_owned wiring
    (fun other => (buses other).inw (wiring.portBase channel)) owned counted.devices
  exact ⟨congrArg Prod.fst read, ⟨congrArg Prod.snd read, counted.console⟩, counted.index⟩

theorem writeData_viewed (data : BitVec 16)
    (viewed : Viewed channel others heard said machine own) :
    Viewed channel others heard said
      (writeData (routed wiring buses) (driver wiring channel master) data machine)
      (writeData (buses channel) (driver wiring channel master) data own) := by
  have owned := wiring.owned channel (wiring.portBase channel) (by simp [ports])
  exact ⟨routeWrite_owned wiring _ owned viewed.devices, viewed.console⟩

theorem identifyWord_counted (counted : Counted channel others heard said machine own) :
    Counted channel others heard said
      (identifyWord (routed wiring buses) (driver wiring channel master) machine)
      (identifyWord (buses channel) (driver wiring channel master) own) := by
  obtain ⟨word, read⟩ := readData_counted wiring buses master counted
  simp only [identifyWord, word]
  exact setIndex_counted (congrArg (· + 1) read.index) (print_viewed _ read.toViewed)

theorem readWord_counted (count : Word) (counted : Counted channel others heard said machine own) :
    Counted channel others heard said
      (readWord (routed wiring buses) (driver wiring channel master) count machine)
      (readWord (buses channel) (driver wiring channel master) count own) := by
  obtain ⟨word, read⟩ := readData_counted wiring buses master counted
  simp only [readWord, word, read.index]
  exact setIndex_counted (congrArg (· + 2) read.index) (print_viewed _ read.toViewed)

theorem drainWord_counted (counted : Counted channel others heard said machine own) :
    Counted channel others heard said
      (drainWord (routed wiring buses) (driver wiring channel master) machine)
      (drainWord (buses channel) (driver wiring channel master) own) := by
  obtain ⟨-, read⟩ := readData_counted wiring buses master counted
  exact setIndex_counted (congrArg (· + 2) read.index) read.toViewed

theorem writeWord_counted (data : Nat → Byte) (count : Word)
    (counted : Counted channel others heard said machine own) :
    Counted channel others heard said
      (writeWord (routed wiring buses) (driver wiring channel master) data count machine)
      (writeWord (buses channel) (driver wiring channel master) data count own) := by
  simp only [writeWord, counted.index]
  exact setIndex_counted (congrArg (· + 2) counted.index)
    (print_viewed _ (writeData_viewed wiring buses master _ counted.toViewed))

theorem padWord_counted (counted : Counted channel others heard said machine own) :
    Counted channel others heard said
      (padWord (routed wiring buses) (driver wiring channel master) machine)
      (padWord (buses channel) (driver wiring channel master) own) :=
  setIndex_counted (congrArg (· + 2) counted.index)
    (writeData_viewed wiring buses master _ counted.toViewed)

/-- Two transfer loops whose bodies keep the place. -/
theorem counting_pairs (within : Word → Bool) (body : Machine (ι → δ) → Machine (ι → δ))
    (turn : Machine δ → Machine δ)
    (kept : ∀ machine own, Counted channel others heard said machine own →
      Counted channel others heard said (body machine) (turn own)) :
    Pairs (Counted channel others heard said) (loop (fun machine => within machine.index) body)
      (loop (fun own => within own.index) turn) (Counted channel others heard said) :=
  pairs_loop _ _ _ _ (fun _ _ counted => congrArg within counted.index) kept

/-- Port writes and a status read begin every operation. -/
theorem command_pairs (accesses : List (Port8Bit × Byte))
    (inside : ∀ access ∈ accesses, access.1.portnumber ∈ ports (wiring.portBase channel)) :
    Pairs (Viewed channel others heard said)
      (step fun machine => readStatus (routed wiring buses) (driver wiring channel master)
        (writePorts (routed wiring buses) accesses machine))
      (step fun own => readStatus (buses channel) (driver wiring channel master)
        (writePorts (buses channel) accesses own))
      (Polled channel others heard said) :=
  pairs_step _ _ fun _ _ viewed =>
    readStatus_polled wiring buses master (writePorts_viewed wiring buses accesses inside viewed)

/-- Two polling loops see the same statuses. -/
theorem polling_pairs (guard : Machine (ι → δ) → Bool) (test : Machine δ → Bool)
    (agree : ∀ machine own, machine.status = own.status → guard machine = test own) :
    Pairs (Polled channel others heard said)
      (loop guard (readStatus (routed wiring buses) (driver wiring channel master)))
      (loop test (readStatus (buses channel) (driver wiring channel master)))
      (Polled channel others heard said) :=
  pairs_loop _ _ _ _ (fun machine own polled => agree machine own polled.status)
    fun _ _ polled => readStatus_polled wiring buses master polled.toViewed

theorem poll_pairs :
    Pairs (Polled channel others heard said)
      (poll (routed wiring buses) (driver wiring channel master))
      (poll (buses channel) (driver wiring channel master))
      (Polled channel others heard said) :=
  polling_pairs wiring buses master _ _ fun machine own same => by
    rw [busyWithoutError, busyWithoutError, same]

theorem literal_pairs (text : String) :
    Pairs (Polled channel others heard said) (step (printLiteral text)) (step (printLiteral text))
      (Viewed channel others heard said) :=
  pairs_step _ _ fun _ _ polled => print_viewed _ polled.toViewed

theorem skip_pairs :
    Pairs (Polled channel others heard said) skip skip (Viewed channel others heard said) :=
  pairs_step _ _ fun _ _ polled => polled.toViewed

theorem identifyWords_pairs :
    Pairs (Viewed channel others heard said)
      (identifyWords (routed wiring buses) (driver wiring channel master))
      (identifyWords (buses channel) (driver wiring channel master))
      (Viewed channel others heard said) := by
  apply pairs_seq _ _ _ _ (pairs_step _ _ fun _ _ viewed => setIndex_counted rfl viewed)
  apply pairs_seq _ _ _ _ (counting_pairs (fun index => index.slt 256) _ _ fun _ _ counted =>
    identifyWord_counted wiring buses master counted)
  exact pairs_step _ _ fun _ _ counted => print_viewed _ counted.toViewed

theorem identify_pairs :
    Pairs (Viewed channel others heard said)
      (identify (routed wiring buses) (driver wiring channel master))
      (identify (buses channel) (driver wiring channel master))
      (Viewed channel others heard said) := by
  apply pairs_seq _ _ _ _ (command_pairs wiring buses master _ (by simp [ports, driver, construct]))
  apply pairs_branch _ _ _ _ _ _ (fun _ _ polled => by rw [polled.status]) skip_pairs
  apply pairs_seq _ _ _ _ (pairs_strengthen
    (command_pairs wiring buses master _ (by simp [ports, driver, construct]))
    fun _ _ polled => polled.toViewed)
  apply pairs_branch _ _ _ _ _ _ (fun _ _ polled => by rw [polled.status]) skip_pairs
  apply pairs_seq _ _ _ _ (poll_pairs wiring buses master)
  apply pairs_branch _ _ _ _ _ _ (fun _ _ polled => by rw [failed, failed, polled.status])
    (literal_pairs _)
  exact pairs_strengthen (identifyWords_pairs wiring buses master) fun _ _ polled => polled.toViewed

theorem readWords_pairs (count : Word) :
    Pairs (Viewed channel others heard said)
      (readWords (routed wiring buses) (driver wiring channel master) count)
      (readWords (buses channel) (driver wiring channel master) count)
      (Viewed channel others heard said) := by
  apply pairs_seq _ _ _ _ (pairs_step _ _ fun _ _ viewed =>
    setIndex_counted rfl (print_viewed _ viewed))
  apply pairs_seq _ _ _ _ (counting_pairs (fun index => index.slt count) _ _ fun _ _ counted =>
    readWord_counted wiring buses master count counted)
  apply pairs_seq _ _ _ _ (pairs_step _ _ fun _ _ counted =>
    setIndex_counted rfl counted.toViewed)
  exact pairs_weaken (counting_pairs (fun index => index.slt 512) _ _ fun _ _ counted =>
    drainWord_counted wiring buses master counted) fun _ _ counted => counted.toViewed

theorem read28_pairs (sectorNum count : Word) :
    Pairs (Viewed channel others heard said)
      (read28 (routed wiring buses) (driver wiring channel master) sectorNum count)
      (read28 (buses channel) (driver wiring channel master) sectorNum count)
      (Viewed channel others heard said) := by
  apply pairs_branch _ _ _ _ _ _ (fun _ _ _ => rfl) (pairs_step _ _ fun _ _ viewed => viewed)
  apply pairs_seq _ _ _ _
    (command_pairs wiring buses master _ (transfer_inside wiring channel master sectorNum 0x20))
  apply pairs_seq _ _ _ _ (poll_pairs wiring buses master)
  apply pairs_branch _ _ _ _ _ _ (fun _ _ polled => by rw [failed, failed, polled.status])
    (literal_pairs _)
  exact pairs_strengthen (readWords_pairs wiring buses master count)
    fun _ _ polled => polled.toViewed

theorem write28_pairs (sector : Word) (data : Nat → Byte) (count : Word) :
    Pairs (Viewed channel others heard said)
      (write28 (routed wiring buses) (driver wiring channel master) sector data count)
      (write28 (buses channel) (driver wiring channel master) sector data count)
      (Viewed channel others heard said) := by
  apply pairs_branch _ _ _ _ _ _ (fun _ _ _ => rfl) (pairs_step _ _ fun _ _ viewed => viewed)
  apply pairs_branch _ _ _ _ _ _ (fun _ _ _ => rfl) (pairs_step _ _ fun _ _ viewed => viewed)
  apply pairs_seq _ _ _ _ (pairs_step _ _ fun _ _ viewed => setIndex_counted rfl
    (print_viewed _ (writePorts_viewed wiring buses _ (transfer_inside wiring channel master sector 0x30)
      viewed)))
  apply pairs_seq _ _ _ _ (counting_pairs (fun index => index < count) _ _ fun _ _ counted =>
    writeWord_counted wiring buses master data count counted)
  apply pairs_seq _ _ _ _ (pairs_step _ _ fun _ _ counted =>
    setIndex_counted rfl counted.toViewed)
  exact pairs_weaken (counting_pairs (fun index => index.slt 512) _ _ fun _ _ counted =>
    padWord_counted wiring buses master counted) fun _ _ counted => counted.toViewed

theorem flush_pairs :
    Pairs (Viewed channel others heard said)
      (flush (routed wiring buses) (driver wiring channel master))
      (flush (buses channel) (driver wiring channel master))
      (Viewed channel others heard said) := by
  apply pairs_seq _ _ _ _ (command_pairs wiring buses master _ (by simp [ports, driver, construct]))
  apply pairs_seq _ _ _ _ (polling_pairs wiring buses master _ _ fun machine own same => by
    rw [busy, busy, same])
  exact pairs_branch _ _ _ _ _ _ (fun _ _ polled => by rw [failed, failed, polled.status])
    (literal_pairs _) (literal_pairs _)

/-- A call with all channels on the bus and the same call with its own channel alone. -/
theorem call_pairs (call : Call) :
    Pairs (Viewed channel others heard said)
      (call.program (routed wiring buses) (driver wiring channel master))
      (call.program (buses channel) (driver wiring channel master))
      (Viewed channel others heard said) := by
  cases call with
  | identify => exact identify_pairs wiring buses master
  | read28 sectorNum count => exact read28_pairs wiring buses master sectorNum count
  | write28 sector data count => exact write28_pairs wiring buses master sector data count
  | flush => exact flush_pairs wiring buses master

end driver

end routing

/-- A call on a drive of a channel. -/
structure ChannelCall (ι : Type) where
  channel : ι
  master : Bool
  call : Call

/-- One channel's devices with the locals and the console. -/
def part {ι δ : Type} (channel : ι) (machine : Machine (ι → δ)) : Machine δ where
  devices := machine.devices channel
  console := machine.console
  status := machine.status
  index := machine.index

/-- Every channel's own machine has its devices. -/
def Split {ι δ : Type} (machine : Machine (ι → δ)) (own : ι → Machine δ) : Prop :=
  ∀ channel, machine.devices channel = (own channel).devices

theorem part_split {ι δ : Type} (machine : Machine (ι → δ)) :
    Split machine fun channel => part channel machine :=
  fun _ => rfl

section calls

variable {ι δ : Type} [DecidableEq ι] (wiring : Wiring ι) (buses : ι → Bus δ)

/-- The call with all channels on the bus. -/
def ChannelCall.program (call : ChannelCall ι) : Program (Machine (ι → δ)) :=
  call.call.program (routed wiring buses) (driver wiring call.channel call.master)

/-- The call with its own channel alone. -/
def ChannelCall.alone (call : ChannelCall ι) : Program (Machine δ) :=
  call.call.program (buses call.channel) (driver wiring call.channel call.master)

/-- The calls on one channel. -/
def share (channel : ι) (calls : List (ChannelCall ι)) : List (ChannelCall ι) :=
  calls.filter fun call => call.channel = channel

def allCalls (calls : List (ChannelCall ι)) : Program (Machine (ι → δ)) :=
  sequence (calls.map (ChannelCall.program wiring buses))

/-- One channel's calls with the channel alone. -/
def ownCalls (channel : ι) (calls : List (ChannelCall ι)) : Program (Machine δ) :=
  sequence ((share channel calls).map (ChannelCall.alone wiring buses))

/-- What was printed on behalf of one channel. -/
def printedBy (channel : ι) (transcript : List (ι × List Byte)) : List Byte :=
  (transcript.filter fun entry => entry.1 = channel).flatMap Prod.snd

variable {machine : Machine (ι → δ)} {own : ι → Machine δ}

theorem viewed_split (split : Split machine own) (channel : ι) :
    Viewed channel machine.devices machine.console (own channel).console machine (own channel) := by
  refine ⟨?_, [], (List.append_nil _).symm, (List.append_nil _).symm⟩
  rw [← split channel, Function.update_eq_self]

/-- A call returns exactly when it does on its own channel. -/
theorem step_halts (call : ChannelCall ι) (split : Split machine own) :
    Halts (call.program wiring buses) machine ↔
      Halts (call.alone wiring buses) (own call.channel) :=
  pairs_halts (call_pairs wiring buses call.master call.call) machine (own call.channel)
    (viewed_split split call.channel)

/-- What a call that returned did to its own channel; the other ones are as they were. -/
theorem step_returns (call : ChannelCall ι) (split : Split machine own)
    (next : Machine (ι → δ)) (returned : Returns (call.program wiring buses) machine next) :
    ∃ after text, Returns (call.alone wiring buses) (own call.channel) after ∧
      Split next (Function.update own call.channel after) ∧
      next.console = machine.console ++ text ∧
      after.console = (own call.channel).console ++ text := by
  obtain ⟨after, ends, devices, text, heard, said⟩ := pairs_returns
    (call_pairs wiring buses call.master call.call) machine next (own call.channel)
    (viewed_split split call.channel) returned
  refine ⟨after, text, ends, ?_, heard, said⟩
  intro channel
  rw [devices]
  by_cases mine : channel = call.channel
  · subst mine
    rw [Function.update_self, Function.update_self]
  · rw [Function.update_of_ne mine, Function.update_of_ne mine]
    exact split channel

theorem ownCalls_cons (call : ChannelCall ι) (rest : List (ChannelCall ι)) :
    ownCalls wiring buses call.channel (call :: rest) =
      seq (call.alone wiring buses) (ownCalls wiring buses call.channel rest) := by
  simp [ownCalls, share, Programs.sequence]

theorem ownCalls_other (call : ChannelCall ι) (rest : List (ChannelCall ι)) (channel : ι)
    (other : channel ≠ call.channel) :
    ownCalls wiring buses channel (call :: rest) = ownCalls wiring buses channel rest := by
  simp [ownCalls, share, Ne.symm other]

/-- Behind a first call that returned, each channel's calls continue. -/
theorem ownCalls_halts (call : ChannelCall ι) (rest : List (ChannelCall ι)) (after : Machine δ)
    (ends : Returns (call.alone wiring buses) (own call.channel) after) (channel : ι) :
    Halts (ownCalls wiring buses channel (call :: rest)) (own channel) ↔
      Halts (ownCalls wiring buses channel rest) (Function.update own call.channel after channel) := by
  by_cases mine : channel = call.channel
  · subst mine
    rw [ownCalls_cons, Function.update_self]
    exact halts_seq_of_returns _ _ _ _ ends
  · rw [ownCalls_other wiring buses call rest channel mine, Function.update_of_ne mine]

/-- All calls return exactly when each channel's calls return on the channel alone. -/
theorem run_halts (calls : List (ChannelCall ι)) (machine : Machine (ι → δ))
    (own : ι → Machine δ) (split : Split machine own) :
    Halts (allCalls wiring buses calls) machine ↔
      ∀ channel, Halts (ownCalls wiring buses channel calls) (own channel) := by
  induction calls generalizing machine own with
  | nil => exact ⟨fun _ _ => halts_skip _, fun _ => halts_skip _⟩
  | cons call rest inductionHypothesis =>
    by_cases first : Halts (call.program wiring buses) machine
    case pos =>
      obtain ⟨next, returned⟩ := first
      obtain ⟨after, -, ends, splitNext, -⟩ := step_returns wiring buses call split next returned
      calc Halts (allCalls wiring buses (call :: rest)) machine
        _ ↔ Halts (allCalls wiring buses rest) next := halts_seq_of_returns _ _ _ _ returned
        _ ↔ ∀ channel, Halts (ownCalls wiring buses channel rest)
            (Function.update own call.channel after channel) :=
          inductionHypothesis next _ splitNext
        _ ↔ ∀ channel, Halts (ownCalls wiring buses channel (call :: rest)) (own channel) :=
          forall_congr' fun channel =>
            (ownCalls_halts wiring buses call rest after ends channel).symm
    case neg =>
      have hangs := first
      rw [step_halts wiring buses call split] at hangs
      constructor
      · intro halts
        exact absurd (halts_seq_first _ _ _ halts) first
      · intro halts
        have own := halts call.channel
        rw [ownCalls_cons] at own
        exact absurd (halts_seq_first _ _ _ own) hangs

/-- What a run of calls that returned did to each channel, and what it printed. -/
theorem run_returns (calls : List (ChannelCall ι)) (machine last : Machine (ι → δ))
    (own : ι → Machine δ) (split : Split machine own)
    (returned : Returns (allCalls wiring buses calls) machine last) :
    ∃ transcript, transcript.map Prod.fst = calls.map ChannelCall.channel ∧
      last.console = machine.console ++ transcript.flatMap Prod.snd ∧
      ∀ channel, ∃ final,
        Returns (ownCalls wiring buses channel calls) (own channel) final ∧
        last.devices channel = final.devices ∧
        final.console = (own channel).console ++ printedBy channel transcript := by
  induction calls generalizing machine own with
  | nil =>
    obtain rfl := (returns_step _ _ _).mp returned
    exact ⟨[], rfl, (List.append_nil _).symm, fun channel =>
      ⟨own channel, (returns_step _ _ _).mpr rfl, split channel, (List.append_nil _).symm⟩⟩
  | cons call rest inductionHypothesis =>
    obtain ⟨next, first, following⟩ := (returns_seq _ _ _ _).mp returned
    obtain ⟨after, text, ends, splitNext, heard, said⟩ :=
      step_returns wiring buses call split next first
    obtain ⟨transcript, channels, printed, each⟩ := inductionHypothesis next _ splitNext following
    refine ⟨(call.channel, text) :: transcript, ?_, ?_, ?_⟩
    · rw [List.map_cons, List.map_cons, channels]
    · rw [printed, heard, List.flatMap_cons, List.append_assoc]
    · intro channel
      obtain ⟨final, finished, devices, console⟩ := each channel
      refine ⟨final, ?_, devices, ?_⟩
      · by_cases mine : channel = call.channel
        · subst mine
          rw [ownCalls_cons, returns_seq]
          rw [Function.update_self] at finished
          exact ⟨after, ends, finished⟩
        · rw [ownCalls_other wiring buses call rest channel mine]
          rwa [Function.update_of_ne mine] at finished
      · by_cases mine : channel = call.channel
        · subst mine
          rw [console, Function.update_self, said, printedBy, printedBy,
            List.filter_cons_of_pos (by simp), List.flatMap_cons, List.append_assoc]
        · rw [console, Function.update_of_ne mine, printedBy, printedBy,
            List.filter_cons_of_neg (by simp [Ne.symm mine])]

/-- Whatever the devices do, calls on the drives of several channels do not interfere. They
all return exactly when the calls of each channel return on that channel alone; each channel
is left as its own calls leave it, and what its calls print is what they print alone. -/
theorem channels_isolated (calls : List (ChannelCall ι)) (machine : Machine (ι → δ)) :
    (Halts (allCalls wiring buses calls) machine ↔
      ∀ channel, Halts (ownCalls wiring buses channel calls) (part channel machine)) ∧
    ∀ last, Returns (allCalls wiring buses calls) machine last →
      ∃ transcript, transcript.map Prod.fst = calls.map ChannelCall.channel ∧
        last.console = machine.console ++ transcript.flatMap Prod.snd ∧
        ∀ channel, ∃ final,
          Returns (ownCalls wiring buses channel calls) (part channel machine) final ∧
          last.devices channel = final.devices ∧
          final.console = machine.console ++ printedBy channel transcript :=
  ⟨run_halts wiring buses calls machine _ (part_split machine),
    fun last returned => run_returns wiring buses calls machine last _ (part_split machine) returned⟩

end calls

end BlueOs.DriveChannels
