import BlueOs.DrivePolling

/-!
# The ATA handshake

A drive answers each command with an arbitrary finite number of busy status reads
and then shows itself ready, with data requested if the command moves data; it
reports no error. The bits of a status value that the handshake does not use are
arbitrary. A monitor beside the drive notices a command written while the drive is
busy, and a word moved through the data port when the last status read did not show
the drive ready for it.

The operations that poll keep the monitor quiet against every drive, in any order
and also while they are still polling. A sector write does not poll.
-/

namespace BlueOs.DriveHandshake

open Port Programs AdvanceTechnologyAttachment

/-- How long the drive is busy after each command, the bits of the status values
that the handshake does not use, and the words it delivers. -/
structure Timing where
  delay : Nat → Nat
  noise : Nat → Byte
  word : Nat → BitVec 16

/-- A drive with its monitor. -/
structure Drive where
  busyFor : Nat
  transferring : Bool
  commands : Nat
  statusReads : Nat
  wordsMoved : Nat
  lastStatus : Option Byte
  violated : Bool

/-- The last status read showed the drive not busy and requesting data. -/
def readyShown : Option Byte → Bool
  | some status => status &&& 0x80 = 0 && status &&& 0x08 ≠ 0
  | none => false

namespace Drive

variable (timing : Timing) (drive : Drive)

/-- The commands that move data: identify, read and write. -/
def movesData (command : Byte) : Bool := command = 0xEC || command = 0x20 || command = 0x30

def status : Byte :=
  if 0 < drive.busyFor then 0x80 ||| (timing.noise drive.statusReads &&& 0x7E)
  else (if drive.transferring then 0x08 else 0x00) ||| (timing.noise drive.statusReads &&& 0x76)

/-- A status read is one step of the busy time. -/
def readStatus : Drive :=
  { drive with
    busyFor := drive.busyFor - 1
    statusReads := drive.statusReads + 1
    lastStatus := some (drive.status timing) }

def command (value : Byte) : Drive :=
  { drive with
    busyFor := timing.delay drive.commands
    transferring := movesData value
    commands := drive.commands + 1
    violated := drive.violated || 0 < drive.busyFor }

/-- A word through the data port. -/
def moveWord : Drive :=
  { drive with
    wordsMoved := drive.wordsMoved + 1
    violated := drive.violated || !readyShown drive.lastStatus }

end Drive

/-- The drive behind the ports of a driver. -/
def driveBus (timing : Timing) (ata : Driver) : Bus Drive where
  inb port drive :=
    if port = ata.commandPort.portnumber then (drive.status timing, drive.readStatus timing)
    else (0xFF, drive)
  outb port value drive :=
    if port = ata.commandPort.portnumber then drive.command timing value else drive
  inw port drive :=
    if port = ata.dataPort.portnumber then (timing.word drive.wordsMoved, drive.moveWord)
    else (0xFFFF, drive)
  outw port _ drive := if port = ata.dataPort.portnumber then drive.moveWord else drive

section operations

variable (timing : Timing) (master : Bool) (portBase : BitVec 16)

/-- No violation so far. -/
def Safe (machine : Machine Drive) : Prop := machine.devices.violated = false

/-- No violation so far, and the drive is not busy. -/
structure Quiet (machine : Machine Drive) : Prop where
  safe : Safe machine
  ready : machine.devices.busyFor = 0

/-- The last status read is in the local variable; when it shows the drive not
busy, the drive is not busy and requests the data of its command. -/
structure Polled (moving : Bool) (machine : Machine Drive) : Prop where
  safe : Safe machine
  command : machine.devices.transferring = moving
  shown : machine.devices.lastStatus = some machine.status
  noError : machine.status &&& 0x01 = 0
  ready : machine.status &&& 0x80 = 0 → machine.devices.busyFor = 0
  request : moving = true → machine.status &&& 0x80 = 0 → machine.status &&& 0x08 ≠ 0

/-- The drive has shown itself ready to move data. -/
structure Transferring (machine : Machine Drive) : Prop where
  safe : Safe machine
  ready : machine.devices.busyFor = 0
  shown : readyShown machine.devices.lastStatus = true

theorem Transferring.quiet {machine : Machine Drive} (held : Transferring machine) :
    Quiet machine :=
  ⟨held.safe, held.ready⟩

theorem status_bits (drive : Drive) :
    drive.status timing &&& 0x01 = 0 ∧
      (drive.status timing &&& 0x80 = 0 → drive.busyFor = 0) ∧
      (drive.transferring = true → drive.status timing &&& 0x80 = 0 →
        drive.status timing &&& 0x08 ≠ 0) := by
  have busy : ∀ noise : Byte, (0x80 ||| (noise &&& 0x7E)) &&& 0x01 = 0 ∧
      (0x80 ||| (noise &&& 0x7E)) &&& 0x80 ≠ 0 := by
    decide
  have idle : ∀ noise : Byte, (0x00 ||| (noise &&& 0x76)) &&& 0x01 = 0 := by decide
  have data : ∀ noise : Byte, (0x08 ||| (noise &&& 0x76)) &&& 0x01 = 0 ∧
      (0x08 ||| (noise &&& 0x76)) &&& 0x08 ≠ 0 := by
    decide
  simp only [Drive.status]
  split
  case isTrue still =>
    obtain ⟨noError, set⟩ := busy (timing.noise drive.statusReads)
    exact ⟨noError, fun cleared => absurd cleared set, fun _ cleared => absurd cleared set⟩
  case isFalse settled =>
    have zero : drive.busyFor = 0 := by omega
    cases moving : drive.transferring with
    | true =>
      obtain ⟨noError, set⟩ := data (timing.noise drive.statusReads)
      exact ⟨noError, fun _ => zero, fun _ _ => set⟩
    | false =>
      exact ⟨idle (timing.noise drive.statusReads), fun _ => zero, fun wrong => by cases wrong⟩

/-- A status read after a command without violation. -/
theorem readStatus_polled (moving : Bool) (machine : Machine Drive) (safe : Safe machine)
    (command : machine.devices.transferring = moving) :
    Polled moving (readStatus (driveBus timing (construct master portBase))
      (construct master portBase) machine) := by
  obtain ⟨noError, ready, request⟩ := status_bits timing machine.devices
  have read : readStatus (driveBus timing (construct master portBase)) (construct master portBase)
      machine = { machine with
        status := machine.devices.status timing
        devices := machine.devices.readStatus timing } := by
    simp [readStatus, Port8Bit.read, driveBus]
  rw [read]
  refine ⟨safe, command, rfl, noError, ?_, fun moves => request (command.trans moves)⟩
  intro cleared
  simp only [Drive.readStatus, ready cleared]

/-- The port writes of an operation reach the drive through the command port only. -/
theorem writePorts_transfer (sector : Word) (value : Byte) (machine : Machine Drive) :
    writePorts (driveBus timing (construct master portBase))
        (transfer (construct master portBase) sector value) machine =
      { machine with devices := machine.devices.command timing value } := by
  simp [writePorts, transfer, Port8Bit.write, driveBus, construct]

/-- A command to a drive that is not busy is no violation. -/
theorem command_safe (value : Byte) (machine : Machine Drive) (held : Quiet machine) :
    Safe { machine with devices := machine.devices.command timing value } := by
  have safe : machine.devices.violated = false := held.safe
  simp [Safe, Drive.command, safe, held.ready]

/-- Moving words keeps a drive that has shown itself ready. -/
theorem words_ensure (guard : Machine Drive → Bool) (body : Machine Drive → Machine Drive)
    (moves : ∀ machine, (body machine).devices = machine.devices.moveWord) :
    Ensures Transferring (loop guard body) Transferring Safe := by
  apply ensures_loop _ _ _ guard body Transferring _ (fun _ held => held)
    (fun _ held _ => held) (fun _ held => held.safe)
  intro machine held _
  constructor
  · have safe : machine.devices.violated = false := held.safe
    simp [Safe, moves, Drive.moveWord, safe, held.shown]
  · rw [moves]
    exact held.ready
  · rw [moves]
    exact held.shown

/-- Printing and counting leave the drive alone. -/
theorem Transferring.same {machine next : Machine Drive} (held : Transferring machine)
    (devices : next.devices = machine.devices) : Transferring next := by
  constructor
  · rw [Safe, devices]
    exact held.safe
  · rw [devices]
    exact held.ready
  · rw [devices]
    exact held.shown

theorem Quiet.same {machine next : Machine Drive} (held : Quiet machine)
    (devices : next.devices = machine.devices) : Quiet next := by
  constructor
  · rw [Safe, devices]
    exact held.safe
  · rw [devices]
    exact held.ready

/-- Words are moved to and from a ready drive until the transfer ends. -/
theorem identifyWords_ensure :
    Ensures Transferring (identifyWords (driveBus timing (construct master portBase))
      (construct master portBase)) Quiet Safe := by
  apply ensures_seq _ Transferring _ _ _ _ (ensures_step _ _ _ _ fun _ held => held.same rfl)
  apply ensures_seq _ Transferring
  · apply words_ensure
    intro machine
    simp [identifyWord, readData, Port16Bit.read, driveBus, construct, print, setIndex]
  · exact ensures_step _ _ _ _ fun _ held => held.quiet.same rfl

theorem readWords_ensure (count : Word) :
    Ensures Transferring (readWords (driveBus timing (construct master portBase))
      (construct master portBase) count) Quiet Safe := by
  apply ensures_seq _ Transferring _ _ _ _ (ensures_step _ _ _ _ fun _ held => held.same rfl)
  apply ensures_seq _ Transferring
  · apply words_ensure
    intro machine
    simp [readWord, readData, Port16Bit.read, driveBus, construct, print, setIndex]
  apply ensures_seq _ Transferring _ _ _ _ (ensures_step _ _ _ _ fun _ held => held.same rfl)
  have drained : Ensures Transferring (loop (fun machine => machine.index.slt 512)
      (drainWord (driveBus timing (construct master portBase)) (construct master portBase)))
      Transferring Safe := by
    apply words_ensure
    intro machine
    simp [drainWord, readData, Port16Bit.read, driveBus, construct, setIndex]
  exact ensures_weaken drained fun _ held => held.quiet

/-- Polling with the documented guard ends with the drive ready to move data. -/
theorem poll_ensures :
    Ensures (Polled true) (poll (driveBus timing (construct master portBase))
      (construct master portBase)) (fun machine => Transferring machine ∧ failed machine = false)
      Safe := by
  apply ensures_loop _ _ _ _ _ (Polled true) _ (fun _ held => held) _ (fun _ held => held.safe)
  · intro machine held _
    exact readStatus_polled timing master portBase true machine held.safe held.command
  · intro machine held ended
    have settled := (DrivePolling.busyWithoutError_false machine).mp ended
    have cleared : machine.status &&& 0x80 = 0 :=
      settled.resolve_right fun error => error held.noError
    have shown : readyShown machine.devices.lastStatus = true := by
      simp only [held.shown, readyShown, cleared, held.request rfl cleared, ne_eq,
        not_false_eq_true, decide_true, Bool.and_self]
    have succeeded : failed machine = false := by
      simp only [failed, held.noError, ne_eq, not_true_eq_false, decide_false]
    exact ⟨⟨held.safe, held.ready cleared, shown⟩, succeeded⟩

/-- After a command that moves data: polling, then the transfer. -/
theorem polled_transfer (words : Program (Machine Drive))
    (transfers : Ensures Transferring words Quiet Safe) :
    Ensures (Polled true) (seq (poll (driveBus timing (construct master portBase))
      (construct master portBase)) (branch failed (step (printLiteral "ERROR")) words)) Quiet Safe := by
  apply ensures_seq _ _ _ _ _ _ (poll_ensures timing master portBase)
  apply ensures_branch
  · exact ensures_step _ _ _ _ fun _ held => held.1.1.quiet.same rfl
  · exact fun fuel start held => transfers fuel start held.1.1

theorem identify_ensures :
    Ensures Quiet (identify (driveBus timing (construct master portBase))
      (construct master portBase)) Quiet Safe := by
  apply ensures_seq _ Quiet
  · apply ensures_step
    intro machine held
    -- No command yet: the status read only looks at a drive that is not busy.
    have selected : writePorts (driveBus timing (construct master portBase))
        [((construct master portBase).devicePort, if (construct master portBase).master then 0xA0
          else 0xB0), ((construct master portBase).controlPort, 0)] machine = machine := by
      simp [writePorts, Port8Bit.write, driveBus, construct]
    rw [selected]
    have polled := readStatus_polled timing master portBase machine.devices.transferring machine
      held.safe rfl
    constructor
    · exact polled.safe
    · simp [readStatus, Port8Bit.read, driveBus, Drive.readStatus, held.ready]
  apply ensures_branch _ _ _ _ _ _ (ensures_step _ _ _ _ fun _ held => held.1)
  apply ensures_seq _ (Polled true)
  · apply ensures_step
    intro machine held
    have commanded : writePorts (driveBus timing (construct master portBase))
        [((construct master portBase).sectorCountPort, 0),
          ((construct master portBase).lbaLowPort, 0), ((construct master portBase).lbaMidPort, 0),
          ((construct master portBase).lbaHighPort, 0),
          ((construct master portBase).commandPort, 0xEC)] machine =
        { machine with devices := machine.devices.command timing 0xEC } := by
      simp [writePorts, Port8Bit.write, driveBus, construct]
    rw [commanded]
    exact readStatus_polled timing master portBase true _ (command_safe timing _ _ held.1) rfl
  apply ensures_branch
  · apply ensures_step
    rintro machine ⟨polled, absent⟩
    have zero : machine.status = 0x00 := by simpa using absent
    exact ⟨polled.safe, polled.ready (by rw [zero]; decide)⟩
  · exact fun fuel start held => polled_transfer timing master portBase _
      (identifyWords_ensure timing master portBase) fuel start held.1

theorem read28_ensures (sectorNum count : Word) :
    Ensures Quiet (read28 (driveBus timing (construct master portBase))
      (construct master portBase) sectorNum count) Quiet Safe := by
  apply ensures_branch _ _ _ _ _ _ (ensures_step _ _ _ _ fun _ held => held.1)
  apply ensures_seq _ (Polled true)
  · apply ensures_step
    intro machine held
    rw [writePorts_transfer]
    exact readStatus_polled timing master portBase true _ (command_safe timing _ _ held.1) rfl
  · exact polled_transfer timing master portBase _ (readWords_ensure timing master portBase count)

theorem flush_ensures :
    Ensures Quiet (flush (driveBus timing (construct master portBase))
      (construct master portBase)) Quiet Safe := by
  apply ensures_seq _ (Polled false)
  · apply ensures_step
    intro machine held
    have commanded : writePorts (driveBus timing (construct master portBase))
        [((construct master portBase).devicePort, if (construct master portBase).master then 0xE0
          else 0xF0), ((construct master portBase).commandPort, 0xE7)] machine =
        { machine with devices := machine.devices.command timing 0xE7 } := by
      simp [writePorts, Port8Bit.write, driveBus, construct]
    rw [commanded]
    exact readStatus_polled timing master portBase false _ (command_safe timing _ _ held) rfl
  apply ensures_seq _ Quiet
  · apply ensures_loop _ _ _ _ _ (Polled false) _ (fun _ held => held) _ (fun _ held => held.safe)
    · intro machine held _
      exact readStatus_polled timing master portBase false machine held.safe held.command
    · intro machine held ended
      exact ⟨held.safe, held.ready (by simpa [busy] using ended)⟩
  · exact ensures_branch _ _ _ _ _ _ (ensures_step _ _ _ _ fun _ held => held.1.same rfl)
      (ensures_step _ _ _ _ fun _ held => held.1.same rfl)

/-- The call is not a sector write that passes its argument checks. -/
def Polls : Call → Prop
  | .write28 sector _ count => 0x0FFFFFFF < sector ∨ 512 < count
  | _ => True

theorem call_ensures (call : Call) (polls : Polls call) :
    Ensures Quiet (call.program (driveBus timing (construct master portBase))
      (construct master portBase)) Quiet Safe := by
  cases call with
  | identify => exact identify_ensures timing master portBase
  | read28 sectorNum count => exact read28_ensures timing master portBase sectorNum count
  | flush => exact flush_ensures timing master portBase
  | write28 sector data count =>
    apply ensures_branch _ _ _ _ _ _ (ensures_step _ _ _ _ fun _ held => held.1)
    apply ensures_branch _ _ _ _ _ _ (ensures_step _ _ _ _ fun _ held => held.1.1)
    intro fuel start held
    simp only [Polls] at polls
    simp only [decide_eq_false_iff_not] at held
    exact absurd polls (not_or.mpr ⟨held.1.2, held.2⟩)

/-- In every run of calls of which none is an accepted sector write, against every
drive, no state reached has a violation, also when the run never ends. -/
theorem handshake_safe (calls : List Call) (polls : ∀ call ∈ calls, Polls call)
    (machine : Machine Drive) (quiet : Quiet machine) (fuel : Nat) :
    Safe ((Programs.sequence (calls.map fun call =>
      call.program (driveBus timing (construct master portBase))
        (construct master portBase))).run fuel machine).state := by
  have ends := ensures_sequence Quiet Safe
    (calls.map fun call => call.program (driveBus timing (construct master portBase))
      (construct master portBase)) (by
      intro program member
      obtain ⟨call, called, rfl⟩ := List.mem_map.mp member
      exact call_ensures timing master portBase call (polls call called)) fuel machine quiet
  split at ends
  case h_1 last ended =>
    rw [ended]
    exact ends.safe
  case h_2 last ended =>
    rw [ended]
    exact ends

/-- The drive has not shown itself ready, so every word moved is a violation. -/
def Unready (machine : Machine Drive) : Prop := readyShown machine.devices.lastStatus = false

/-- A word moved to an unready drive is noticed, and the monitor does not forget. -/
theorem moveWord_violates (machine next : Machine Drive) (unready : Unready machine)
    (moved : next.devices = machine.devices.moveWord) :
    Unready next ∧ next.devices.violated = true := by
  have shown : readyShown machine.devices.lastStatus = false := unready
  simp [Unready, moved, Drive.moveWord, shown]

/-- A loop that moves a word each turn violates, unless it has no turn. -/
theorem loop_violates (more : Machine Drive → Bool) (body : Machine Drive → Machine Drive)
    (untouched : Machine Drive → Prop)
    (moves : ∀ machine, (body machine).devices = machine.devices.moveWord) :
    Ensures (fun machine => Unready machine ∧
        (machine.devices.violated = true ∨ untouched machine)) (loop more body)
      (fun machine => Unready machine ∧
        (machine.devices.violated = true ∨ untouched machine ∧ more machine = false))
      fun _ => True := by
  apply ensures_loop _ _ _ more body (fun machine => Unready machine ∧
    (machine.devices.violated = true ∨ untouched machine)) _ (fun _ held => held) _
    (fun _ _ => trivial)
  · intro machine held _
    obtain ⟨unready, violated⟩ := moveWord_violates machine (body machine) held.1 (moves machine)
    exact ⟨unready, Or.inl violated⟩
  · intro machine held ended
    exact ⟨held.1, held.2.imp_right fun first => ⟨first, ended⟩⟩

/-- An accepted sector write moves its words whatever the drive has shown: if that
was not readiness, the first word violates the handshake. -/
theorem write28_violates (sector : Word) (data : Nat → Byte) (count : Word)
    (accepted : ¬ Polls (.write28 sector data count)) :
    Ensures Unready (write28 (driveBus timing (construct master portBase))
      (construct master portBase) sector data count)
      (fun machine => machine.devices.violated = true) fun _ => True := by
  obtain ⟨inside, fits⟩ := not_or.mp accepted
  apply ensures_branch _ _ _ _ _ _ (fun _ _ held => absurd held.2 (by simpa using inside))
  apply ensures_branch _ _ _ _ _ _ (fun _ _ held => absurd held.2 (by simpa using fits))
  let bus := driveBus timing (construct master portBase)
  let ata := construct master portBase
  apply ensures_seq _ (fun machine => Unready machine ∧
    (machine.devices.violated = true ∨ machine.index = 0))
  · apply ensures_step
    intro machine held
    rw [writePorts_transfer]
    exact ⟨held.1.1, Or.inr rfl⟩
  -- A count of zero skips the first loop; then the padding is what violates.
  apply ensures_seq _ (fun machine => Unready machine ∧
    (machine.devices.violated = true ∨ count = 0))
  · have words := loop_violates (fun machine => machine.index < count)
      (writeWord bus ata data count) (fun machine => machine.index = 0) (fun machine => by
        simp [bus, ata, writeWord, writeData, Port16Bit.write, driveBus, construct, print, setIndex])
    apply ensures_weaken words
    rintro machine ⟨unready, violated | ⟨first, ended⟩⟩
    · exact ⟨unready, Or.inl violated⟩
    · have none : count = 0 := by
        simp only [first, decide_eq_false_iff_not] at ended
        bv_omega
      exact ⟨unready, Or.inr none⟩
  apply ensures_seq _ (fun machine => Unready machine ∧
    (machine.devices.violated = true ∨ machine.index.slt 512 = true))
  · apply ensures_step
    intro machine held
    have padded : count = 0 → (count + count % 2).slt 512 = true := by
      rintro rfl
      decide
    exact ⟨held.1, held.2.imp_right padded⟩
  · have padding := loop_violates (fun machine => machine.index.slt 512) (padWord bus ata)
      (fun machine => machine.index.slt 512 = true) (fun machine => by
        simp [bus, ata, padWord, writeData, Port16Bit.write, driveBus, construct, setIndex])
    apply ensures_weaken padding
    rintro machine ⟨_, violated | ⟨below, ended⟩⟩
    · exact violated
    · rw [ended] at below
      cases below

end operations

/-- A drive that received no command, and a driver that read no status. -/
def unused : Machine Drive where
  devices := ⟨0, false, 0, 0, 0, none, false⟩
  console := []
  status := 0
  index := 0

/-- A drive that is busy for three status reads after each command. -/
def slow : Timing where
  delay _ := 3
  noise _ := 0
  word _ := 0

/-- Identification, flush and sector read of a slow drive. -/
theorem handshake_safe_slow_drive :
    Safe ((Programs.sequence ([Call.identify, .flush, .read28 0 25].map fun call =>
      call.program (driveBus slow (construct false 0x1F0)) (construct false 0x1F0))).run 1000
        unused).state :=
  handshake_safe slow false 0x1F0 _ (by simp [Polls]) unused ⟨rfl, rfl⟩ 1000

/-- A sector write of 25 bytes ends with a violation on a slow drive. -/
theorem write28_moves_unready_words :
    ∃ fuel last, ((Call.write28 0 (fun _ => 0x41) 25).program (driveBus slow (construct false 0x1F0))
      (construct false 0x1F0)).run fuel unused = .finished last ∧ ¬ Safe last := by
  obtain ⟨last, fuel, ended⟩ := DrivePolling.write28_halts (driveBus slow (construct false 0x1F0))
    (construct false 0x1F0) 0 (fun _ => 0x41) 25 unused
  have violates := write28_violates slow false 0x1F0 0 (fun _ => 0x41) 25 (by simp [Polls])
    fuel unused rfl
  rw [ended] at violates
  exact ⟨fuel, last, ended, by simpa [Safe] using violates⟩

end BlueOs.DriveHandshake
