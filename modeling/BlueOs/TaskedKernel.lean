import BlueOs.KernelMain
import BlueOs.Multitasking

/-!
# The kernel with tasks

When tasks are registered, as the disabled lines of `kernelMain` do it, the timer switches
between them while the keyboard and the mouse interrupt whichever task runs. A task cannot
tell: over every sequence of these interrupts it has the registers that it would have on
a processor of its own. And the screen shows what the prints of the tasks, the pressed
keys and the packets of the mouse make of it one after the other.
-/

namespace BlueOs.TaskedKernel

open ByteMemory InterruptStubs
open Acknowledgement (routineAt interruptNumber readyPics)
open ContextSwitch (Respects Switches)
open InterruptDispatch (installed gateOf)
open Keyboard (KeyboardDriver pressed typed character notify)
open KernelMain (Image Kernel perform)
open Multitasking (Turn runs contextOf alone)

/-- The running context with the memory and the task table, the devices, and what the
event handler of the keyboard acts on. -/
structure System (ω : Type) where
  context : ContextSwitch.Machine
  devices : Mouse.Machine
  world : ω

/-- The lines that have a stub. -/
inductive Source where
  | timer
  | keyboard
  | mouse
deriving DecidableEq

def Source.line : Source → Fin 16
  | timer => ⟨0, by decide⟩
  | keyboard => ⟨1, by decide⟩
  | mouse => ⟨12, by decide⟩

def Source.vector : Source → Byte
  | timer => 0x20
  | keyboard => 0x21
  | mouse => 0x2C

/-- What a context executes and prints up to an interrupt, and what the status port and the
data port of the keyboard controller deliver then. -/
structure Stretch (ι : Type) where
  turn : Turn ι
  prints : List (List Byte)
  source : Source
  status : Byte
  byte : Byte

section system

variable {ω ι : Type} (executes : Option Address → Registers → ι → Registers) (image : Image)
  (onKeyPress : Address → Byte → ω → ω) (driver : KeyboardDriver)

/-- The kernel's objects at an interrupt, after the prints of the interrupted context. -/
def System.kernel (system : System ω) (prints : List (List Byte)) : Kernel ω where
  interrupts := ⟨EndOfInterrupt.recording system.context.manager, none⟩
  machine := { system.devices with
    console := prints.foldl TextConsole.print system.devices.console }
  world := system.world

/-- What the virtual call of a handler returns. -/
def invoke (system : System ω) (stretch : Stretch ι) (handler : Address) (esp : Word) : Word :=
  (KernelMain.handleInterrupt image onKeyPress driver stretch.status stretch.byte handler esp
    (system.kernel stretch.prints)).1

/-- A stretch of the running context and the interrupt that ends it. -/
def step (system : System ω) (stretch : Stretch ι) : Option (System ω) := do
  let slice := stretch.turn.slice executes system.context
  let kernel := system.kernel stretch.prints
  let gate := kernel.interrupts.gate stretch.source.line
  let routine ← routineAt image.link gate.handlerAddress
  let number ← interruptNumber routine
  let handled ← handleInterruptRequest (invoke image onKeyPress driver system stretch) true
    slice.call number (kernel.interrupts.accept stretch.source.line)
    (slice.interrupted.deliver gate)
  let served := handled.2.2.effects.reverse.foldl
    (perform image onKeyPress driver stretch.status stretch.byte) kernel
  some {
    context := {
      manager := handled.2.2
      memory := handled.2.1.memory
      registers := handled.2.1.registers
      interruptions := if stretch.source = .timer then
          (system.context.currentTask, slice.registers) :: system.context.interruptions
        else system.context.interruptions }
    devices := served.machine
    world := served.world }

/-- The stretch writes no byte of the saved context of another task. -/
def RespectsOthers (system : System ω) (stretch : Stretch ι) : Prop :=
  Multitasking.RespectsOthers executes system.context stretch.turn

/-- What a stretch does to the screen and to what the event handler acts on. -/
def serve (shown : Mouse.Machine × ω) (stretch : Stretch ι) : Mouse.Machine × ω :=
  let machine := { shown.1 with
    console := stretch.prints.foldl TextConsole.print shown.1.console }
  match stretch.source with
  | .timer => (machine, shown.2)
  | .keyboard =>
    ({ machine with console := TextConsole.print machine.console (typed (pressed [stretch.byte])) },
      ((pressed [stretch.byte]).filterMap character).foldl (notify onKeyPress driver) shown.2)
  | .mouse => (Mouse.handleInterrupt machine stretch.status stretch.byte, shown.2)

end system

/-- One for the timer. -/
def Source.tick (source : Source) : Nat := if source = .timer then 1 else 0

/-- The timer interrupts among stretches. -/
def ticks {ι : Type} (stretches : List (Stretch ι)) : Nat :=
  (stretches.map fun stretch => stretch.source.tick).sum

/-- The inputs of one slot: those of the stretches that start after as many timer
interrupts as make it its turn. -/
def share {ι : Type} (count : Nat) (index : Int) : Nat → List (Stretch ι) → List ι
  | _, [] => []
  | passed, stretch :: rest =>
    (if runs count passed = index then stretch.turn.inputs else []) ++
      share count index (passed + stretch.source.tick) rest

/-- The gates and the controllers are ready, and both drivers have their slots. -/
structure Ready (image : Image) (manager : InterruptManager.Manager) : Prop where
  gates : ∀ vector, manager.interruptDescriptorTable vector = gateOf image.link (installed vector)
  pics : manager.pics = readyPics
  keyboard : manager.interruptHandler 0x21 = some image.keyboard
  mouse : manager.interruptHandler 0x2C = some image.mouse

/-- What a stub has pushed does not depend on the gate. -/
theorem saved_gate (slice : Slice) (gate other : InterruptManager.GateDescriptor) :
    (slice.saved gate).stack = (slice.saved other).stack := by
  rw [Slice.saved, Slice.saved, save_deliver, save_deliver]

theorem saved_esp (slice : Slice) (gate other : InterruptManager.GateDescriptor) :
    (slice.saved gate).registers.esp = (slice.saved other).registers.esp :=
  congrArg WordStack.Stack.pointer (saved_gate slice gate other)

theorem leaves_gate (slice : Slice) (gate other : InterruptManager.GateDescriptor) :
    slice.leaves gate = slice.leaves other := by
  have memory : (slice.saved gate).memory = (slice.saved other).memory :=
    congrArg WordStack.Stack.memory (saved_gate slice gate other)
  rw [Slice.leaves, Slice.leaves, saved_esp slice gate other, memory]

theorem vector_delivered (source : Source) :
    (readyPics.deliver source.line).1 = source.vector := by
  cases source with
  | timer => decide
  | keyboard => decide
  | mouse => decide

theorem vector_acknowledged (source : Source) :
    InterruptDispatch.acknowledgedPics (readyPics.deliver source.line).2
      (source.vector.setWidth 32) = readyPics := by
  cases source with
  | timer => decide
  | keyboard => decide
  | mouse => decide

/-- The stub of a line passes its vector. -/
theorem vector_passed (source : Source) :
    interruptNumber (installed source.vector) = some (source.vector.setWidth 32) := by
  cases source with
  | timer => decide
  | keyboard => decide
  | mouse => decide

section service

variable {ω ι : Type} (executes : Option Address → Registers → ι → Registers) (image : Image)
  (onKeyPress : Address → Byte → ω → ω) (driver : KeyboardDriver)

/-- The manager that the stub of an interrupt calls. -/
def accepted (system : System ω) (source : Source) : InterruptManager.Manager :=
  (system.kernel []).interrupts.accept source.line

/-- The context after an interrupt whose call returned a pointer and a manager. -/
def resumed (system : System ω) (stretch : Stretch ι) (returned : Address)
    (manager : InterruptManager.Manager) : ContextSwitch.Machine :=
  let slice := stretch.turn.slice executes system.context
  { manager := manager
    memory := slice.leaves system.context.timerGate
    registers := cpuState (slice.leaves system.context.timerGate) returned
    interruptions := if stretch.source = .timer then
        (system.context.currentTask, slice.registers) :: system.context.interruptions
      else system.context.interruptions }

/-- A stretch ends with a call of the manager for the vector of its line. What the call
records beside the ends of interrupt is carried out. -/
theorem step_called (system : System ω) (stretch : Stretch ι)
    (ready : Ready image system.context.manager) (returned : Address)
    (tasks : InterruptManager.Manager)
    (called : InterruptManager.handleInterrupt (invoke image onKeyPress driver system stretch) true
      (accepted system stretch.source) (stretch.source.vector.setWidth 32)
      ((stretch.turn.slice executes system.context).saved
        system.context.timerGate).registers.esp =
          some (returned, InterruptManager.acknowledge tasks (stretch.source.vector.setWidth 32))) :
    step executes image onKeyPress driver system stretch =
      some {
        context := resumed executes system stretch returned
          (InterruptManager.acknowledge tasks (stretch.source.vector.setWidth 32))
        devices := (tasks.effects.reverse.foldl
          (perform image onKeyPress driver stretch.status stretch.byte)
          (system.kernel stretch.prints)).machine
        world := (tasks.effects.reverse.foldl
          (perform image onKeyPress driver stretch.status stretch.byte)
          (system.kernel stretch.prints)).world } := by
  have pics : (EndOfInterrupt.recording system.context.manager).pics = readyPics := ready.pics
  have gate : (system.kernel stretch.prints).interrupts.gate stretch.source.line =
      gateOf image.link (installed stretch.source.vector) := by
    rw [Acknowledgement.State.gate, System.kernel, pics, vector_delivered]
    exact ready.gates _
  simp only [step, gate, InterruptDispatch.gateOf_handlerAddress,
    Acknowledgement.routineAt_link image.link image.injective, vector_passed,
    Option.bind_eq_bind, Option.bind_some, handleInterruptRequest_served]
  rw [saved_esp _ _ system.context.timerGate, leaves_gate _ _ system.context.timerGate]
  have same : (system.kernel stretch.prints).interrupts.accept stretch.source.line =
      accepted system stretch.source := rfl
  rw [same, called]
  simp only [Option.map_some, Option.bind_some, KernelMain.perform_acknowledged, resumed]

variable {image} in
/-- After the end of interrupt the controllers are ready for the next one. -/
theorem acknowledged_ready (system : System ω) (source : Source)
    (ready : Ready image system.context.manager) (handled : InterruptManager.Manager)
    (table : handled.interruptDescriptorTable = system.context.manager.interruptDescriptorTable)
    (handlers : handled.interruptHandler = system.context.manager.interruptHandler)
    (pics : handled.pics = (accepted system source).pics) :
    Ready image (InterruptManager.acknowledge handled (source.vector.setWidth 32)) := by
  obtain ⟨handles, -⟩ :=
    InterruptDispatch.acknowledge_handles handled (source.vector.setWidth 32)
  have delivered : (accepted system source).pics = (readyPics.deliver source.line).2 :=
    congrArg (fun pics => (Pic8259.Pair.deliver pics source.line).2) ready.pics
  constructor
  · intro vector
    rw [handles.table, table]
    exact ready.gates vector
  · rw [handles.pics, pics, delivered]
    exact vector_acknowledged source
  · rw [handles.handlers, handlers]
    exact ready.keyboard
  · rw [handles.handlers, handlers]
    exact ready.mouse

variable (entrypoint : Address → Word) (table : List Address)

/-- What every stretch keeps, with the timer interrupts so far and the inputs of each slot:
each task has the registers that it would have alone. -/
structure Held (passed : Nat) (past : Int → List ι) (system : System ω) : Prop where
  ready : Ready image system.context.manager
  context : ContextSwitch.Invariant entrypoint system.context
  tasks : system.context.manager.taskManager.tasks = table
  current : system.context.currentTask = runs table.length passed
  own : ∀ index task, system.context.manager.taskManager.slot index = some task →
    contextOf system.context index task = alone executes entrypoint task (past index)

/-- The inputs of each slot after one more stretch. -/
def extended (passed : Nat) (past : Int → List ι) (stretch : Stretch ι) (index : Int) : List ι :=
  past index ++ if runs table.length passed = index then stretch.turn.inputs else []

/-- The context when the manager is called. -/
def entered (system : System ω) (source : Source) : ContextSwitch.Machine :=
  { system.context with manager := accepted system source }

/-- A stretch that the timer ends is a slice of the running context. -/
theorem resumed_ticks (call : Address → Word → Word) (system : System ω) (stretch : Stretch ι)
    (timer : stretch.source = .timer) (returned : Address) (manager : InterruptManager.Manager)
    (called : InterruptManager.handleInterrupt call true (accepted system .timer) 0x20
      ((stretch.turn.slice executes system.context).saved
        system.context.timerGate).registers.esp = some (returned, manager)) :
    ContextSwitch.step call (entered system .timer)
        (stretch.turn.slice executes system.context) =
      some (resumed executes system stretch returned manager) := by
  rw [ContextSwitch.step, handleInterruptRequest_served]
  simp only [resumed, timer, if_true]
  exact congrArg (Option.map _) (congrArg (Option.map _) called)

variable {executes image entrypoint table}

theorem entered_invariant (system : System ω) (source : Source)
    (held : ContextSwitch.Invariant entrypoint system.context) :
    ContextSwitch.Invariant entrypoint (entered system source) :=
  ⟨held.vacant, held.valid, held.distinct, held.used, held.saved⟩

/-- After a switch every task still has the registers that it would have alone. -/
theorem switched_own (system : System ω) (stretch : Stretch ι) (passed : Nat)
    (past : Int → List ι) (held : Held executes image entrypoint table passed past system)
    (respects : RespectsOthers executes system stretch) {next : ContextSwitch.Machine}
    {returned : Address}
    (switches : Switches (entered system .timer) next
      (stretch.turn.slice executes system.context) returned)
    (moved : next.currentTask = runs table.length (passed + 1)) (index : Int) (task : Address)
    (slot : next.manager.taskManager.slot index = some task) :
    contextOf next index task =
      alone executes entrypoint task (extended table passed past stretch index) := by
  have context := entered_invariant system .timer held.context
  have current : (entered system .timer).currentTask = runs table.length passed := held.current
  have running := Multitasking.runs_running table.length passed
  rw [← moved] at running
  have before := slot
  rw [SchedulerSteps.slot_congr _ _ switches.ticks.tasks] at before
  rw [Multitasking.contextOf_switched switches context respects index task slot running, extended,
    ← current]
  exact Multitasking.contextOf_executed (entered system .timer) stretch.turn index task _ before
    (held.own index task before)

/-- The timer ends a stretch: the next task is resumed. -/
theorem step_timer (system : System ω) (stretch : Stretch ι) (passed : Nat)
    (past : Int → List ι) (held : Held executes image entrypoint table passed past system)
    (respects : RespectsOthers executes system stretch) (timer : stretch.source = .timer) :
    ∃ next, step executes image onKeyPress driver system stretch = some next ∧
      Held executes image entrypoint table (passed + 1)
        (extended table passed past stretch) next ∧
      (next.devices, next.world) =
        serve onKeyPress driver (system.devices, system.world) stretch := by
  have context := entered_invariant system .timer held.context
  obtain ⟨returned, scheduled, chosen, -, -⟩ := SchedulerSteps.schedule_ticks
    system.context.manager.taskManager context.valid
    ((stretch.turn.slice executes system.context).saved system.context.timerGate).registers.esp
  have called := KernelMain.timer_scheduled (invoke image onKeyPress driver system stretch)
    (accepted system .timer) _ returned scheduled context.vacant chosen
  have ticked := resumed_ticks executes _ system stretch timer returned _ called
  obtain ⟨next, pointer, stepped, switches⟩ := ContextSwitch.step_switches
    (invoke image onKeyPress driver system stretch) (entered system .timer)
    (stretch.turn.slice executes system.context) context.valid context.vacant
  obtain ⟨other, steppedToo, kept, -⟩ := ContextSwitch.step_resumed
    (invoke image onKeyPress driver system stretch) entrypoint _ _ context respects
  obtain rfl := Option.some.inj (steppedToo.symm.trans stepped)
  obtain rfl := Option.some.inj (stepped.symm.trans ticked)
  have number : stretch.source.vector.setWidth 32 = (0x20 : Word) := by
    rw [timer]
    rfl
  have taken := step_called executes image onKeyPress driver system stretch held.ready returned _
    (by rw [number, timer]; exact called)
  have moved := switches.moved (Int.ne_of_gt context.used)
  have current : (entered system .timer).currentTask = runs table.length passed := held.current
  have count : (entered system .timer).manager.taskManager.numTasks = table.length :=
    congrArg (fun tasks : List Address => (tasks.length : Int)) held.tasks
  rw [current, count, Multitasking.runs_next] at moved
  rw [number] at taken
  refine ⟨_, taken, ⟨acknowledged_ready system .timer held.ready _ rfl rfl rfl, kept,
    switches.ticks.tasks.trans held.tasks, moved, ?_⟩, ?_⟩
  · exact switched_own system stretch passed past held respects switches moved
  · rw [serve, timer]
    rfl

/-- If the call returns the pointer that it was given and leaves the tasks alone, the
interrupted context continues, and the saved ones are as they were. -/
theorem resumed_continues (system : System ω) (stretch : Stretch ι)
    (context : ContextSwitch.Invariant entrypoint system.context)
    (respects : RespectsOthers executes system stretch) (device : stretch.source ≠ .timer)
    (manager : InterruptManager.Manager)
    (tasks : manager.taskManager = system.context.manager.taskManager)
    (handlers : manager.interruptHandler = system.context.manager.interruptHandler) :
    ContextSwitch.Invariant entrypoint (resumed executes system stretch
        ((stretch.turn.slice executes system.context).saved
          system.context.timerGate).registers.esp manager) ∧
      ∀ index task, system.context.manager.taskManager.slot index = some task →
        contextOf (resumed executes system stretch
          ((stretch.turn.slice executes system.context).saved
            system.context.timerGate).registers.esp manager) index task =
          if index = system.context.currentTask then
            (stretch.turn.slice executes system.context).registers
          else contextOf system.context index task := by
  have registers := (stretch.turn.slice executes system.context).leaves_interrupted
    system.context.timerGate
  have current : (resumed executes system stretch ((stretch.turn.slice executes
      system.context).saved system.context.timerGate).registers.esp manager).currentTask =
        system.context.currentTask := congrArg TaskManager.Manager.currentTask tasks
  have saved (index : Int) (task : Address)
      (slot : system.context.manager.taskManager.slot index = some task)
      (suspended : index ≠ system.context.currentTask) :=
    cpuState_congr _ _ _ (respects index task slot suspended)
  constructor
  · constructor
    · exact (congrFun handlers 0x20).trans context.vacant
    · simp only [resumed, tasks]
      exact context.valid
    · simp only [resumed, tasks]
      exact context.distinct
    · simp only [resumed, tasks]
      exact context.used
    · intro index task slot suspended
      simp only [resumed, ContextSwitch.Machine.currentTask, tasks, if_neg device]
        at slot suspended ⊢
      exact (saved index task slot suspended).trans (context.saved index task slot suspended)
  · intro index task slot
    rw [contextOf, contextOf, current]
    by_cases mine : index = system.context.currentTask
    · rw [if_pos mine, if_pos mine]
      exact registers
    · rw [if_neg mine, if_neg mine, if_neg mine]
      simp only [resumed, tasks]
      exact saved index task slot mine

/-- A device ends a stretch: the interrupted context continues. -/
theorem step_device (system : System ω) (stretch : Stretch ι) (passed : Nat)
    (past : Int → List ι) (held : Held executes image entrypoint table passed past system)
    (respects : RespectsOthers executes system stretch) (device : stretch.source ≠ .timer)
    (handler : Address)
    (slot : system.context.manager.interruptHandler stretch.source.vector = some handler) :
    ∃ next esp, step executes image onKeyPress driver system stretch = some next ∧
      Held executes image entrypoint table passed (extended table passed past stretch) next ∧
      next.devices = (KernelMain.handleInterrupt image onKeyPress driver stretch.status
        stretch.byte handler esp (system.kernel stretch.prints)).2.machine ∧
      next.world = (KernelMain.handleInterrupt image onKeyPress driver stretch.status
        stretch.byte handler esp (system.kernel stretch.prints)).2.world := by
  have other : stretch.source.vector ≠ 0x20 := by
    cases source : stretch.source with
    | timer => exact absurd source device
    | keyboard => decide
    | mouse => decide
  have called := KernelMain.registered_called (invoke image onKeyPress driver system stretch)
    (accepted system stretch.source) stretch.source.vector handler slot other
    ((stretch.turn.slice executes system.context).saved system.context.timerGate).registers.esp
    (KernelMain.handleInterrupt_esp image onKeyPress driver stretch.status stretch.byte handler _ _)
  have taken := step_called executes image onKeyPress driver system stretch held.ready _ _ called
  obtain ⟨handles, tasks⟩ := InterruptDispatch.acknowledge_handles
    ((accepted system stretch.source).record (.invoked handler _))
    (stretch.source.vector.setWidth 32)
  obtain ⟨context, contexts⟩ := resumed_continues system stretch held.context respects device _
    tasks handles.handlers
  refine ⟨_, _, taken, ⟨acknowledged_ready system stretch.source held.ready _ rfl rfl rfl, context,
    ?_, ?_, ?_⟩, rfl, rfl⟩
  · exact (congrArg TaskManager.Manager.tasks tasks).trans held.tasks
  · exact (congrArg TaskManager.Manager.currentTask tasks).trans held.current
  · intro index task slot
    have before : system.context.manager.taskManager.slot index = some task :=
      (congrArg (fun manager => manager.slot index) tasks).symm.trans slot
    rw [contexts index task before, extended, ← held.current]
    exact Multitasking.contextOf_executed system.context stretch.turn index task _ before
      (held.own index task before)

/-- Every stretch and its interrupt are served, whatever ends it. -/
theorem step_serves (system : System ω) (stretch : Stretch ι) (passed : Nat)
    (past : Int → List ι) (held : Held executes image entrypoint table passed past system)
    (respects : RespectsOthers executes system stretch) :
    ∃ next, step executes image onKeyPress driver system stretch = some next ∧
      Held executes image entrypoint table (passed + stretch.source.tick)
        (extended table passed past stretch) next ∧
      (next.devices, next.world) =
        serve onKeyPress driver (system.devices, system.world) stretch := by
  cases source : stretch.source with
  | timer => exact step_timer onKeyPress driver system stretch passed past held respects source
  | keyboard =>
    obtain ⟨next, esp, taken, again, devices, world⟩ := step_device onKeyPress driver system stretch
      passed past held respects (by simp [source]) image.keyboard
      (by rw [source]; exact held.ready.keyboard)
    rw [KernelMain.handleInterrupt_keyboard] at devices world
    refine ⟨next, taken, again, ?_⟩
    rw [devices, world, serve, source]
    rfl
  | mouse =>
    obtain ⟨next, esp, taken, again, devices, world⟩ := step_device onKeyPress driver system stretch
      passed past held respects (by simp [source]) image.mouse
      (by rw [source]; exact held.ready.mouse)
    rw [KernelMain.handleInterrupt_mouse] at devices world
    refine ⟨next, taken, again, ?_⟩
    rw [devices, world, serve, source]
    rfl

theorem run_serves (stretches : List (Stretch ι)) (system : System ω) (passed : Nat)
    (past : Int → List ι) (held : Held executes image entrypoint table passed past system)
    (respects : Runs.Meets (step executes image onKeyPress driver) (RespectsOthers executes)
      stretches system) :
    ∃ final, Runs.run (step executes image onKeyPress driver) stretches system = some final ∧
      Held executes image entrypoint table (passed + ticks stretches)
        (fun index => past index ++ share table.length index passed stretches) final ∧
      (final.devices, final.world) =
        stretches.foldl (serve onKeyPress driver) (system.devices, system.world) := by
  induction stretches generalizing system passed past with
  | nil =>
    refine ⟨system, rfl, ?_, rfl⟩
    simpa [ticks, share] using held
  | cons stretch rest inductionHypothesis =>
    obtain ⟨next, taken, again, shown⟩ :=
      step_serves onKeyPress driver system stretch passed past held respects.1
    obtain ⟨final, completed, last, same⟩ :=
      inductionHypothesis next _ _ again (respects.2 next taken)
    refine ⟨final, ?_, ?_, ?_⟩
    · rw [Runs.run_cons, taken, Option.bind_some, completed]
    · simpa [ticks, share, extended, Nat.add_assoc] using last
    · rw [List.foldl_cons, ← shown, same]

end service

section boot

variable {ω ι : Type} (executes : Option Address → Registers → ι → Registers) (image : Image)
  (onKeyPress : Address → Byte → ω → ω) (driver : KeyboardDriver)
  (entrypoint : Address → Word) (before : InterruptManager.Manager) (burst prio : Address → Word)
  (tasks : List Address) (memory : Memory) (registers : Registers)
  (this driverManager : Address) (machine : Mouse.Machine) (world : ω)

/-- The memory after the drivers were added to their manager. -/
def registered (memory : Memory) : Memory :=
  (FixedRegistries.run (FixedRegistries.driverRegistry driverManager)
    (FixedRegistries.addDriver driverManager) memory [image.keyboard, image.mouse]).memory

/-- The drivers are constructed, added to their manager and activated. -/
def attach (started : ContextSwitch.Machine) : System ω where
  context := { started with
    manager := { started.manager with interruptHandler := KernelMain.handlers image this }
    memory := registered image driverManager started.memory }
  devices := FixedRegistries.activateAll (KernelMain.activate image) driverManager
    (registered image driverManager started.memory) machine
  world := world

/-- `kernelMain` with tasks, up to the activation of the interrupt manager. -/
def boot : System ω :=
  attach image this driverManager machine world
    (ContextSwitch.start entrypoint image.link before burst prio tasks memory registers)

/-- The object of the driver manager, of 1028 bytes, does not overlap a task's. -/
def Beside (driverManager task : Address) : Prop :=
  4112 ≤ (driverManager - task).toNat ∧ 1028 ≤ (task - driverManager).toNat

instance (driverManager task : Address) : Decidable (Beside driverManager task) :=
  inferInstanceAs (Decidable (_ ∧ _))

variable {image entrypoint driverManager}

/-- The registrations write no context of a task that has not run. -/
theorem registered_context (task : Address) (memory : Memory)
    (beside : Beside driverManager task) :
    cpuState (registered image driverManager memory) (TaskManager.initialFrame task) =
      cpuState memory (TaskManager.initialFrame task) := by
  obtain ⟨above, below⟩ := beside
  apply cpuState_congr
  intro tested within
  apply FixedRegistries.run_other _ _ _ (FixedRegistries.addDriver_accepts driverManager)
    [image.keyboard, image.mouse] (show 2 ≤ 256 by decide)
  simp only [TaskManager.initialFrame, TaskManager.sizeofCPUState,
    FixedRegistries.driverRegistry] at within ⊢
  bv_omega

variable (driverManager) in
theorem attach_held (started : ContextSwitch.Machine) (table : List Address)
    (gates : ∀ vector, started.manager.interruptDescriptorTable vector =
      gateOf image.link (installed vector))
    (pics : started.manager.pics = readyPics) (held : ContextSwitch.Invariant entrypoint started)
    (listed : started.manager.taskManager.tasks = table) (first : started.currentTask = -1)
    (fresh : started.interruptions = [])
    (frames : ∀ task, (started.manager.taskManager.objects task).cpustate =
      TaskManager.initialFrame task)
    (beside : ∀ task ∈ table, Beside driverManager task) :
    Held executes image entrypoint table 0 (fun _ => [])
      (attach image this driverManager machine world started) := by
  have slots := KernelMain.boot_ready image (InterruptManager.zeroed started.manager.taskManager)
    (fun _ => ⟨0, 0, 0, 0⟩) this driverManager started.memory machine world
  have saved (index : Int) (task : Address)
      (slot : started.manager.taskManager.slot index = some task)
      (suspended : index ≠ started.currentTask) :
      cpuState (registered image driverManager started.memory)
        (started.manager.taskManager.objects task).cpustate =
        ContextSwitch.ownRegisters entrypoint started.interruptions index task := by
    have among := ContextOwnership.slot_member _ index task slot
    rw [listed] at among
    rw [frames, registered_context task _ (beside task among), ← frames]
    exact held.saved index task slot suspended
  refine ⟨⟨gates, pics, slots.keyboard, slots.mouse⟩,
    ⟨slots.timer, held.valid, held.distinct, held.used, saved⟩, listed, first, ?_⟩
  intro index task slot
  have suspended : index ≠ started.currentTask := by
    rintro rfl
    rw [first] at slot
    cases slot
  have own := saved index task slot suspended
  rw [fresh] at own
  rw [contextOf]
  exact (if_neg suspended).trans own

variable (image entrypoint driverManager) in
theorem boot_held (nonempty : tasks ≠ []) (apart : tasks.Pairwise ContextSwitch.Apart)
    (beside : ∀ task ∈ tasks, Beside driverManager task) :
    Held executes image entrypoint (tasks.take 256) 0 (fun _ => [])
      (boot image entrypoint before burst prio tasks memory registers this driverManager machine
        world) := by
  obtain ⟨table, current⟩ := Multitasking.start_tasks entrypoint image.link before burst prio tasks
    memory registers
  exact attach_held executes this driverManager machine world
    (ContextSwitch.start entrypoint image.link before burst prio tasks memory registers)
    (tasks.take 256) (InterruptDispatch.construct_gate image.link before _)
    (InterruptDispatch.construct_pics image.link before _)
    (ContextSwitch.start_invariant entrypoint image.link before burst prio tasks memory registers
      nonempty apart) table current rfl
    (Multitasking.start_frame entrypoint image.link before burst prio tasks memory registers)
    fun task member => beside task (List.mem_of_mem_take member)

/-- Whatever the tasks, at least one, their instructions and what they print, over every
sequence of timer, keyboard and mouse interrupts between stretches that write no saved
context of another task, every interrupt is served and none stays in service. The tasks
take turns in a ring, one turn from each tick to the next, and each has the registers that
it would have on a processor of its own. The screen and the event handler of the keyboard
have seen the prints, the keys and the packets in their order. -/
theorem system_serves (nonempty : tasks ≠ []) (apart : tasks.Pairwise ContextSwitch.Apart)
    (beside : ∀ task ∈ tasks, Beside driverManager task) (stretches : List (Stretch ι))
    (respects : Runs.Meets (step executes image onKeyPress driver) (RespectsOthers executes)
      stretches (boot image entrypoint before burst prio tasks memory registers this driverManager
        machine world)) :
    ∃ final, Runs.run (step executes image onKeyPress driver) stretches
        (boot image entrypoint before burst prio tasks memory registers this driverManager machine
          world) = some final ∧
      (∀ line, ¬ final.context.manager.pics.Serving line) ∧
      final.context.currentTask = runs (tasks.take 256).length (ticks stretches) ∧
      (∀ (index : Nat) task, (tasks.take 256)[index]? = some task →
        contextOf final.context index task =
          alone executes entrypoint task (share (tasks.take 256).length index 0 stretches)) ∧
      (final.devices, final.world) =
        stretches.foldl (serve onKeyPress driver) (Mouse.activate machine, world) := by
  have initial := boot_held executes image entrypoint before burst prio tasks memory registers this
    driverManager machine world nonempty apart beside
  obtain ⟨final, completed, held, shown⟩ :=
    run_serves onKeyPress driver stretches _ 0 _ initial respects
  refine ⟨final, completed, ?_, ?_, ?_, ?_⟩
  · intro line
    rw [held.ready.pics]
    exact Pic8259.Pair.Idle.serving ⟨rfl, rfl⟩ line
  · simpa using held.current
  · intro index task listed
    have slot : final.context.manager.taskManager.slot index = some task := by
      rw [TaskManager.Manager.slot, if_pos (Int.natCast_nonneg index), held.tasks]
      exact listed
    exact held.own index task slot
  · rw [shown]
    simp only [boot, attach, registered, KernelMain.activateAll_boot]

end boot

/-- One task beside the boot context. -/
def single : System (List Byte) :=
  boot KernelMain.placed (fun _ => 0x1000)
    (InterruptManager.zeroed (TaskManager.construct fun _ => ⟨0, 0, 0, 0⟩)) (fun _ => 10)
    (fun _ => 1) [0x10000] (fun _ => 0) (firstRegisters 0x90000 0) 0x8F000 0x8E000
    (Mouse.boot ⟨fun _ => 0x0720, .corner⟩ (fun _ => 0) ⟨0, by decide⟩ 0) []

theorem single_beside : ∀ task ∈ [0x10000], Beside 0x8E000 task := by
  intro task member
  rw [List.mem_singleton.mp member]
  decide

theorem single_held :
    Held Multitasking.walks KernelMain.placed (fun _ => 0x1000) [0x10000] 0 (fun _ => []) single :=
  boot_held Multitasking.walks KernelMain.placed _ _ _ _ [0x10000] _ _ _ _ _ _ (by decide)
    (by decide) single_beside

/-- A table of one task has one slot. -/
theorem slot_single (manager : TaskManager.Manager) (index : Int) (task only : Address)
    (table : manager.tasks = [only]) (slot : manager.slot index = some task) :
    index = 0 ∧ task = only := by
  rw [TaskManager.Manager.slot, table] at slot
  split at slot
  case isTrue proper =>
    obtain ⟨inside, same⟩ := List.getElem?_eq_some_iff.mp slot
    simp only [List.length_singleton] at inside
    refine ⟨by omega, ?_⟩
    simpa using same.symm
  case isFalse => cases slot

/-- The boot context is interrupted by the timer, and the task by a pressed key. -/
def tickAndKey : List (Stretch Word) :=
  [⟨Multitasking.walk [], [], .timer, 0x1C, 0⟩,
    ⟨Multitasking.walk [4], [[0x21, 0x00]], .keyboard, 0x1D, 0x23⟩]

/-- The boot context is on a stack of its own, and after the tick no other task is left. -/
theorem tickAndKey_respects :
    Runs.Meets (step Multitasking.walks KernelMain.placed (fun _ c heard => heard ++ [c])
        (Keyboard.construct.setEventHandler (some 0x80000))) (RespectsOthers Multitasking.walks)
      tickAndKey single := by
  have boots : RespectsOthers Multitasking.walks single
      ⟨Multitasking.walk [], [], .timer, 0x1C, 0⟩ := by
    apply Multitasking.walk_respects
    intro index task slot _ tested within
    obtain ⟨-, rfl⟩ := slot_single _ index task 0x10000 single_held.tasks slot
    have stack : single.context.registers.esp = 0x90000 + 4096 - 8 := rfl
    have frame : (single.context.manager.taskManager.objects 0x10000).cpustate =
        TaskManager.initialFrame 0x10000 := by
      simp only [single, boot, attach]
      exact Multitasking.start_frame _ _ _ _ _ _ _ _ _
    rw [frame, TaskManager.initialFrame, TaskManager.sizeofCPUState] at within
    rw [stack]
    bv_omega
  refine ⟨boots, fun next taken => ⟨?_, fun _ _ => trivial⟩⟩
  obtain ⟨other, same, held, -⟩ := step_serves (fun _ c heard => heard ++ [c])
    (Keyboard.construct.setEventHandler (some 0x80000)) single _ 0 _ single_held boots
  obtain rfl := Option.some.inj (taken.symm.trans same)
  intro index task slot suspended
  obtain ⟨rfl, -⟩ := slot_single _ index task 0x10000 held.tasks slot
  exact absurd held.current.symm suspended

theorem system_serves_key :
    ∃ final, Runs.run (step Multitasking.walks KernelMain.placed (fun _ c heard => heard ++ [c])
        (Keyboard.construct.setEventHandler (some 0x80000))) tickAndKey single = some final ∧
      final.context.currentTask = 0 ∧ (contextOf final.context 0 0x10000).eip = 0x1004 ∧
      final.world = [0x68] := by
  obtain ⟨final, completed, -, current, own, shown⟩ := system_serves Multitasking.walks
    (fun _ c heard => heard ++ [c]) (Keyboard.construct.setEventHandler (some 0x80000)) _ _ _
    [0x10000] _ _ _ _ _ (by decide) (by decide) single_beside tickAndKey tickAndKey_respects
  refine ⟨final, completed, current, ?_, congrArg Prod.snd shown⟩
  rw [show (0 : Int) = ((0 : Nat) : Int) from rfl, own 0 0x10000 rfl]
  rfl

end BlueOs.TaskedKernel
