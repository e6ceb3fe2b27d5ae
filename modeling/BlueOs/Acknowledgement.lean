import BlueOs.InterruptDispatch
import BlueOs.InterruptStubs

/-!
# The service of hardware interrupts

A delivered line is put in service at the controllers, its vector selects a gate,
and the processor enters the routine whose address the gate holds. Three routines
are stubs: they call `handleInterrupt`, which ends the interrupt at the controllers,
and return with `iret`. The default routine is an ordinary function: it returns
with a near return, which leaves two of the three words that delivery pushed on
the stack, and it writes to no controller.

So over runs of deliveries every interrupt is acknowledged and transparent exactly
when every line has a stub of its own.
-/

namespace BlueOs.Acknowledgement

open ByteMemory InterruptStubs
open InterruptManager (Routine)
open InterruptDispatch (installed initialized gateOf)

/-- `IRQ_BASE` -/
def irqBase : Word := 0x20

/-- The number that a stub passes; the default routine passes none. -/
def interruptNumber : Routine → Option Word
  | .ignoreInterruptRequest => none
  | .handleInterruptRequest0x00 => some (0x00 + irqBase)
  | .handleInterruptRequest0x01 => some (0x01 + irqBase)
  | .handleInterruptRequest0x0C => some (0x0C + irqBase)

/-- The routine that the linker placed at an address. -/
def routineAt (link : Routine → Word) (address : Word) : Option Routine :=
  [Routine.ignoreInterruptRequest, .handleInterruptRequest0x00, .handleInterruptRequest0x01,
    .handleInterruptRequest0x0C].find? fun routine => link routine = address

/-- An interrupt on a line, and what it interrupts. -/
structure Delivery where
  line : Fin 16
  slice : Slice

/-- How the service of an interrupt ended: `switched` when another context was
chosen, and the registers with which execution went on. -/
structure Service where
  line : Fin 16
  interrupted : Registers
  switched : Bool
  resumed : Registers

structure State where
  manager : InterruptManager.Manager
  last : Option Service

variable (invoke : Address → Word → Word) (link : Routine → Word)

/-- The manager once the controllers have put a line in service. -/
def State.accept (state : State) (line : Fin 16) : InterruptManager.Manager :=
  { state.manager with pics := (state.manager.pics.deliver line).2 }

/-- The gate that the vector of a line selects. -/
def State.gate (state : State) (line : Fin 16) : InterruptManager.GateDescriptor :=
  state.manager.interruptDescriptorTable (state.manager.pics.deliver line).1

/-- Deliver an interrupt and follow its gate to the end of its service. -/
def step (state : State) (delivery : Delivery) : Option State := do
  let manager := state.accept delivery.line
  let gate := state.gate delivery.line
  let entered := delivery.slice.interrupted.deliver gate
  let routine ← routineAt link gate.handlerAddress
  match interruptNumber routine with
  | none =>
    some { manager := manager
           last := some {
            line := delivery.line
            interrupted := delivery.slice.registers
            switched := false
            resumed := entered.ret.registers } }
  | some number =>
    (handleInterruptRequest invoke true delivery.slice.call number manager entered).map
      fun handled =>
        { manager := handled.2.2
          last := some {
            line := delivery.line
            interrupted := delivery.slice.registers
            switched := handled.1 ≠ entered.save.registers.esp
            resumed := handled.2.1.registers } }

/-- No bit that the last delivery set is still in service, and unless another
context was chosen the interrupted one continues where it was. -/
def Transparent (state : State) : Prop :=
  ∀ service, state.last = some service →
    ¬ state.manager.pics.Serving service.line ∧
      (service.switched = false →
        service.resumed.eip = service.interrupted.eip ∧
          service.resumed.cs = service.interrupted.cs ∧
          service.resumed.eflags = service.interrupted.eflags ∧
          service.resumed.esp = service.interrupted.esp)

/-- The lines whose gates the constructor points at stubs: timer, keyboard, mouse. -/
def HasStub (line : Fin 16) : Prop := line = 0 ∨ line = 1 ∨ line = 12

instance (line : Fin 16) : Decidable (HasStub line) := inferInstanceAs (Decidable (_ ∨ _ ∨ _))

/-- The controllers as the constructor leaves them. -/
def readyPics : Pic8259.Pair where
  master := initialized 0x20
  slave := initialized 0x28

/-- The gates are those of the constructor and no line is in service. -/
structure Invariant (state : State) : Prop where
  gates : ∀ vector, state.manager.interruptDescriptorTable vector = gateOf link (installed vector)
  pics : state.manager.pics = readyPics
  valid : SchedulerSteps.Valid state.manager.taskManager

theorem routineAt_link (injective : Function.Injective link) (routine : Routine) :
    routineAt link (link routine) = some routine := by
  have distinct : ∀ other, (link other = link routine) = (other = routine) := fun other =>
    propext injective.eq_iff
  cases routine <;> simp [routineAt, distinct]

/-- Every line that has a stub reaches it, with its own vector as the number. -/
theorem stub_reached (line : Fin 16) (stub : HasStub line) :
    interruptNumber (installed (readyPics.deliver line).1) =
        some (irqBase + BitVec.ofNat 32 line.val) ∧
      InterruptDispatch.acknowledgedPics (readyPics.deliver line).2
        (irqBase + BitVec.ofNat 32 line.val) = readyPics := by
  rcases stub with rfl | rfl | rfl <;> decide

/-- Every other line reaches the default routine. -/
theorem default_reached : ∀ line : Fin 16, ¬ HasStub line →
    installed (readyPics.deliver line).1 = .ignoreInterruptRequest := by
  decide

/-- The number of a line is a vector. -/
theorem number_vector : ∀ line : Fin 16, irqBase + BitVec.ofNat 32 line.val < 256 := by decide

/-- Under the invariant the gate of a line leads to its routine. -/
theorem gate_reaches (injective : Function.Injective link) (state : State)
    (held : Invariant link state) (line : Fin 16) :
    routineAt link (state.gate line).handlerAddress =
      some (installed (readyPics.deliver line).1) := by
  rw [State.gate, held.pics, held.gates, InterruptDispatch.gateOf_handlerAddress]
  exact routineAt_link link injective _

/-- A near return leaves the code segment and the flags on the stack. -/
theorem ret_esp (slice : Slice) (gate : InterruptManager.GateDescriptor) :
    (slice.interrupted.deliver gate).ret.registers.esp = slice.registers.esp - 8 := by
  simp only [Processor.ret, Processor.deliver, Processor.pushl, Processor.setStack,
    Processor.stack, WordStack.pop, WordStack.push, Slice.interrupted]
  bv_omega

/-- After an interrupt on a line that leads to the default routine. -/
def State.ignored (state : State) (delivery : Delivery) : State where
  manager := state.accept delivery.line
  last := some {
    line := delivery.line
    interrupted := delivery.slice.registers
    switched := false
    resumed := (delivery.slice.interrupted.deliver (state.gate delivery.line)).ret.registers }

theorem step_ignored (injective : Function.Injective link) (state : State) (delivery : Delivery)
    (held : Invariant link state) (stubless : ¬ HasStub delivery.line) :
    step invoke link state delivery = some (state.ignored delivery) := by
  simp only [step, gate_reaches link injective state held delivery.line,
    default_reached delivery.line stubless, interruptNumber, Option.bind_eq_bind,
    Option.bind_some, State.ignored]

/-- The default routine writes no end of interrupt. -/
theorem ignored_not_transparent (state : State) (delivery : Delivery) :
    ¬ Transparent (state.ignored delivery) := by
  intro transparent
  obtain ⟨idle, -⟩ := transparent _ rfl
  exact idle (Pic8259.Pair.deliver_serving state.manager.pics delivery.line)

/-- Every delivery is served. The service is transparent exactly when the line has
a stub, and then the controllers are ready for the next delivery. -/
theorem step_transparent_iff (injective : Function.Injective link) (state : State)
    (delivery : Delivery) (held : Invariant link state) :
    ∃ next, step invoke link state delivery = some next ∧
      (Transparent next ↔ HasStub delivery.line) ∧
      (HasStub delivery.line → Invariant link next) := by
  have reached := gate_reaches link injective state held delivery.line
  by_cases stub : HasStub delivery.line
  · obtain ⟨number, ended⟩ := stub_reached delivery.line stub
    obtain ⟨returned, handled, called, handles, valid⟩ :=
      InterruptDispatch.doHandleInterrupt_handles invoke (state.accept delivery.line)
        (irqBase + BitVec.ofNat 32 delivery.line.val)
        (delivery.slice.saved (state.gate delivery.line)).registers.esp
        (number_vector delivery.line) held.valid
    have pics : handled.pics = readyPics := by
      rw [handles.pics, ← ended]
      simp only [State.accept, held.pics]
    refine ⟨{
        manager := handled
        last := some {
          line := delivery.line
          interrupted := delivery.slice.registers
          switched := returned ≠ (delivery.slice.saved (state.gate delivery.line)).registers.esp
          resumed := cpuState (delivery.slice.leaves (state.gate delivery.line)) returned } },
      ?_, ⟨fun _ => stub, fun _ => ?_⟩, fun _ => ⟨?_, pics, valid⟩⟩
    · simp only [step, reached, number, Option.bind_eq_bind, Option.bind_some,
        handleInterruptRequest_served, InterruptManager.handleInterrupt, if_true, called,
        Option.map_some]
      rfl
    · intro service last
      cases last
      refine ⟨?_, fun same => ?_⟩
      · rw [pics]
        exact Pic8259.Pair.Idle.serving ⟨rfl, rfl⟩ delivery.line
      · -- Without a switch the pointer returned is that of the interrupted context.
        have unchanged : returned =
            (delivery.slice.saved (state.gate delivery.line)).registers.esp := by
          simpa using same
        have resumed : cpuState (delivery.slice.leaves (state.gate delivery.line)) returned =
            delivery.slice.registers := by
          rw [unchanged]
          exact delivery.slice.leaves_interrupted _
        simp only [resumed, and_self]
    · intro vector
      rw [handles.table]
      exact held.gates vector
  · refine ⟨state.ignored delivery, step_ignored invoke link injective state delivery held stub,
      ⟨fun transparent => absurd transparent (ignored_not_transparent state delivery),
        fun has => absurd has stub⟩, fun has => absurd has stub⟩

/-- A constructed and active manager, whatever handlers were registered with it. -/
def start (before : InterruptManager.Manager) (taskManager : TaskManager.Manager)
    (handlers : Byte → Option Address) : State where
  manager := { InterruptManager.construct link before taskManager with
    interruptHandler := handlers }
  last := none

theorem start_invariant (before : InterruptManager.Manager) (taskManager : TaskManager.Manager)
    (handlers : Byte → Option Address) (valid : SchedulerSteps.Valid taskManager) :
    Invariant link (start link before taskManager handlers) := by
  refine ⟨InterruptDispatch.construct_gate link before taskManager,
    InterruptDispatch.construct_pics link before taskManager, ?_⟩
  simp only [start, InterruptDispatch.construct_taskManager]
  exact valid

/-- Over every sequence of deliveries the service of every interrupt is acknowledged
and transparent exactly when every line is that of the timer, the keyboard or the
mouse. -/
theorem transparent_iff_stubs (injective : Function.Injective link)
    (before : InterruptManager.Manager) (taskManager : TaskManager.Manager)
    (handlers : Byte → Option Address) (valid : SchedulerSteps.Valid taskManager)
    (deliveries : List Delivery) :
    Runs.Throughout (step invoke link) Transparent deliveries
        (start link before taskManager handlers) ↔
      ∀ delivery ∈ deliveries, HasStub delivery.line := by
  have held := start_invariant link before taskManager handlers valid
  have served := step_transparent_iff invoke link injective
  refine (Runs.throughout_iff_meets (step invoke link) (fun _ delivery => HasStub delivery.line)
    Transparent (Invariant link) ?_ ?_ deliveries _ held ?_).trans
    (Runs.meets_iff_forall (step invoke link) (fun delivery => HasStub delivery.line)
      (Invariant link) ?_ deliveries _ held)
  · intro state delivery kept refused
    obtain ⟨next, taken, -⟩ := served state delivery kept
    rw [taken] at refused
    cases refused
  · intro state delivery next kept taken
    obtain ⟨other, same, exact⟩ := served state delivery kept
    rw [taken] at same
    cases same
    exact exact
  · intro service last
    cases last
  · intro state delivery kept
    obtain ⟨next, taken, -, following⟩ := served state delivery kept
    exact ⟨next, taken, following⟩

/-- Addresses for the routines, one page each. -/
def pageOf : Routine → Word
  | .ignoreInterruptRequest => 0x1000
  | .handleInterruptRequest0x00 => 0x2000
  | .handleInterruptRequest0x01 => 0x3000
  | .handleInterruptRequest0x0C => 0x4000

theorem pageOf_injective : Function.Injective pageOf := by
  intro left right same
  cases left <;> cases right <;> first | rfl | exact absurd same (by decide)

/-- A constructed manager without tasks and without handlers. -/
def idle : State :=
  start pageOf (InterruptManager.zeroed (TaskManager.construct fun _ => ⟨0, 0, 0, 0⟩))
    (TaskManager.construct fun _ => ⟨0, 0, 0, 0⟩) fun _ => none

/-- An interrupt on a line, with the stack pointer well inside the memory. -/
def delivered (line : Fin 16) : Delivery where
  line := line
  slice := Slice.quiet (firstRegisters 0x90000 0x1234) fun _ => 0

theorem empty_valid : SchedulerSteps.Valid (TaskManager.construct fun _ => ⟨0, 0, 0, 0⟩) := by
  constructor <;> simp [TaskManager.construct, TaskManager.Manager.numTasks]

/-- Timer, mouse and keyboard interrupts are acknowledged and transparent. -/
theorem transparent_iff_stubs_mouse :
    Runs.Throughout (step (fun _ esp => esp) pageOf) Transparent
        [delivered 0, delivered 12, delivered 1] idle ↔
      ∀ delivery ∈ [delivered 0, delivered 12, delivered 1], HasStub delivery.line :=
  transparent_iff_stubs (fun _ esp => esp) pageOf pageOf_injective _ _ _ empty_valid _

/-- An interrupt on line 4 stays in service, and the stack pointer comes back eight
bytes too low. -/
theorem serial_line_stays_in_service :
    ∃ next service, step (fun _ esp => esp) pageOf idle (delivered 4) = some next ∧
      next.last = some service ∧ next.manager.pics.Serving 4 ∧ service.switched = false ∧
      service.resumed.esp = service.interrupted.esp - 8 ∧ ¬ Transparent next :=
  ⟨idle.ignored (delivered 4), _,
    step_ignored _ _ pageOf_injective idle (delivered 4)
      (start_invariant pageOf _ _ _ empty_valid) (by decide),
    rfl, Pic8259.Pair.deliver_serving _ 4, rfl, ret_esp _ _, ignored_not_transparent idle _⟩

end BlueOs.Acknowledgement
