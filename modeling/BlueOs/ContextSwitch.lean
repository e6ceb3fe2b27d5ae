import BlueOs.ContextOwnership
import BlueOs.InterruptDispatch
import BlueOs.InterruptStubs

/-!
# Timer ticks are transparent to the tasks

A machine is the memory, the registers of the context that runs, and the interrupt
manager with its task table. A slice lets the running context change its registers
and the memory in any way and ends with a timer interrupt: delivery through the
gate, the stub, `handleInterrupt`, `schedule` and the return into the next context.

The word that connects the layers is the pointer in a task's object: the stub made
it, or the `Task` constructor did, and in both cases what lies there reads as the
registers the task must resume with. A run keeps this for every slot, provided
that no slice writes the saved context of a task that is not running.
-/

namespace BlueOs.ContextSwitch

open ByteMemory InterruptStubs
open TaskManager (Task)
open SchedulerSteps (Valid Ticks)
open ContextOwnership (lastPassed lastPassed_cons)

structure Machine where
  manager : InterruptManager.Manager
  memory : Memory
  registers : Registers
  interruptions : List (Int × Registers)

def Machine.timerGate (machine : Machine) : InterruptManager.GateDescriptor :=
  machine.manager.interruptDescriptorTable 0x20

def Machine.currentTask (machine : Machine) : Int := machine.manager.taskManager.currentTask

variable (invoke : Address → Word → Word)

/-- One slice and the timer interrupt that ends it. -/
def step (machine : Machine) (slice : Slice) : Option Machine :=
  (handleInterruptRequest invoke true slice.call 0x20 machine.manager
    (slice.interrupted.deliver machine.timerGate)).map fun handled =>
      { manager := handled.2.2
        memory := handled.2.1.memory
        registers := handled.2.1.registers
        interruptions := (machine.currentTask, slice.registers) :: machine.interruptions }

/-- What a slice and its timer interrupt do. -/
structure Switches (machine next : Machine) (slice : Slice) (returned : Address) : Prop where
  ticks : Ticks machine.manager.taskManager next.manager.taskManager
    (slice.saved machine.timerGate).registers.esp returned
  moved : machine.manager.taskManager.numTasks ≠ 0 → next.currentTask =
    (machine.currentTask + 1).tmod machine.manager.taskManager.numTasks
  handlers : next.manager.interruptHandler = machine.manager.interruptHandler
  memory : next.memory = slice.leaves machine.timerGate
  registers : next.registers = cpuState (slice.leaves machine.timerGate) returned
  interruptions : next.interruptions =
    (machine.currentTask, slice.registers) :: machine.interruptions

/-- With no handler on the timer vector the interrupt is served, and the context
resumed is the one at the pointer that `schedule` returns. -/
theorem step_switches (machine : Machine) (slice : Slice)
    (valid : Valid machine.manager.taskManager)
    (vacant : machine.manager.interruptHandler 0x20 = none) :
    ∃ next returned, step invoke machine slice = some next ∧
      Switches machine next slice returned := by
  obtain ⟨returned, scheduled, called, ticks, moved⟩ := SchedulerSteps.schedule_ticks
    machine.manager.taskManager valid (slice.saved machine.timerGate).registers.esp
  obtain ⟨manager, handled, rfl, handlers⟩ := InterruptDispatch.timer_schedules invoke
    machine.manager _ returned scheduled vacant called
  refine ⟨{ manager := manager
            memory := slice.leaves machine.timerGate
            registers := cpuState (slice.leaves machine.timerGate) returned
            interruptions := (machine.currentTask, slice.registers) :: machine.interruptions },
    returned, ?_, ⟨ticks, moved, handlers, rfl, rfl, rfl⟩⟩
  simp only [step, handleInterruptRequest_served, handled, Option.map_some]

/-- From the resumption of one context to that of the next, no byte of the saved
context of another registered task is written. The saved context is the part of a
stack that its task is resumed from, wherever its stack pointer was. -/
def Respects (machine : Machine) (slice : Slice) : Prop :=
  ∀ index task, machine.manager.taskManager.slot index = some task →
    index ≠ machine.currentTask →
    ∀ tested : Address,
      (tested - (machine.manager.taskManager.objects task).cpustate).toNat < 44 →
      slice.leaves machine.timerGate tested = machine.memory tested

/-- Every context stays on the stack of its own task, with room for the frame that
the interrupt pushes, and writes no byte of another task's stack. -/
structure KeepsStacks (machine : Machine) (slice : Slice) : Prop where
  own : ∀ task, machine.manager.taskManager.slot machine.currentTask = some task →
    44 ≤ (slice.registers.esp - task).toNat ∧ (slice.registers.esp - task).toNat ≤ 4096
  others : ∀ index task, machine.manager.taskManager.slot index = some task →
    index ≠ machine.currentTask → ∀ tested : Address, (tested - task).toNat < 4096 →
      slice.leaves machine.timerGate tested = machine.memory tested

/-- The saved context of every task that is not running lies on its own stack. -/
structure Framed (machine : Machine) : Prop where
  vacant : machine.manager.interruptHandler 0x20 = none
  valid : Valid machine.manager.taskManager
  distinct : machine.manager.taskManager.tasks.Nodup
  frames : ∀ index task, machine.manager.taskManager.slot index = some task →
    index ≠ machine.currentTask →
    ((machine.manager.taskManager.objects task).cpustate - task).toNat + 44 ≤ 4096

/-- A slice that keeps the stacks respects the saved contexts, and leaves every
context on its own stack. -/
theorem keepsStacks_respects (machine : Machine) (slice : Slice) (framed : Framed machine)
    (keeps : KeepsStacks machine slice) :
    Respects machine slice ∧ ∀ next, step invoke machine slice = some next → Framed next := by
  constructor
  · intro index task slot suspended tested within
    have frame := framed.frames index task slot suspended
    apply keeps.others index task slot suspended
    bv_omega
  · intro next taken
    obtain ⟨other, returned, stepped, switches⟩ :=
      step_switches invoke machine slice framed.valid framed.vacant
    obtain rfl : next = other := Option.some.inj (taken.symm.trans stepped)
    have ticks := switches.ticks
    refine ⟨?_, ticks.valid, ?_, ?_⟩
    · rw [switches.handlers]
      exact framed.vacant
    · rw [ticks.tasks]
      exact framed.distinct
    · intro index task slot _
      rw [SchedulerSteps.slot_congr _ _ ticks.tasks] at slot
      rw [ticks.contexts task]
      by_cases interrupted : machine.currentTask = index
      · subst interrupted
        obtain ⟨above, below⟩ := keeps.own task slot
        have here : machine.manager.taskManager.slot machine.manager.taskManager.currentTask =
            some task := slot
        have pushed : (slice.saved machine.timerGate).registers.esp = slice.registers.esp - 44 :=
          saved_esp slice.interrupted machine.timerGate
        rw [if_pos here, pushed]
        bv_omega
      · have elsewhere : machine.manager.taskManager.slot machine.manager.taskManager.currentTask ≠
            some task := fun here => interrupted
          (SchedulerSteps.slot_injective _ framed.distinct _ _ task here slot)
        rw [if_neg elsewhere]
        exact framed.frames index task slot fun same => interrupted same.symm

/-- In a run in which no context leaves its stack or writes another one's, no slice
writes a saved context. -/
theorem respects_of_keepsStacks (machine : Machine) (slices : List Slice) (framed : Framed machine)
    (keeps : Runs.Meets (step invoke) KeepsStacks slices machine) :
    Runs.Meets (step invoke) Respects slices machine :=
  Runs.meets_of_meets (step invoke) KeepsStacks Respects Framed
    (fun current slice held kept => keepsStacks_respects invoke current slice held kept)
    slices machine framed keeps

/-- A task that runs for the first time. -/
structure StartsFresh (task : Address) (entrypoint : Word) (registers : Registers) : Prop where
  general : ∀ register, registers.general register = 0
  eip : registers.eip = entrypoint
  cs : registers.cs = 0x08
  eflags : registers.eflags = 0x202
  stack : (registers.esp - task).toNat < 4096

section transparency

variable (entrypoint : Address → Word)

/-- The running context is a registered task with the registers it was last
interrupted with, or with those of a first run. -/
def Resumed (machine : Machine) : Prop :=
  ∃ task, machine.manager.taskManager.slot machine.currentTask = some task ∧
    match lastPassed machine.interruptions machine.currentTask with
    | some interrupted => machine.registers = interrupted
    | none => StartsFresh task (entrypoint task) machine.registers

/-- The registers that a slot must be resumed with. -/
def ownRegisters (interruptions : List (Int × Registers)) (index : Int) (task : Address) :
    Registers :=
  (lastPassed interruptions index).getD (firstRegisters task (entrypoint task))

/-- What every slice keeps: the pointer in the object of a task that is not running
leads to the registers the task must be resumed with. -/
structure Invariant (machine : Machine) : Prop where
  vacant : machine.manager.interruptHandler 0x20 = none
  valid : Valid machine.manager.taskManager
  distinct : machine.manager.taskManager.tasks.Nodup
  used : 0 < machine.manager.taskManager.numTasks
  saved : ∀ index task, machine.manager.taskManager.slot index = some task →
    index ≠ machine.currentTask →
    cpuState machine.memory (machine.manager.taskManager.objects task).cpustate =
      ownRegisters entrypoint machine.interruptions index task

theorem firstRegisters_fresh (task : Address) (start : Word) :
    StartsFresh task start (firstRegisters task start) := by
  refine ⟨fun register => rfl, rfl, rfl, rfl, ?_⟩
  simp only [firstRegisters]
  bv_omega

/-- After such a step every pointer of the table, that of the next task included, leads to
the registers of its task. -/
theorem Switches.own {machine next : Machine} {slice : Slice} {returned : Address}
    (switches : Switches machine next slice returned) (held : Invariant entrypoint machine)
    (respects : Respects machine slice) (index : Int) (task : Address)
    (slot : next.manager.taskManager.slot index = some task) :
    cpuState next.memory (next.manager.taskManager.objects task).cpustate =
      ownRegisters entrypoint next.interruptions index task := by
  have ticks := switches.ticks
  rw [SchedulerSteps.slot_congr _ _ ticks.tasks] at slot
  rw [ticks.contexts task, switches.memory, switches.interruptions, ownRegisters, lastPassed_cons]
  by_cases interrupted : machine.currentTask = index
  · have here : machine.manager.taskManager.slot machine.manager.taskManager.currentTask =
        some task := by
      rw [← slot, ← interrupted]
      rfl
    rw [if_pos here, if_pos interrupted, Option.getD_some]
    exact slice.leaves_interrupted machine.timerGate
  · have other : machine.manager.taskManager.slot machine.manager.taskManager.currentTask ≠
        some task := fun here => interrupted
      (SchedulerSteps.slot_injective _ held.distinct _ _ task here slot)
    have suspended : index ≠ machine.currentTask := fun same => interrupted same.symm
    rw [if_neg other, if_neg interrupted,
      cpuState_congr _ machine.memory _ (respects index task slot suspended)]
    exact held.saved index task slot suspended

/-- A slice that respects the saved contexts ends with a task resumed in its own
registers, and keeps the invariant. -/
theorem step_resumed (machine : Machine) (slice : Slice) (held : Invariant entrypoint machine)
    (respects : Respects machine slice) :
    ∃ next, step invoke machine slice = some next ∧ Invariant entrypoint next ∧
      Resumed entrypoint next := by
  obtain ⟨next, returned, stepped, switches⟩ :=
    step_switches invoke machine slice held.valid held.vacant
  have ticks := switches.ticks
  have used : 0 < machine.manager.taskManager.numTasks := held.used
  have running : 0 ≤ next.currentTask := by
    rw [switches.moved (by omega)]
    have lower : -1 ≤ machine.currentTask := held.valid.lower
    exact Int.tmod_nonneg _ (by omega)
  have own := switches.own entrypoint held respects
  obtain ⟨task, slot, pointer⟩ := ticks.resumed running
  refine ⟨next, stepped, ⟨?_, ticks.valid, ?_, ?_, fun index other inUse _ =>
    own index other inUse⟩, ⟨task, slot, ?_⟩⟩
  · rw [switches.handlers]
    exact held.vacant
  · rw [ticks.tasks]
    exact held.distinct
  · simpa only [TaskManager.Manager.numTasks, ticks.tasks] using used
  · have resumed : next.registers = ownRegisters entrypoint next.interruptions
        next.currentTask task := by
      rw [switches.registers, pointer, ← switches.memory]
      exact own _ task slot
    simp only [ownRegisters] at resumed
    split
    case h_1 interrupted known => rw [resumed, known, Option.getD_some]
    case h_2 first =>
      rw [resumed, first, Option.getD_none]
      exact firstRegisters_fresh task (entrypoint task)

/-- Task objects, of 4112 bytes each, that do not overlap. -/
def Apart (left right : Address) : Prop :=
  4112 ≤ (left - right).toNat ∧ 4112 ≤ (right - left).toNat

instance (left right : Address) : Decidable (Apart left right) :=
  inferInstanceAs (Decidable (_ ∧ _))

theorem Apart.ne {left right : Address} (apart : Apart left right) : left ≠ right := by
  rintro rfl
  have distance := apart.1
  simp at distance

/-- Construct the tasks one after the other. -/
def constructTasks (tasks : List Address) (memory : Memory) : Memory :=
  tasks.foldl (fun memory task => Task.constructStack task (entrypoint task) memory) memory

/-- The construction of a task leaves the frames of the tasks apart from it. -/
theorem construct_apart (task other : Address) (memory : Memory) (apart : Apart task other) :
    cpuState (Task.constructStack other (entrypoint other) memory) (TaskManager.initialFrame task) =
      cpuState memory (TaskManager.initialFrame task) := by
  apply cpuState_congr
  intro tested within
  apply constructed_other
  obtain ⟨ahead, behind⟩ := apart
  simp only [TaskManager.initialFrame] at within ⊢
  bv_omega

theorem constructTasks_apart (task : Address) (tasks : List Address) (memory : Memory)
    (apart : ∀ other ∈ tasks, Apart task other) :
    cpuState (constructTasks entrypoint tasks memory) (TaskManager.initialFrame task) =
      cpuState memory (TaskManager.initialFrame task) := by
  induction tasks generalizing memory with
  | nil => rfl
  | cons other rest inductionHypothesis =>
    have later : ∀ next ∈ rest, Apart task next := fun next member =>
      apart next (List.mem_cons_of_mem other member)
    rw [constructTasks, List.foldl_cons]
    exact (inductionHypothesis _ later).trans
      (construct_apart entrypoint task other memory (apart other List.mem_cons_self))

/-- After all constructions every task's frame is that of a first run. -/
theorem constructTasks_context (tasks : List Address) (memory : Memory)
    (apart : tasks.Pairwise Apart) (task : Address) (member : task ∈ tasks) :
    cpuState (constructTasks entrypoint tasks memory) (TaskManager.initialFrame task) =
      firstRegisters task (entrypoint task) := by
  induction tasks generalizing memory with
  | nil => cases member
  | cons head rest inductionHypothesis =>
    obtain ⟨here, later⟩ := List.pairwise_cons.mp apart
    rw [constructTasks, List.foldl_cons]
    rcases List.mem_cons.mp member with rfl | inside
    · exact (constructTasks_apart entrypoint task rest _ here).trans
        (constructed_context task (entrypoint task) memory)
    · exact inductionHypothesis _ later inside

/-- Register the tasks one after the other. -/
def addTasks (manager : TaskManager.Manager) (tasks : List Address) : TaskManager.Manager :=
  tasks.foldl (fun manager task => (manager.addTask task).2) manager

/-- The table takes as many of the tasks as it has room for. -/
theorem addTasks_table (manager : TaskManager.Manager) (tasks : List Address)
    (room : manager.numTasks ≤ 256) :
    addTasks manager tasks =
      { manager with tasks := manager.tasks ++ tasks.take (256 - manager.tasks.length) } := by
  induction tasks generalizing manager with
  | nil => simp [addTasks]
  | cons task rest inductionHypothesis =>
    simp only [TaskManager.Manager.numTasks] at room
    rw [addTasks, List.foldl_cons]
    change addTasks _ rest = _
    by_cases free : manager.numTasks < 256
    · simp only [TaskManager.Manager.numTasks] at free
      have accepted : (manager.addTask task).2 =
          { manager with tasks := manager.tasks ++ [task] } := by
        simp [TaskManager.Manager.addTask, TaskManager.Manager.numTasks, free]
      have left : 256 - manager.tasks.length = 256 - (manager.tasks.length + 1) + 1 := by omega
      rw [accepted, inductionHypothesis _ (by simp [TaskManager.Manager.numTasks]; omega)]
      simp only [List.length_append, List.length_singleton, List.append_assoc,
        List.singleton_append, left, List.take_succ_cons]
    · have refused : (manager.addTask task).2 = manager := by
        simp [TaskManager.Manager.addTask, free]
      simp only [TaskManager.Manager.numTasks] at free
      have full : 256 - manager.tasks.length = 0 := by omega
      rw [refused, inductionHypothesis manager (by simpa [TaskManager.Manager.numTasks] using room)]
      simp only [full, List.take_zero]

/-- Boot: the tasks are constructed and registered and the interrupt manager is
constructed, while the boot context runs. -/
def start (link : InterruptManager.Routine → Word) (before : InterruptManager.Manager)
    (burst prio : Address → Word) (tasks : List Address) (memory : Memory)
    (registers : Registers) : Machine where
  manager := InterruptManager.construct link before
    (addTasks (TaskManager.construct fun task => Task.construct task (burst task) (prio task)) tasks)
  memory := constructTasks entrypoint tasks memory
  registers := registers
  interruptions := []

theorem start_invariant (link : InterruptManager.Routine → Word)
    (before : InterruptManager.Manager) (burst prio : Address → Word) (tasks : List Address)
    (memory : Memory) (registers : Registers) (nonempty : tasks ≠ []) (apart : tasks.Pairwise Apart) :
    Invariant entrypoint (start entrypoint link before burst prio tasks memory registers) := by
  have table := addTasks_table
    (TaskManager.construct fun task => Task.construct task (burst task) (prio task)) tasks
    (by simp [TaskManager.construct, TaskManager.Manager.numTasks])
  have positive : 0 < tasks.length := List.length_pos_iff.mpr nonempty
  simp only [TaskManager.construct, List.nil_append, List.length_nil, Nat.sub_zero] at table
  constructor
  · exact InterruptDispatch.construct_interruptHandler link before _ 0x20
  · simp only [start, InterruptDispatch.construct_taskManager, TaskManager.construct, table]
    refine ⟨Int.le_refl (-1), ?_, ?_⟩ <;>
      simp only [TaskManager.Manager.numTasks, List.length_take] <;> omega
  · simp only [start, InterruptDispatch.construct_taskManager, TaskManager.construct, table]
    exact ((apart.imp Apart.ne).sublist (List.take_sublist 256 tasks))
  · simp only [start, InterruptDispatch.construct_taskManager, TaskManager.construct, table,
      TaskManager.Manager.numTasks, List.length_take]
    omega
  · intro index task slot _
    simp only [start, InterruptDispatch.construct_taskManager, TaskManager.construct, table]
      at slot ⊢
    have member : task ∈ tasks :=
      List.mem_of_mem_take (ContextOwnership.slot_member _ index task slot)
    exact constructTasks_context entrypoint tasks memory apart task member

/-- In every run over any tasks, at least one, whose slices write no saved context
of another task, every timer interrupt is served, and each time a task is resumed
its registers are those it was last interrupted with; a task that runs for the
first time starts at its entry point with the registers of its constructor and on
its own stack. -/
theorem switch_transparent (link : InterruptManager.Routine → Word)
    (before : InterruptManager.Manager) (burst prio : Address → Word) (tasks : List Address)
    (memory : Memory) (registers : Registers) (nonempty : tasks ≠ []) (apart : tasks.Pairwise Apart)
    (slices : List Slice)
    (respects : Runs.Meets (step invoke) Respects slices
      (start entrypoint link before burst prio tasks memory registers)) :
    ∃ final, Runs.run (step invoke) slices
        (start entrypoint link before burst prio tasks memory registers) = some final ∧
      (slices ≠ [] → Resumed entrypoint final) := by
  obtain ⟨final, completed, -, resumed⟩ := Runs.run_invariant (step invoke) Respects
    (fun rest machine => Invariant entrypoint machine ∧
      (rest.length < slices.length → Resumed entrypoint machine)) (by
      rintro slice rest machine ⟨held, -⟩ respected
      obtain ⟨next, stepped, kept, resumed⟩ :=
        step_resumed invoke entrypoint machine slice held respected
      exact ⟨next, stepped, kept, fun _ => resumed⟩)
    slices (start entrypoint link before burst prio tasks memory registers)
    ⟨start_invariant entrypoint link before burst prio tasks memory registers nonempty apart,
      fun shorter => absurd shorter (Nat.lt_irrefl _)⟩ respects
  exact ⟨final, completed, fun ticked => resumed (List.length_pos_iff.mpr ticked)⟩

end transparency

/-- A memory with two constructed tasks and zeros elsewhere. -/
def twoTasks : Memory := constructTasks (fun _ => 0x1000) [0x10000, 0x20000] fun _ => 0

/-- The two tasks registered, and the boot context on a stack of its own. -/
def booted : Machine :=
  start (fun _ => 0x1000) (fun _ => 0x2000)
    (InterruptManager.zeroed (TaskManager.construct fun _ => ⟨0, 0, 0, 0⟩)) (fun _ => 10)
    (fun _ => 1) [0x10000, 0x20000] (fun _ => 0) (firstRegisters 0x90000 0)

theorem booted_tasks : booted.manager.taskManager.tasks = [0x10000, 0x20000] := by
  simp only [booted, start, InterruptDispatch.construct_taskManager]
  rfl

theorem booted_current : booted.currentTask = -1 := by
  simp only [booted, Machine.currentTask, start, InterruptDispatch.construct_taskManager]
  rfl

/-- No task has run yet. -/
theorem booted_frame (task : Address) :
    (booted.manager.taskManager.objects task).cpustate = TaskManager.initialFrame task := by
  simp only [booted, start, InterruptDispatch.construct_taskManager]
  rfl

theorem booted_framed : Framed booted := by
  have held : Invariant (fun _ => 0x1000) booted :=
    start_invariant _ _ _ _ _ _ _ _ (by decide) (by decide)
  refine ⟨held.vacant, held.valid, held.distinct, fun index task _ _ => ?_⟩
  rw [booted_frame, TaskManager.initialFrame, TaskManager.sizeofCPUState]
  bv_omega

/-- A quiet slice writes on the stack that its stack pointer is on. -/
theorem quiet_elsewhere (stack task entrypoint tested : Address) (memory : Memory)
    (gate : InterruptManager.GateDescriptor) (apart : Apart stack task)
    (inside : (tested - task).toNat < 4096) :
    (Slice.quiet (firstRegisters stack entrypoint) memory).leaves gate tested = memory tested := by
  obtain ⟨ahead, behind⟩ := apart
  apply Slice.quiet_leaves
  simp only [firstRegisters]
  bv_omega

theorem booted_slot (machine : Machine) (index : Int) (task : Address)
    (table : machine.manager.taskManager.tasks = [0x10000, 0x20000])
    (slot : machine.manager.taskManager.slot index = some task) :
    index = 0 ∧ task = 0x10000 ∨ index = 1 ∧ task = 0x20000 := by
  have first : machine.manager.taskManager.slot 0 = some 0x10000 := by
    simp [TaskManager.Manager.slot, table]
  have second : machine.manager.taskManager.slot 1 = some 0x20000 := by
    simp [TaskManager.Manager.slot, table]
  have inside := ContextOwnership.slot_member _ index task slot
  have distinct : machine.manager.taskManager.tasks.Nodup := by
    rw [table]
    decide
  rw [table, List.mem_pair] at inside
  rcases inside with rfl | rfl
  · exact Or.inl ⟨SchedulerSteps.slot_injective _ distinct index 0 _ slot first, rfl⟩
  · exact Or.inr ⟨SchedulerSteps.slot_injective _ distinct index 1 _ slot second, rfl⟩

/-- The two tasks are registered, their contexts on their stacks, and one of them, or
the boot context, runs. -/
structure Paired (machine : Machine) (current : Int) : Prop where
  framed : Framed machine
  tasks : machine.manager.taskManager.tasks = [0x10000, 0x20000]
  current : machine.currentTask = current

theorem Paired.next {invoke : Address → Word → Word} {machine next : Machine} {current : Int}
    {slice : Slice} (paired : Paired machine current) (keeps : KeepsStacks machine slice)
    (taken : step invoke machine slice = some next) :
    Paired next ((current + 1).tmod 2) ∧ next.memory = slice.leaves machine.timerGate ∧
      next.interruptions = (current, slice.registers) :: machine.interruptions := by
  obtain ⟨switched, returned, stepped, switches⟩ :=
    step_switches invoke machine slice paired.framed.valid paired.framed.vacant
  obtain rfl : next = switched := Option.some.inj (taken.symm.trans stepped)
  have count : machine.manager.taskManager.numTasks = 2 := by
    simp [TaskManager.Manager.numTasks, paired.tasks]
  refine ⟨⟨?_, switches.ticks.tasks.trans paired.tasks, ?_⟩, switches.memory, ?_⟩
  · exact (keepsStacks_respects invoke machine slice paired.framed keeps).2 next taken
  · rw [switches.moved (by omega), count, paired.current]
  · rw [switches.interruptions, paired.current]

/-- A context on its own stack that left the stacks of the others alone. -/
theorem Paired.keeps {machine : Machine} {current : Int} (paired : Paired machine current)
    (stack entrypoint : Address) (memory : Memory)
    (own : current = 0 ∧ stack = 0x10000 ∨ current = 1 ∧ stack = 0x20000 ∨ current = -1)
    (others : ∀ index task, index = 0 ∧ task = 0x10000 ∨ index = 1 ∧ task = 0x20000 →
      index ≠ current → Apart stack task ∧
        ∀ tested : Address, (tested - task).toNat < 4096 → memory tested = machine.memory tested) :
    KeepsStacks machine (Slice.quiet (firstRegisters stack entrypoint) memory) := by
  constructor
  · intro task slot
    rw [paired.current] at slot
    have here : task = stack := by
      have place := booted_slot machine current task paired.tasks slot
      rcases own with ⟨rfl, rfl⟩ | ⟨rfl, rfl⟩ | rfl
      · simpa using place
      · simpa using place
      · simp at place
    subst here
    simp only [Slice.quiet, firstRegisters]
    bv_omega
  · intro index task slot suspended tested inside
    obtain ⟨apart, same⟩ := others index task (booted_slot machine index task paired.tasks slot)
      (paired.current ▸ suspended)
    rw [quiet_elsewhere stack task entrypoint tested memory _ apart inside, same tested inside]

/-- The boot context is interrupted. -/
def bootSlice : Slice := Slice.quiet (firstRegisters 0x90000 0) twoTasks

/-- The first of two tasks is interrupted away from its entry point. -/
def firstSlice : Slice := Slice.quiet (firstRegisters 0x10000 0x1234) twoTasks

/-- The second task is interrupted, and has left the stack of the first one alone. -/
def secondSlice : Slice :=
  Slice.quiet (firstRegisters 0x20000 0x5678) (firstSlice.leaves booted.timerGate)

/-- The first task is resumed again, in the registers it was interrupted with. -/
theorem switch_transparent_two_tasks :
    ∃ final, Runs.run (step fun _ esp => esp) [bootSlice, firstSlice, secondSlice] booted =
        some final ∧
      Resumed (fun _ => 0x1000) final ∧ final.registers = firstRegisters 0x10000 0x1234 := by
  have paired : Paired booted (-1) := ⟨booted_framed, booted_tasks, booted_current⟩
  have boot : KeepsStacks booted bootSlice := by
    apply paired.keeps 0x90000 0 twoTasks (by decide)
    rintro index task (⟨-, rfl⟩ | ⟨-, rfl⟩) -
    · exact ⟨by decide, fun _ _ => rfl⟩
    · exact ⟨by decide, fun _ _ => rfl⟩
  have first (machine : Machine) (taken : step (fun _ esp => esp) booted bootSlice = some machine) :
      Paired machine 0 ∧ machine.interruptions = [(-1, firstRegisters 0x90000 0)] ∧
        KeepsStacks machine firstSlice := by
    obtain ⟨again, memory, log⟩ := paired.next boot taken
    refine ⟨again, log, again.keeps 0x10000 0x1234 twoTasks (by decide) ?_⟩
    rintro index task (⟨rfl, -⟩ | ⟨-, rfl⟩) suspended
    · exact absurd rfl suspended
    · refine ⟨by decide, fun tested inside => ?_⟩
      rw [memory]
      exact (quiet_elsewhere 0x90000 0x20000 0 tested twoTasks _ (by decide) inside).symm
  have second (machine next : Machine)
      (taken : step (fun _ esp => esp) booted bootSlice = some machine)
      (takenToo : step (fun _ esp => esp) machine firstSlice = some next) :
      Paired next 1 ∧ next.interruptions =
        [(0, firstRegisters 0x10000 0x1234), (-1, firstRegisters 0x90000 0)] ∧
        KeepsStacks next secondSlice := by
    obtain ⟨held, logged, keeps⟩ := first machine taken
    obtain ⟨again, memory, log⟩ := held.next keeps takenToo
    refine ⟨again, log.trans (by rw [logged]; rfl), again.keeps 0x20000 0x5678 _ (by decide) ?_⟩
    rintro index task (⟨-, rfl⟩ | ⟨rfl, -⟩) suspended
    · refine ⟨by decide, fun tested _ => ?_⟩
      rw [memory]
      exact congrFun (Slice.quiet_leaves_gate _ twoTasks _ _) tested
    · exact absurd rfl suspended
  have keeps : Runs.Meets (step fun _ esp => esp) KeepsStacks [bootSlice, firstSlice, secondSlice]
      booted :=
    ⟨boot, fun machine taken => ⟨(first machine taken).2.2, fun next takenToo =>
      ⟨(second machine next taken takenToo).2.2, fun _ _ => trivial⟩⟩⟩
  obtain ⟨final, completed, resumed⟩ := switch_transparent (fun _ esp => esp) (fun _ => 0x1000)
    (fun _ => 0x2000) (InterruptManager.zeroed (TaskManager.construct fun _ => ⟨0, 0, 0, 0⟩))
    (fun _ => 10) (fun _ => 1) [0x10000, 0x20000] (fun _ => 0) (firstRegisters 0x90000 0)
    (by decide) (by decide) [bootSlice, firstSlice, secondSlice]
    (respects_of_keepsStacks _ booted _ booted_framed keeps)
  have fresh : Resumed (fun _ => 0x1000) final := resumed (by simp)
  refine ⟨final, completed, fresh, ?_⟩
  rw [Runs.run_cons, Option.bind_eq_some_iff] at completed
  obtain ⟨machine, taken, rest⟩ := completed
  rw [Runs.run_cons, Option.bind_eq_some_iff] at rest
  obtain ⟨next, takenToo, last⟩ := rest
  rw [Runs.run_cons, Option.bind_eq_some_iff] at last
  obtain ⟨reached, ended, stays⟩ := last
  obtain rfl : reached = final := Option.some.inj stays
  obtain ⟨held, log, kept⟩ := second machine next taken takenToo
  obtain ⟨again, -, logged⟩ := held.next kept ended
  obtain ⟨task, -, passed⟩ := fresh
  have known : lastPassed reached.interruptions reached.currentTask =
      some (firstRegisters 0x10000 0x1234) := by
    rw [logged, log, again.current]
    rfl
  rwa [known] at passed

end BlueOs.ContextSwitch
