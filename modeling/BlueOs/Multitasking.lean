import BlueOs.ContextSwitch

/-!
# Tasks as processors of their own

A task executes a stream of inputs: what its instructions read from the memory and the
devices. Timer interrupts cut the streams of all tasks into turns, and the scheduler takes
the turns round the table.

A task cannot tell. At every moment its registers, in the processor or in its saved
context, are those of a processor of its own that has executed the inputs of the task's
turns one after the other, from the task's entry point.
-/

namespace BlueOs.Multitasking

open ByteMemory InterruptStubs
open ContextSwitch (Machine Apart Respects Switches ownRegisters constructTasks)
open ContextOwnership (lastPassed_cons)

/-- The slot whose turn it is: the boot context, and then the tasks in a ring. -/
def runs (count position : Nat) : Int :=
  if position = 0 then -1 else ((position - 1) % count : Nat)

/-- What a context does between two timer interrupts, and the call of the handler that the
second one makes. -/
structure Turn (ι : Type) where
  inputs : List ι
  stores : Memory → Memory
  call : Call

section execution

variable {ι : Type} (executes : Option Address → Registers → ι → Registers)

/-- The slice of the current context, which executes the inputs from its registers. -/
def Turn.slice (turn : Turn ι) (machine : Machine) : Slice where
  registers := turn.inputs.foldl
    (executes (machine.manager.taskManager.slot machine.currentTask)) machine.registers
  memory := turn.stores machine.memory
  call := turn.call

def step (invoke : Address → Word → Word) (machine : Machine) (turn : Turn ι) : Option Machine :=
  ContextSwitch.step invoke machine (turn.slice executes machine)

/-- The turn writes no byte of the saved context of another task. -/
def RespectsOthers (machine : Machine) (turn : Turn ι) : Prop :=
  Respects machine (turn.slice executes machine)

/-- The inputs of the turns of one slot, in order. -/
def share (count : Nat) (index : Int) (turns : List (Turn ι)) : List ι :=
  (turns.zipIdx.filter fun turn => runs count turn.2 = index).flatMap fun turn => turn.1.inputs

/-- The registers of a task, in the processor or in its saved context. -/
def contextOf (machine : Machine) (index : Int) (task : Address) : Registers :=
  if index = machine.currentTask then machine.registers
  else cpuState machine.memory (machine.manager.taskManager.objects task).cpustate

/-- The registers of a processor that runs one task alone. -/
def alone (entrypoint : Address → Word) (task : Address) (inputs : List ι) : Registers :=
  inputs.foldl (executes (some task)) (firstRegisters task (entrypoint task))

end execution

theorem runs_next (count position : Nat) :
    (runs count position + 1).tmod count = runs count (position + 1) := by
  cases position with
  | zero =>
    rw [runs, runs, if_pos rfl, if_neg (Nat.succ_ne_zero 0), Nat.zero_add, Nat.sub_self,
      Nat.zero_mod]
    rfl
  | succ earlier =>
    rw [runs, runs, if_neg (Nat.succ_ne_zero _), if_neg (Nat.succ_ne_zero _),
      Nat.add_sub_cancel, Nat.add_sub_cancel]
    have step : ((earlier % count : Nat) : Int) + 1 = ((earlier % count + 1 : Nat) : Int) := rfl
    rw [step, ← Int.ofNat_tmod, Nat.mod_add_mod]

theorem runs_running (count position : Nat) : 0 ≤ runs count (position + 1) := by
  rw [runs, if_neg (Nat.succ_ne_zero position)]
  exact Int.natCast_nonneg _

theorem share_snoc {ι : Type} (count : Nat) (index : Int) (turns : List (Turn ι)) (turn : Turn ι) :
    share count index (turns ++ [turn]) =
      share count index turns ++ if runs count turns.length = index then turn.inputs else [] := by
  rw [share, share, List.zipIdx_append, List.filter_append, List.flatMap_append]
  congr 1
  by_cases mine : runs count turns.length = index
  · simp [mine]
  · simp [mine]

section isolation

variable {ι : Type} (executes : Option Address → Registers → ι → Registers)
  (entrypoint : Address → Word) (table : List Address)

/-- What every turn keeps: each task has the registers that it would have alone. -/
structure Isolated (done : List (Turn ι)) (machine : Machine) : Prop where
  held : ContextSwitch.Invariant entrypoint machine
  tasks : machine.manager.taskManager.tasks = table
  current : machine.currentTask = runs table.length done.length
  own : ∀ index task, machine.manager.taskManager.slot index = some task →
    contextOf machine index task =
      alone executes entrypoint task (share table.length index done)

variable {executes entrypoint table}

theorem Isolated.numTasks {done : List (Turn ι)} {machine : Machine}
    (isolated : Isolated executes entrypoint table done machine) :
    machine.manager.taskManager.numTasks = table.length := by
  rw [TaskManager.Manager.numTasks, isolated.tasks]

/-- A task that is resumed next has its saved context in the processor. -/
theorem contextOf_saved {machine next : Machine} {slice : Slice} {returned : Address}
    (switches : Switches machine next slice returned) (index : Int) (task : Address)
    (slot : next.manager.taskManager.slot index = some task) (running : 0 ≤ next.currentTask) :
    contextOf next index task =
      cpuState next.memory (next.manager.taskManager.objects task).cpustate := by
  rw [contextOf]
  split
  case isTrue current =>
    obtain ⟨resumed, slotResumed, pointer⟩ := switches.ticks.resumed running
    have here : next.manager.taskManager.slot next.manager.taskManager.currentTask =
        some task := by
      rw [← slot, current]
      rfl
    rw [here] at slotResumed
    cases slotResumed
    rw [switches.registers, switches.memory, pointer]
  case isFalse => rfl

/-- A tick leaves the interrupted context as it was, and every other one too. -/
theorem contextOf_switched {machine next : Machine} {slice : Slice} {returned : Address}
    (switches : Switches machine next slice returned)
    (held : ContextSwitch.Invariant entrypoint machine) (respects : Respects machine slice)
    (index : Int) (task : Address) (slot : next.manager.taskManager.slot index = some task)
    (running : 0 ≤ next.currentTask) :
    contextOf next index task =
      if index = machine.currentTask then slice.registers else contextOf machine index task := by
  have before := slot
  rw [SchedulerSteps.slot_congr _ _ switches.ticks.tasks] at before
  rw [contextOf_saved switches index task slot running,
    switches.own entrypoint held respects index task slot, switches.interruptions, ownRegisters,
    lastPassed_cons]
  by_cases mine : machine.currentTask = index
  · rw [if_pos mine, if_pos mine.symm, Option.getD_some]
  · rw [if_neg mine, if_neg (Ne.symm mine), contextOf, if_neg (Ne.symm mine),
      held.saved index task before (Ne.symm mine), ownRegisters]

/-- A turn adds its inputs to those of the context that took it. -/
theorem contextOf_executed (machine : Machine) (turn : Turn ι) (index : Int) (task : Address)
    (inputs : List ι) (slot : machine.manager.taskManager.slot index = some task)
    (own : contextOf machine index task = alone executes entrypoint task inputs) :
    (if index = machine.currentTask then (turn.slice executes machine).registers
      else contextOf machine index task) =
      alone executes entrypoint task
        (inputs ++ if machine.currentTask = index then turn.inputs else []) := by
  by_cases mine : machine.currentTask = index
  · rw [contextOf, if_pos mine.symm] at own
    rw [if_pos mine.symm, if_pos mine, alone, List.foldl_append, Turn.slice, mine, slot, own]
    rfl
  · rw [if_neg (Ne.symm mine), if_neg mine, List.append_nil]
    exact own

theorem step_isolated (invoke : Address → Word → Word) (done : List (Turn ι)) (turn : Turn ι)
    (machine : Machine) (isolated : Isolated executes entrypoint table done machine)
    (respects : RespectsOthers executes machine turn) :
    ∃ next, step executes invoke machine turn = some next ∧
      Isolated executes entrypoint table (done ++ [turn]) next := by
  have held := isolated.held
  obtain ⟨next, returned, stepped, switches⟩ :=
    ContextSwitch.step_switches invoke machine (turn.slice executes machine) held.valid held.vacant
  obtain ⟨other, steppedToo, again, -⟩ :=
    ContextSwitch.step_resumed invoke entrypoint machine _ held respects
  obtain rfl : next = other := Option.some.inj (stepped.symm.trans steppedToo)
  have moved := switches.moved (Int.ne_of_gt held.used)
  rw [isolated.numTasks] at moved
  rw [isolated.current, runs_next] at moved
  have running : 0 ≤ next.currentTask := by
    rw [moved]
    exact runs_running _ _
  refine ⟨next, stepped, again, switches.ticks.tasks.trans isolated.tasks, ?_, ?_⟩
  · rw [moved, List.length_append, List.length_singleton]
  · intro index task slot
    have before := slot
    rw [SchedulerSteps.slot_congr _ _ switches.ticks.tasks] at before
    rw [contextOf_switched switches held respects index task slot running,
      contextOf_executed machine turn index task _ before (isolated.own index task before),
      share_snoc, isolated.current]

theorem run_isolated (invoke : Address → Word → Word) (later : List (Turn ι)) :
    ∀ (done : List (Turn ι)) (machine : Machine),
      Isolated executes entrypoint table done machine →
      Runs.Meets (step executes invoke) (RespectsOthers executes) later machine →
      ∃ final, Runs.run (step executes invoke) later machine = some final ∧
        Isolated executes entrypoint table (done ++ later) final := by
  induction later with
  | nil =>
    intro done machine isolated _
    exact ⟨machine, rfl, by rwa [List.append_nil]⟩
  | cons turn rest inductionHypothesis =>
    intro done machine isolated meets
    obtain ⟨next, taken, again⟩ := step_isolated invoke done turn machine isolated meets.1
    obtain ⟨final, completed, reached⟩ :=
      inductionHypothesis (done ++ [turn]) next again (meets.2 next taken)
    refine ⟨final, ?_, ?_⟩
    · rw [Runs.run_cons, taken, Option.bind_some, completed]
    · rwa [List.append_assoc, List.singleton_append] at reached

end isolation

section boot

variable {ι : Type} (executes : Option Address → Registers → ι → Registers)
  (entrypoint : Address → Word) (link : InterruptManager.Routine → Word)
  (before : InterruptManager.Manager) (burst prio : Address → Word) (tasks : List Address)
  (memory : Memory) (registers : Registers)

theorem start_tasks :
    (ContextSwitch.start entrypoint link before burst prio tasks memory
      registers).manager.taskManager.tasks = tasks.take 256 ∧
      (ContextSwitch.start entrypoint link before burst prio tasks memory
        registers).currentTask = -1 := by
  have table := ContextSwitch.addTasks_table
    (TaskManager.construct fun task => TaskManager.Task.construct task (burst task) (prio task))
    tasks (by simp [TaskManager.construct, TaskManager.Manager.numTasks])
  simp only [ContextSwitch.Machine.currentTask, ContextSwitch.start,
    InterruptDispatch.construct_taskManager, table]
  exact ⟨rfl, rfl⟩

theorem start_frame (task : Address) :
    ((ContextSwitch.start entrypoint link before burst prio tasks memory
      registers).manager.taskManager.objects task).cpustate = TaskManager.initialFrame task := by
  have table := ContextSwitch.addTasks_table
    (TaskManager.construct fun task => TaskManager.Task.construct task (burst task) (prio task))
    tasks (by simp [TaskManager.construct, TaskManager.Manager.numTasks])
  simp only [ContextSwitch.start, InterruptDispatch.construct_taskManager, table]
  rfl

theorem start_isolated (nonempty : tasks ≠ []) (apart : tasks.Pairwise Apart) :
    Isolated executes entrypoint (tasks.take 256) []
      (ContextSwitch.start entrypoint link before burst prio tasks memory registers) := by
  have held := ContextSwitch.start_invariant entrypoint link before burst prio tasks memory
    registers nonempty apart
  obtain ⟨table, current⟩ := start_tasks entrypoint link before burst prio tasks memory registers
  refine ⟨held, table, current, ?_⟩
  intro index task slot
  have suspended : index ≠ -1 := by
    rintro rfl
    rw [SchedulerSteps.slot_none] at slot
    cases slot
  rw [contextOf, current, if_neg suspended, held.saved index task slot (current ▸ suspended)]
  rfl

/-- For any tasks, at least one, and any sequence of turns that write no saved context of
another task, the turns are taken by the tasks in a ring, and every task always has
the registers that it would have on a processor of its own. -/
theorem tasks_isolated (invoke : Address → Word → Word) (nonempty : tasks ≠ [])
    (apart : tasks.Pairwise Apart) (turns : List (Turn ι))
    (respects : Runs.Meets (step executes invoke) (RespectsOthers executes) turns
      (ContextSwitch.start entrypoint link before burst prio tasks memory registers)) :
    ∃ final, Runs.run (step executes invoke) turns
        (ContextSwitch.start entrypoint link before burst prio tasks memory registers) =
          some final ∧
      final.currentTask = runs (tasks.take 256).length turns.length ∧
      ∀ (index : Nat) task, (tasks.take 256)[index]? = some task →
        contextOf final index task =
          alone executes entrypoint task (share (tasks.take 256).length index turns) := by
  obtain ⟨final, completed, isolated⟩ := run_isolated invoke turns [] _
    (start_isolated executes entrypoint link before burst prio tasks memory registers nonempty
      apart) respects
  refine ⟨final, completed, isolated.current, ?_⟩
  intro index task held
  apply isolated.own
  rw [TaskManager.Manager.slot, if_pos (Int.natCast_nonneg index), isolated.tasks]
  exact held

end boot

/-- A context whose inputs are the distances that its instruction pointer moves. -/
def walks (_ : Option Address) (registers : Registers) (distance : Word) : Registers :=
  { registers with eip := registers.eip + distance }

/-- A turn that stores nothing, with a call that leaves the memory as it is. -/
def walk (distances : List Word) : Turn Word where
  inputs := distances
  stores := id
  call := (Slice.quiet (firstRegisters 0 0) fun _ => 0).call

theorem walks_esp (context : Option Address) (registers : Registers) (distances : List Word) :
    (distances.foldl (walks context) registers).esp = registers.esp := by
  induction distances generalizing registers with
  | nil => rfl
  | cons distance rest inductionHypothesis => exact inductionHypothesis _

/-- Such a turn pushes the interrupted context on the stack that the processor is on. -/
theorem walk_respects (machine : Machine) (distances : List Word)
    (elsewhere : ∀ index task, machine.manager.taskManager.slot index = some task →
      index ≠ machine.currentTask → ∀ tested : Address,
        (tested - (machine.manager.taskManager.objects task).cpustate).toNat < 44 →
        44 ≤ (tested - (machine.registers.esp - 44)).toNat) :
    RespectsOthers walks machine (walk distances) := by
  intro index task slot suspended tested within
  apply Slice.quiet_leaves
  rw [walks_esp]
  exact elsewhere index task slot suspended tested within

/-- The first of two tasks runs for a turn. -/
theorem tasks_isolated_two_tasks :
    ∃ final, Runs.run (step walks fun _ esp => esp) [walk [], walk [4, 8]] ContextSwitch.booted =
        some final ∧
      (contextOf final 0 0x10000).eip = 0x100C ∧ (contextOf final 1 0x20000).eip = 0x1000 := by
  have isolated : Isolated walks (fun _ => 0x1000) [0x10000, 0x20000] [] ContextSwitch.booted :=
    start_isolated walks (fun _ => 0x1000) _ _ _ _ [0x10000, 0x20000] _ _ (by decide) (by decide)
  have boot : RespectsOthers walks ContextSwitch.booted (walk []) := by
    apply walk_respects
    intro index task slot _ tested within
    have stack : ContextSwitch.booted.registers.esp = 0x90000 + 4096 - 8 := rfl
    rw [ContextSwitch.booted_frame, TaskManager.initialFrame, TaskManager.sizeofCPUState] at within
    rw [stack]
    rcases ContextSwitch.booted_slot _ index task isolated.tasks slot with ⟨-, rfl⟩ | ⟨-, rfl⟩
    · bv_omega
    · bv_omega
  have first (next : Machine)
      (taken : step walks (fun _ esp => esp) ContextSwitch.booted (walk []) = some next) :
      RespectsOthers walks next (walk [4, 8]) := by
    obtain ⟨reached, stepped, again⟩ :=
      step_isolated (fun _ esp => esp) [] (walk []) _ isolated boot
    obtain rfl : next = reached := Option.some.inj (taken.symm.trans stepped)
    obtain ⟨switched, returned, steppedToo, switches⟩ := ContextSwitch.step_switches
      (fun _ esp => esp) _ ((walk []).slice walks ContextSwitch.booted) isolated.held.valid
      isolated.held.vacant
    obtain rfl : next = switched := Option.some.inj (taken.symm.trans steppedToo)
    have current : next.currentTask = 0 := again.current
    have slot : next.manager.taskManager.slot 0 = some 0x10000 := by
      simp [TaskManager.Manager.slot, again.tasks]
    have registers := again.own 0 0x10000 slot
    rw [contextOf, if_pos current.symm] at registers
    apply walk_respects
    intro index task slot suspended tested within
    have stack : next.registers.esp = 0x10000 + 4096 - 8 := by
      rw [registers]
      rfl
    have boots : ContextSwitch.booted.manager.taskManager.currentTask = -1 :=
      ContextSwitch.booted_current
    rw [switches.ticks.contexts, boots, SchedulerSteps.slot_none, if_neg (by simp),
      ContextSwitch.booted_frame, TaskManager.initialFrame, TaskManager.sizeofCPUState] at within
    rw [stack]
    rcases ContextSwitch.booted_slot _ index task again.tasks slot with ⟨rfl, -⟩ | ⟨-, rfl⟩
    · exact absurd current.symm suspended
    · bv_omega
  obtain ⟨final, completed, -, own⟩ := tasks_isolated walks (fun _ => 0x1000) (fun _ => 0x2000)
    (InterruptManager.zeroed (TaskManager.construct fun _ => ⟨0, 0, 0, 0⟩)) (fun _ => 10)
    (fun _ => 1) [0x10000, 0x20000] (fun _ => 0) (firstRegisters 0x90000 0) (fun _ esp => esp)
    (by decide) (by decide) [walk [], walk [4, 8]]
    ⟨boot, fun next taken => ⟨first next taken, fun _ _ => trivial⟩⟩
  refine ⟨final, completed, ?_, ?_⟩
  · rw [show (0 : Int) = ((0 : Nat) : Int) from rfl, own 0 0x10000 rfl]
    rfl
  · rw [show (1 : Int) = ((1 : Nat) : Int) from rfl, own 1 0x20000 rfl]
    rfl

end BlueOs.Multitasking
