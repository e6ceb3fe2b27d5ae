import BlueOs.Selection

/-!
# What a scheduler call can do

Every policy, entered with a current task in use or none, returns; it keeps the
table, stores the interrupted context in the current task and in no other, and
returns the context of the task it leaves current. The one exception is a first
call of `fcfs`, which takes the boot context for that of slot 0.

The later developments cite these laws and do not unfold the policies.
-/

namespace BlueOs.SchedulerSteps

open ByteMemory TaskManager

/-- The current task is a slot in use, or none; the table holds its slots. -/
structure Valid (manager : Manager) : Prop where
  lower : -1 ≤ manager.currentTask
  upper : manager.currentTask < manager.numTasks
  capacity : manager.numTasks ≤ 256

/-- A slot in use holds a task of the table. -/
theorem slot_used (manager : Manager) (index : Int) (lower : 0 ≤ index)
    (upper : index < manager.numTasks) : ∃ task, manager.slot index = some task := by
  simp only [Manager.numTasks] at upper
  have inside : index.toNat < manager.tasks.length := by omega
  exact ⟨manager.tasks[index.toNat], by simp [Manager.slot, lower, inside]⟩

theorem slot_none (manager : Manager) : manager.slot (-1) = none := by simp [Manager.slot]

/-- Two slots of a table without repetition that hold one task are the same. -/
theorem slot_injective (manager : Manager) (distinct : manager.tasks.Nodup) (left right : Int)
    (task : Address) (here : manager.slot left = some task)
    (there : manager.slot right = some task) :
    left = right := by
  simp only [Manager.slot] at here there
  split at here <;> split at there <;> try contradiction
  obtain ⟨leftInside, leftTask⟩ := List.getElem?_eq_some_iff.mp here
  obtain ⟨rightInside, rightTask⟩ := List.getElem?_eq_some_iff.mp there
  have same : left.toNat = right.toNat :=
    (List.Nodup.getElem_inj_iff distinct).mp (leftTask.trans rightTask.symm)
  omega

/-- The slots only depend on the table. -/
theorem slot_congr (manager other : Manager) (same : other.tasks = manager.tasks) (index : Int) :
    other.slot index = manager.slot index := by simp [Manager.slot, same]

theorem taskAt_used (manager : Manager) (index : Int) (lower : 0 ≤ index)
    (upper : index < manager.numTasks) : ∃ task, manager.taskAt index = some task := by
  obtain ⟨task, used⟩ := slot_used manager index lower upper
  exact ⟨manager.objects task, by simp [Manager.taskAt, used]⟩

/-- The interrupted context is stored in the current task and in no other; the
table and the current task are kept. -/
structure Saves (manager next : Manager) (cpustate : Address) : Prop where
  tasks : next.tasks = manager.tasks
  current : next.currentTask = manager.currentTask
  contexts : ∀ task, (next.objects task).cpustate =
    if manager.slot manager.currentTask = some task then cpustate
    else (manager.objects task).cpustate

/-- Assigning members of the current task that include its context. -/
theorem modify_saves (manager : Manager) (cpustate : Address) (change : Task → Task)
    (changed : ∀ task, (change task).cpustate = cpustate) (task : Address)
    (used : manager.slot manager.currentTask = some task) :
    ∃ next, manager.modify manager.currentTask change = some next ∧ Saves manager next cpustate := by
  refine ⟨{ manager with
    objects := Function.update manager.objects task (change (manager.objects task)) },
    by simp [Manager.modify, used], rfl, rfl, ?_⟩
  intro other
  by_cases same : other = task
  · subst same
    simp [used, changed]
  · have different : ¬ task = other := fun equal => same equal.symm
    simp [used, same, different]

theorem saveCurrent_saves (manager : Manager) (valid : Valid manager) (cpustate : Address) :
    ∃ next, manager.saveCurrent cpustate = some next ∧ Saves manager next cpustate := by
  by_cases running : 0 ≤ manager.currentTask
  · obtain ⟨task, used⟩ := slot_used manager manager.currentTask running valid.upper
    obtain ⟨next, saved, saves⟩ := modify_saves manager cpustate
      (fun task => { task with cpustate := cpustate }) (fun _ => rfl) task used
    exact ⟨next, by simpa [Manager.saveCurrent, Manager.saveContext, running] using saved, saves⟩
  · have boot : manager.currentTask = -1 := by
      have lower := valid.lower
      omega
    refine ⟨manager, by simp [Manager.saveCurrent, running], rfl, rfl, ?_⟩
    intro task
    simp [boot, slot_none]

/-- A returned call: the table is kept, the current task is in use or none, the
interrupted context went to the current task alone, and the pointer returned for
a task is the one its object holds. -/
structure Ticks (manager next : Manager) (cpustate returned : Address) : Prop where
  tasks : next.tasks = manager.tasks
  valid : Valid next
  contexts : ∀ task, (next.objects task).cpustate =
    if manager.slot manager.currentTask = some task then cpustate
    else (manager.objects task).cpustate
  resumed : 0 ≤ next.currentTask → ∃ task, next.slot next.currentTask = some task ∧
    returned = (next.objects task).cpustate

/-- Choosing a slot in use after the context was saved completes a call. -/
theorem resume_ticks (manager saved : Manager) (valid : Valid manager) (cpustate : Address)
    (saves : Saves manager saved cpustate) (index : Int) (lower : 0 ≤ index)
    (upper : index < manager.numTasks) :
    ∃ returned, (saved.setCurrent index).resumeCurrent = some (returned, saved.setCurrent index) ∧
      Ticks manager (saved.setCurrent index) cpustate returned := by
  have table : (saved.setCurrent index).tasks = manager.tasks := saves.tasks
  have count : (saved.setCurrent index).numTasks = manager.numTasks := by
    simp only [Manager.numTasks, table]
  obtain ⟨task, used⟩ := slot_used (saved.setCurrent index) index lower (by rw [count]; exact upper)
  have read : (saved.setCurrent index).taskAt (saved.setCurrent index).currentTask =
      some (saved.objects task) := by
    simp only [Manager.taskAt]
    rw [show (saved.setCurrent index).currentTask = index from rfl, used]
    rfl
  refine ⟨(saved.objects task).cpustate, by simp [Manager.resumeCurrent, read], table, ?_,
    saves.contexts, fun _ => ⟨task, used, rfl⟩⟩
  constructor
  · exact Int.le_trans (by decide) lower
  · rw [count]
    exact upper
  · rw [count]
    exact valid.capacity

/-- With no task registered every call returns the pointer it was given. -/
theorem idle_ticks (manager : Manager) (valid : Valid manager) (cpustate : Address)
    (vacant : manager.numTasks = 0) : Ticks manager manager cpustate cpustate := by
  have boot : manager.currentTask = -1 := by
    have lower := valid.lower
    have upper := valid.upper
    omega
  refine ⟨rfl, valid, ?_, ?_⟩
  · intro task
    simp [boot, slot_none]
  · intro running
    omega

/-- Every task number that a search returns is a slot in use. -/
theorem least_used (manager : Manager) (key : Task → Word) (used : 0 < manager.numTasks) :
    ∃ best, manager.least key = some best ∧ 0 ≤ best ∧ best < manager.numTasks := by
  simp only [Manager.numTasks] at used ⊢
  obtain ⟨slot, task, found, chosen⟩ :=
    Selection.least_chosen manager key (List.length_pos_iff.mp (Int.natCast_pos.mp used))
  have inside := chosen.inside
  exact ⟨slot, found, Int.natCast_nonneg slot, by omega⟩

theorem shortest_used (manager : Manager) :
    ∃ best, manager.shortest = some best ∧ -1 ≤ best ∧ best < manager.numTasks := by
  simp only [Manager.numTasks]
  obtain ⟨best, found, ⟨rfl, -⟩ | ⟨slot, task, rfl, chosen⟩⟩ := Selection.shortest_best manager
  · exact ⟨-1, found, by omega, by omega⟩
  · have inside := chosen.inside
    exact ⟨slot, found, by omega, by omega⟩

/-- The slots in use are those of the table, before and after the context is saved. -/
theorem Saves.numTasks {manager next : Manager} {cpustate : Address}
    (saves : Saves manager next cpustate) : next.numTasks = manager.numTasks := by
  simp only [Manager.numTasks, saves.tasks]

/-- Round robin moves to the next slot in cyclic order. -/
theorem schedule_ticks (manager : Manager) (valid : Valid manager) (cpustate : Address) :
    ∃ returned next, manager.schedule cpustate = some (returned, next) ∧
      Ticks manager next cpustate returned ∧ (manager.numTasks ≠ 0 →
        next.currentTask = (manager.currentTask + 1).tmod manager.numTasks) := by
  by_cases vacant : manager.numTasks = 0
  · exact ⟨cpustate, manager, by simp [Manager.schedule, vacant],
      idle_ticks manager valid cpustate vacant, fun used => absurd vacant used⟩
  · obtain ⟨saved, save, saves⟩ := saveCurrent_saves manager valid cpustate
    have lower := valid.lower
    have upper := valid.upper
    have dividend : 0 ≤ manager.currentTask + 1 := by omega
    have positive : 0 < manager.numTasks := by omega
    obtain ⟨returned, resumed, ticks⟩ := resume_ticks manager saved valid cpustate saves
      ((manager.currentTask + 1).tmod manager.numTasks)
      (Int.tmod_nonneg _ dividend) (Int.tmod_lt_of_pos _ positive)
    refine ⟨returned, _, ?_, ticks, fun _ => rfl⟩
    simp only [Manager.schedule, vacant, if_false, save, Option.bind_eq_bind, Option.bind_some,
      Manager.remainder, saves.numTasks, saves.current, resumed]

/-- After its first call, `fcfs` saves and resumes the current task. -/
theorem fcfs_ticks (manager : Manager) (valid : Valid manager) (cpustate : Address)
    (started : manager.numTasks = 0 ∨ manager.currentTask ≠ -1) :
    ∃ returned next, manager.fcfs cpustate = some (returned, next) ∧
      Ticks manager next cpustate returned := by
  by_cases vacant : manager.numTasks = 0
  · exact ⟨cpustate, manager, by simp [Manager.fcfs, vacant],
      idle_ticks manager valid cpustate vacant⟩
  · have running : manager.currentTask ≠ -1 := started.resolve_left vacant
    have lower := valid.lower
    have used : 0 ≤ manager.currentTask := by omega
    obtain ⟨saved, save, saves⟩ := saveCurrent_saves manager valid cpustate
    simp only [Manager.saveCurrent, used, if_true] at save
    obtain ⟨returned, resumed, ticks⟩ := resume_ticks manager saved valid cpustate saves
      saved.currentTask (by rw [saves.current]; exact used)
      (by rw [saves.current]; exact valid.upper)
    refine ⟨returned, saved, ?_, ticks⟩
    simp only [Manager.fcfs, vacant, if_false, running, save, Option.bind_eq_bind,
      Option.bind_some]
    exact resumed

theorem sjf_ticks (manager : Manager) (valid : Valid manager) (cpustate : Address) :
    ∃ returned next, manager.sjf cpustate = some (returned, next) ∧
      Ticks manager next cpustate returned := by
  by_cases vacant : manager.numTasks = 0
  · exact ⟨cpustate, manager, by simp [Manager.sjf, vacant],
      idle_ticks manager valid cpustate vacant⟩
  · obtain ⟨saved, save, saves⟩ := saveCurrent_saves manager valid cpustate
    have count : saved.numTasks = manager.numTasks := saves.numTasks
    have upper : saved.currentTask < saved.numTasks := by
      rw [saves.current, count]
      exact valid.upper
    obtain ⟨best, found, bestLower, bestUpper⟩ := shortest_used saved
    -- The decision to continue reads the current task only when there is one.
    obtain ⟨continues, decided, running⟩ : ∃ continues,
        saved.unfinished = some continues ∧ (continues = true → 0 ≤ saved.currentTask) := by
      by_cases used : 0 ≤ saved.currentTask
      · obtain ⟨task, read⟩ := taskAt_used saved saved.currentTask used upper
        exact ⟨decide (0 < task.remainingTime),
          by simp only [Manager.unfinished, used, if_true, read, Option.map_some], fun _ => used⟩
      · exact ⟨false, by simp only [Manager.unfinished, used, if_false], by simp⟩
    cases continues with
    | true =>
      obtain ⟨returned, resumed, ticks⟩ := resume_ticks manager saved valid cpustate saves
        saved.currentTask (running rfl) (by rw [← count]; exact upper)
      refine ⟨returned, saved, ?_, ticks⟩
      simp only [Manager.sjf, vacant, if_false, save, Option.bind_eq_bind, Option.bind_some,
        decided, if_true]
      exact resumed
    | false =>
      by_cases none : best = -1
      · refine ⟨cpustate, saved, ?_, saves.tasks, ?_, saves.contexts, ?_⟩
        · simp only [Manager.sjf, vacant, if_false, save, Option.bind_eq_bind, Option.bind_some,
            decided, Bool.false_eq_true, found, none, if_true]
        · exact ⟨by rw [saves.current]; exact valid.lower, upper,
            by rw [count]; exact valid.capacity⟩
        · -- The pointer given is the one just stored in the finished current task.
          intro used
          obtain ⟨task, slot⟩ := slot_used saved saved.currentTask used upper
          have before : manager.slot manager.currentTask = some task := by
            rw [← slot, slot_congr manager saved saves.tasks, saves.current]
          exact ⟨task, slot, by simp [saves.contexts task, before]⟩
      · obtain ⟨returned, resumed, ticks⟩ := resume_ticks manager saved valid cpustate saves best
          (by omega) (by rw [← count]; exact bestUpper)
        refine ⟨returned, _, ?_, ticks⟩
        simp only [Manager.sjf, vacant, if_false, save, Option.bind_eq_bind, Option.bind_some,
          decided, Bool.false_eq_true, found, none, resumed]

/-- A charge saves the context and takes one tick from the remaining time of the
current task, without a test. -/
theorem charge_used (manager : Manager) (cpustate task : Address)
    (running : 0 ≤ manager.currentTask)
    (used : manager.slot manager.currentTask = some task) :
    manager.charge cpustate = some { manager with
      objects := Function.update manager.objects task { manager.objects task with
        cpustate := cpustate
        remainingTime := (manager.objects task).remainingTime - 1 } } := by
  have held : ∀ objects : Address → Task,
      ({ manager with objects } : Manager).slot manager.currentTask = some task := fun objects =>
    (slot_congr manager _ rfl _).trans used
  simp only [Manager.charge, running, if_true, Manager.saveContext, Manager.modify, used, held,
    Option.map_some, Option.bind_eq_bind, Option.bind_some, Function.update_self,
    Function.update_idem]

/-- Saving the context and charging one tick of remaining time. -/
theorem charge_saves (manager : Manager) (valid : Valid manager) (cpustate : Address) :
    ∃ next, manager.charge cpustate = some next ∧ Saves manager next cpustate := by
  by_cases running : 0 ≤ manager.currentTask
  · obtain ⟨task, used⟩ := slot_used manager manager.currentTask running valid.upper
    refine ⟨_, charge_used manager cpustate task running used, rfl, rfl, ?_⟩
    intro other
    by_cases same : other = task
    · simp [same, used]
    · have different : ¬ task = other := fun equal => same equal.symm
      simp [used, same, different]
  · obtain ⟨saved, save, saves⟩ := saveCurrent_saves manager valid cpustate
    simp only [Manager.saveCurrent, running, if_false] at save
    exact ⟨saved, by simpa only [Manager.charge, running, if_false] using save, saves⟩

theorem srtf_ticks (manager : Manager) (valid : Valid manager) (cpustate : Address) :
    ∃ returned next, manager.srtf cpustate = some (returned, next) ∧
      Ticks manager next cpustate returned := by
  by_cases vacant : manager.numTasks = 0
  · exact ⟨cpustate, manager, by simp [Manager.srtf, vacant],
      idle_ticks manager valid cpustate vacant⟩
  · obtain ⟨saved, save, saves⟩ := charge_saves manager valid cpustate
    have lower := valid.lower
    have upper := valid.upper
    have count : saved.numTasks = manager.numTasks := saves.numTasks
    obtain ⟨best, found, bestLower, bestUpper⟩ := least_used saved Task.remainingTime (by omega)
    obtain ⟨returned, resumed, ticks⟩ := resume_ticks manager saved valid cpustate saves best
      bestLower (by omega)
    refine ⟨returned, _, ?_, ticks⟩
    simp only [Manager.srtf, vacant, if_false, save, Option.bind_eq_bind, Option.bind_some, found,
      resumed]

theorem prioritySchedule_ticks (manager : Manager) (valid : Valid manager) (cpustate : Address) :
    ∃ returned next, manager.prioritySchedule cpustate = some (returned, next) ∧
      Ticks manager next cpustate returned := by
  by_cases vacant : manager.numTasks = 0
  · exact ⟨cpustate, manager, by simp [Manager.prioritySchedule, vacant],
      idle_ticks manager valid cpustate vacant⟩
  · obtain ⟨saved, save, saves⟩ := saveCurrent_saves manager valid cpustate
    have lower := valid.lower
    have upper := valid.upper
    have count : saved.numTasks = manager.numTasks := saves.numTasks
    obtain ⟨best, found, bestLower, bestUpper⟩ := least_used saved Task.priority (by omega)
    obtain ⟨returned, resumed, ticks⟩ := resume_ticks manager saved valid cpustate saves best
      bestLower (by omega)
    refine ⟨returned, _, ?_, ticks⟩
    simp only [Manager.prioritySchedule, vacant, if_false, save, Option.bind_eq_bind,
      Option.bind_some, found, resumed]

/-- The state in which `fcfs` mistakes the boot context for that of slot 0. -/
def TakesBoot (policy : Policy) (manager : Manager) : Prop :=
  policy = .fcfs ∧ manager.currentTask = -1 ∧ manager.numTasks ≠ 0

instance (policy : Policy) (manager : Manager) : Decidable (TakesBoot policy manager) :=
  inferInstanceAs (Decidable (_ ∧ _ ∧ _))

/-- In that state the pointer given, whatever it is, becomes the context of slot 0. -/
theorem fcfs_takes_boot (manager : Manager) (cpustate : Address) (boot : TakesBoot .fcfs manager) :
    ∃ task next, manager.slot 0 = some task ∧ manager.fcfs cpustate = some (cpustate, next) ∧
      next.tasks = manager.tasks ∧ next.currentTask = 0 ∧
      (next.objects task).cpustate = cpustate := by
  obtain ⟨-, none, used⟩ := boot
  have positive : 0 < manager.numTasks := by
    simp only [Manager.numTasks] at used ⊢
    omega
  obtain ⟨task, slot⟩ := slot_used (manager.setCurrent 0) 0 (Int.le_refl 0) positive
  obtain ⟨next, saved, saves⟩ := modify_saves (manager.setCurrent 0) cpustate
    (fun task => { task with cpustate := cpustate }) (fun _ => rfl) task slot
  have held : (next.objects task).cpustate = cpustate := by
    rw [saves.contexts task]
    exact if_pos slot
  have read : next.taskAt next.currentTask = some (next.objects task) := by
    simp only [Manager.taskAt, slot_congr (manager.setCurrent 0) next saves.tasks, saves.current]
    rw [show (manager.setCurrent 0).currentTask = 0 from rfl, slot]
    rfl
  refine ⟨task, next, slot, ?_, saves.tasks, saves.current, held⟩
  simp only [Manager.fcfs, used, none, if_false, if_true, Manager.saveContext, saved,
    Option.bind_eq_bind, Option.bind_some, Manager.resumeCurrent, read, Option.map_some, held]

/-- Every call but that one returns a context of the task it leaves current. -/
theorem tick_ticks (policy : Policy) (manager : Manager) (valid : Valid manager)
    (cpustate : Address) (owned : ¬ TakesBoot policy manager) :
    ∃ returned next, policy.tick manager cpustate = some (returned, next) ∧
      Ticks manager next cpustate returned := by
  cases policy with
  | schedule =>
    obtain ⟨returned, next, called, ticks, -⟩ := schedule_ticks manager valid cpustate
    exact ⟨returned, next, called, ticks⟩
  | fcfs =>
    apply fcfs_ticks manager valid cpustate
    by_contra both
    rw [not_or, not_not] at both
    exact owned ⟨rfl, both.2, both.1⟩
  | sjf => exact sjf_ticks manager valid cpustate
  | srtf => exact srtf_ticks manager valid cpustate
  | prioritySchedule => exact prioritySchedule_ticks manager valid cpustate

/-- A registration, accepted or refused, keeps the bounds and every stored entry. -/
theorem addTask_valid (manager : Manager) (valid : Valid manager) (task : Address) :
    Valid (manager.addTask task).2 ∧ manager.tasks <+: (manager.addTask task).2.tasks := by
  by_cases room : manager.numTasks < 256
  · have count : ({ manager with tasks := manager.tasks ++ [task] } : Manager).numTasks =
        manager.numTasks + 1 := by
      simp [Manager.numTasks]
    simp only [Manager.addTask, room, if_true]
    refine ⟨⟨valid.lower, ?_, ?_⟩, List.prefix_append _ _⟩
    · rw [count]
      exact Int.lt_add_one_of_le (Int.le_of_lt valid.upper)
    · rw [count]
      omega
  · simp only [Manager.addTask, room, if_false]
    exact ⟨valid, List.prefix_refl _⟩

/-- The manager after tasks just constructed were registered one after the other. -/
def registered (burst prio : Address → Word) (tasks : List Address) : Manager :=
  tasks.foldl (fun manager task => (manager.addTask task).2)
    (construct fun task => Task.construct task (burst task) (prio task))

/-- As many tasks as the table has slots are all registered, in order. -/
theorem registered_eq (burst prio : Address → Word) (tasks : List Address)
    (capacity : tasks.length ≤ 256) :
    registered burst prio tasks =
      { tasks, currentTask := -1
        objects := fun task => Task.construct task (burst task) (prio task) } := by
  induction tasks using List.reverseRecOn with
  | nil => rfl
  | append_singleton earlier task inductionHypothesis =>
    rw [List.length_append, List.length_singleton] at capacity
    have before := inductionHypothesis (by omega)
    rw [registered] at before ⊢
    rw [List.foldl_append, before]
    have room : (earlier.length : Int) < 256 := by omega
    simp only [List.foldl_cons, List.foldl_nil, Manager.addTask, Manager.numTasks, room, if_true]

theorem registered_valid (burst prio : Address → Word) (tasks : List Address)
    (capacity : tasks.length ≤ 256) : Valid (registered burst prio tasks) := by
  rw [registered_eq burst prio tasks capacity]
  constructor <;> simp only [Manager.numTasks] <;> omega

/-- A call of any policy, the first call of `fcfs` included, returns and keeps the
bounds and the table. -/
theorem tick_valid (policy : Policy) (manager : Manager) (valid : Valid manager)
    (cpustate : Address) :
    ∃ returned next, policy.tick manager cpustate = some (returned, next) ∧ Valid next ∧
      next.tasks = manager.tasks := by
  by_cases boot : TakesBoot policy manager
  · obtain ⟨rfl, none, used⟩ := boot
    obtain ⟨task, next, -, called, tasks, current, -⟩ :=
      fcfs_takes_boot manager cpustate ⟨rfl, none, used⟩
    have count : next.numTasks = manager.numTasks := by
      simp only [Manager.numTasks, tasks]
    have registered : 0 ≤ manager.numTasks := Int.natCast_nonneg _
    have capacity := valid.capacity
    exact ⟨cpustate, next, called, ⟨by omega, by omega, by omega⟩, tasks⟩
  · obtain ⟨returned, next, called, ticks⟩ := tick_ticks policy manager valid cpustate boot
    exact ⟨returned, next, called, ticks.valid, ticks.tasks⟩

end BlueOs.SchedulerSteps
