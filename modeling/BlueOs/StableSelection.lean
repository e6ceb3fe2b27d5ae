import BlueOs.SchedulerSteps

/-!
# Selection by priority and by burst time

`prioritySchedule` and `sjf` choose the lowest slot of least key, `sjf` among the
unfinished tasks and only when the current task is finished or there is none. Saving
the interrupted context changes no key, so what they choose is told by the table they
are called with, and the key chosen does not depend on the order of registration.
-/

namespace BlueOs.StableSelection

open ByteMemory TaskManager SchedulerSteps Selection LeftmostLeast

/-- Two managers whose tasks differ in their contexts only. -/
structure SameJobs (manager other : Manager) : Prop where
  burstTime : ∀ task, (other.objects task).burstTime = (manager.objects task).burstTime
  remainingTime : ∀ task,
    (other.objects task).remainingTime = (manager.objects task).remainingTime
  priority : ∀ task, (other.objects task).priority = (manager.objects task).priority

/-- Saving the interrupted context changes no task in another member. -/
theorem saveCurrent_jobs (manager saved : Manager) (cpustate : Address)
    (save : manager.saveCurrent cpustate = some saved) : SameJobs manager saved := by
  by_cases running : 0 ≤ manager.currentTask
  · simp only [Manager.saveCurrent, running, if_true, Manager.saveContext, Manager.modify,
      Option.map_eq_some_iff] at save
    obtain ⟨current, -, rfl⟩ := save
    constructor <;> intro task <;> by_cases same : task = current <;> simp [same]
  · simp only [Manager.saveCurrent, running, if_false, Option.some.injEq] at save
    subst save
    exact ⟨fun _ => rfl, fun _ => rfl, fun _ => rfl⟩

variable (manager : Manager) (cpustate : Address)

/-- The call leaves the slot current, which holds the task, and returns the context
of that task. -/
def Selects (outcome : Option (Address × Manager)) (slot : Nat) (task : Address) : Prop :=
  ∃ returned next, outcome = some (returned, next) ∧ next.currentTask = slot ∧
    next.tasks[slot]? = some task ∧ returned = (next.objects task).cpustate

/-- A call selects one slot at most. -/
theorem selects_unique (outcome : Option (Address × Manager)) (slot rival : Nat)
    (task rivalTask : Address) (selects : Selects outcome slot task)
    (rivals : Selects outcome rival rivalTask) : slot = rival ∧ task = rivalTask := by
  obtain ⟨returned, next, rfl, current, held, -⟩ := selects
  obtain ⟨again, other, same, rivalCurrent, rivalHeld, -⟩ := rivals
  obtain ⟨rfl, rfl⟩ := Prod.mk.inj (Option.some.inj same)
  have slots : slot = rival := by omega
  subst slots
  exact ⟨rfl, Option.some.inj (held.symm.trans rivalHeld)⟩

/-- Resuming a slot in use selects it. -/
theorem resume_selects (saved : Manager) (slot : Nat) (task : Address)
    (used : saved.tasks[slot]? = some task) :
    Selects (saved.setCurrent slot).resumeCurrent slot task := by
  refine ⟨(saved.objects task).cpustate, saved.setCurrent slot, ?_, rfl, used, rfl⟩
  simp [Manager.resumeCurrent, Manager.setCurrent, used]

/-- The current task is in use and unfinished. -/
def Continues (slot : Nat) (task : Address) : Prop :=
  manager.currentTask = slot ∧ manager.tasks[slot]? = some task ∧ Unfinished manager task

theorem prioritySchedule_selects (valid : Valid manager) (used : manager.tasks ≠ []) :
    ∃ slot task, Selects (manager.prioritySchedule cpustate) slot task ∧
      Chosen (keyOf manager Task.priority) (fun _ => True) manager.tasks slot task := by
  obtain ⟨saved, save, saves⟩ := saveCurrent_saves manager valid cpustate
  have jobs := saveCurrent_jobs manager saved cpustate save
  obtain ⟨slot, task, found, chosen⟩ := least_chosen saved Task.priority (by
    rw [saves.tasks]
    exact used)
  have occupied : ¬ manager.numTasks = 0 := by simpa [Manager.numTasks] using used
  have called : manager.prioritySchedule cpustate = (saved.setCurrent slot).resumeCurrent := by
    simp only [Manager.prioritySchedule, occupied, if_false, save, Option.bind_eq_bind,
      Option.bind_some, found]
  have keys : keyOf saved Task.priority = keyOf manager Task.priority := by
    funext task
    simp only [keyOf, jobs.priority]
  rw [keys, saves.tasks] at chosen
  refine ⟨slot, task, ?_, chosen⟩
  rw [called]
  apply resume_selects
  rw [saves.tasks]
  exact chosen.here

/-- Whether the current task continues is read after its context was saved. -/
theorem unfinished_saved (saved : Manager) (valid : Valid manager)
    (saves : Saves manager saved cpustate) (jobs : SameJobs manager saved) :
    (saved.unfinished = some true ∧ ∃ slot task, Continues manager slot task) ∨
      (saved.unfinished = some false ∧ ¬ ∃ slot task, Continues manager slot task) := by
  by_cases running : 0 ≤ manager.currentTask
  · obtain ⟨slot, current⟩ := Int.eq_ofNat_of_zero_le running
    obtain ⟨task, used⟩ := slot_used manager manager.currentTask running valid.upper
    rw [current, slot_natCast] at used
    have read : saved.unfinished = some (decide (0 < (manager.objects task).remainingTime)) := by
      rw [Manager.unfinished, saves.current, if_pos running, current, taskAt_natCast, saves.tasks,
        used]
      simp only [Option.map_some, jobs.remainingTime]
    by_cases unfinished : 0 < (manager.objects task).remainingTime
    · left
      rw [read, decide_eq_true unfinished]
      exact ⟨rfl, slot, task, current, used, unfinished⟩
    · right
      rw [read, decide_eq_false unfinished]
      refine ⟨rfl, ?_⟩
      rintro ⟨other, otherTask, otherCurrent, otherUsed, otherUnfinished⟩
      have same : slot = other := by omega
      subst same
      obtain rfl := Option.some.inj (used.symm.trans otherUsed)
      exact unfinished otherUnfinished
  · right
    constructor
    · simp only [Manager.unfinished, saves.current, running, if_false]
    · rintro ⟨slot, task, current, -⟩
      omega

/-- An unfinished current task is kept. -/
theorem sjf_keeps (valid : Valid manager) (slot : Nat) (task : Address)
    (continues : Continues manager slot task) : Selects (manager.sjf cpustate) slot task := by
  obtain ⟨current, used, unfinished⟩ := continues
  obtain ⟨saved, save, saves⟩ := saveCurrent_saves manager valid cpustate
  have jobs := saveCurrent_jobs manager saved cpustate save
  have occupied : ¬ manager.numTasks = 0 := by
    have inside := (List.getElem?_eq_some_iff.mp used).1
    simp only [Manager.numTasks]
    omega
  rcases unfinished_saved manager cpustate saved valid saves jobs with ⟨decided, -⟩ | ⟨-, none⟩
  · have called : manager.sjf cpustate = (saved.setCurrent slot).resumeCurrent := by
      have same : saved.setCurrent slot = saved := by
        rw [← current, ← saves.current]
        rfl
      simp only [Manager.sjf, occupied, if_false, save, Option.bind_eq_bind, Option.bind_some,
        decided, if_true, same]
    rw [called]
    apply resume_selects
    rw [saves.tasks]
    exact used
  · exact absurd ⟨slot, task, current, used, unfinished⟩ none

/-- When no task continues, `sjf` takes what its search finds. -/
theorem sjf_searches (valid : Valid manager) (used : manager.tasks ≠ [])
    (stopped : ¬ ∃ slot task, Continues manager slot task) :
    (Vacant (Unfinished manager) manager.tasks ∧ ∃ next,
        manager.sjf cpustate = some (cpustate, next) ∧ next.currentTask = manager.currentTask) ∨
      ∃ slot task, Selects (manager.sjf cpustate) slot task ∧
        Chosen (keyOf manager Task.burstTime) (Unfinished manager) manager.tasks slot task := by
  obtain ⟨saved, save, saves⟩ := saveCurrent_saves manager valid cpustate
  have jobs := saveCurrent_jobs manager saved cpustate save
  have occupied : ¬ manager.numTasks = 0 := by simpa [Manager.numTasks] using used
  have keys : keyOf saved Task.burstTime = keyOf manager Task.burstTime := by
    funext task
    simp only [keyOf, jobs.burstTime]
  have allowed : Unfinished saved = Unfinished manager := by
    funext task
    simp only [Unfinished, jobs.remainingTime]
  rcases unfinished_saved manager cpustate saved valid saves jobs with ⟨-, runs⟩ | ⟨decided, -⟩
  · exact absurd runs stopped
  · obtain ⟨best, found, held⟩ := shortest_best saved
    rw [Best, keys, allowed, saves.tasks] at held
    rcases held with ⟨rfl, vacant⟩ | ⟨slot, task, rfl, chosen⟩
    · refine Or.inl ⟨vacant, saved, ?_, saves.current⟩
      simp only [Manager.sjf, occupied, if_false, save, Option.bind_eq_bind, Option.bind_some,
        decided, Bool.false_eq_true, found, if_true]
    · have present : ¬ (slot : Int) = -1 := by omega
      have called : manager.sjf cpustate = (saved.setCurrent slot).resumeCurrent := by
        simp only [Manager.sjf, occupied, if_false, save, Option.bind_eq_bind, Option.bind_some,
          decided, Bool.false_eq_true, found, present]
      refine Or.inr ⟨slot, task, ?_, chosen⟩
      rw [called]
      apply resume_selects
      rw [saves.tasks]
      exact chosen.here

/-- A task newly chosen by `sjf` is the lowest slot of least burst time among the
unfinished tasks. -/
theorem sjf_chooses (valid : Valid manager)
    (stopped : ¬ ∃ slot task, Continues manager slot task)
    (unfinished : ∃ task ∈ manager.tasks, Unfinished manager task) :
    ∃ slot task, Selects (manager.sjf cpustate) slot task ∧
      Chosen (keyOf manager Task.burstTime) (Unfinished manager) manager.tasks slot task := by
  obtain ⟨waiting, member, ready⟩ := unfinished
  rcases sjf_searches manager cpustate valid (List.ne_nil_of_mem member) stopped with
    ⟨vacant, -⟩ | chosen
  · exact absurd ready (vacant waiting member)
  · exact chosen

/-- When every task is finished, `sjf` returns the pointer it was given. -/
theorem sjf_returns (valid : Valid manager) (used : manager.tasks ≠ [])
    (vacant : Vacant (Unfinished manager) manager.tasks) :
    ∃ next, manager.sjf cpustate = some (cpustate, next) ∧
      next.currentTask = manager.currentTask := by
  have stopped : ¬ ∃ slot task, Continues manager slot task := by
    rintro ⟨slot, task, -, held, unfinished⟩
    exact vacant task (List.mem_of_getElem? held) unfinished
  rcases sjf_searches manager cpustate valid used stopped with
    ⟨-, returned⟩ | ⟨slot, task, -, chosen⟩
  · exact returned
  · exact absurd chosen.allowed (vacant task chosen.member)

section Reordered

variable (other : Manager) (pointer : Address) (valid : Valid manager) (otherValid : Valid other)
  (objects : other.objects = manager.objects) (reordered : other.tasks.Perm manager.tasks)
include valid otherValid objects reordered

/-- The priority chosen does not depend on the order of registration. -/
theorem priority_order_independent (slot rival : Nat) (task rivalTask : Address)
    (selects : Selects (manager.prioritySchedule cpustate) slot task)
    (rivals : Selects (other.prioritySchedule pointer) rival rivalTask)
    (used : manager.tasks ≠ []) :
    (manager.objects rivalTask).priority = (manager.objects task).priority := by
  have otherUsed : other.tasks ≠ [] := fun empty =>
    used (List.nil_perm.mp (empty ▸ reordered))
  obtain ⟨first, firstTask, firstSelects, chosen⟩ :=
    prioritySchedule_selects manager cpustate valid used
  obtain ⟨second, secondTask, secondSelects, otherChosen⟩ :=
    prioritySchedule_selects other pointer otherValid otherUsed
  obtain ⟨rfl, rfl⟩ := selects_unique _ _ _ _ _ selects firstSelects
  obtain ⟨rfl, rfl⟩ := selects_unique _ _ _ _ _ rivals secondSelects
  have keys : keyOf other Task.priority = keyOf manager Task.priority := by
    simp only [funext_iff, keyOf, objects, implies_true]
  rw [keys] at otherChosen
  exact BitVec.eq_of_toNat_eq (chosen.key_eq_of_perm reordered otherChosen)

/-- The burst time newly chosen does not depend on the order of registration. -/
theorem burst_order_independent (slot rival : Nat) (task rivalTask : Address)
    (selects : Selects (manager.sjf cpustate) slot task)
    (rivals : Selects (other.sjf pointer) rival rivalTask)
    (stopped : ¬ ∃ slot task, Continues manager slot task)
    (otherStopped : ¬ ∃ slot task, Continues other slot task)
    (unfinished : ∃ task ∈ manager.tasks, Unfinished manager task) :
    (manager.objects rivalTask).burstTime = (manager.objects task).burstTime := by
  have allowed : Unfinished other = Unfinished manager := by
    simp only [funext_iff, Unfinished, objects, implies_true]
  have otherUnfinished : ∃ task ∈ other.tasks, Unfinished other task := by
    obtain ⟨waiting, member, ready⟩ := unfinished
    exact ⟨waiting, reordered.mem_iff.mpr member, allowed ▸ ready⟩
  obtain ⟨first, firstTask, firstSelects, chosen⟩ :=
    sjf_chooses manager cpustate valid stopped unfinished
  obtain ⟨second, secondTask, secondSelects, otherChosen⟩ :=
    sjf_chooses other pointer otherValid otherStopped otherUnfinished
  obtain ⟨rfl, rfl⟩ := selects_unique _ _ _ _ _ selects firstSelects
  obtain ⟨rfl, rfl⟩ := selects_unique _ _ _ _ _ rivals secondSelects
  have keys : keyOf other Task.burstTime = keyOf manager Task.burstTime := by
    simp only [funext_iff, keyOf, objects, implies_true]
  rw [keys, allowed] at otherChosen
  exact BitVec.eq_of_toNat_eq (chosen.key_eq_of_perm reordered otherChosen)

end Reordered

/-- From every state the two policies choose by a stable argmin, `sjf` once its
current task is finished, and the key chosen is that of any other order of the
registrations. -/
theorem policies_choose_leftmost_least (valid : Valid manager) (used : manager.tasks ≠ []) :
    (∃ slot task, Selects (manager.prioritySchedule cpustate) slot task ∧
        Chosen (keyOf manager Task.priority) (fun _ => True) manager.tasks slot task) ∧
      (∀ slot task, Continues manager slot task → Selects (manager.sjf cpustate) slot task) ∧
      ((¬ ∃ slot task, Continues manager slot task) →
        (∃ task ∈ manager.tasks, Unfinished manager task) →
          ∃ slot task, Selects (manager.sjf cpustate) slot task ∧
            Chosen (keyOf manager Task.burstTime) (Unfinished manager) manager.tasks slot task) ∧
      (Vacant (Unfinished manager) manager.tasks →
        ∃ next, manager.sjf cpustate = some (cpustate, next) ∧
          next.currentTask = manager.currentTask) ∧
      ∀ other, Valid other → other.objects = manager.objects → other.tasks.Perm manager.tasks →
        ∀ pointer slot rival task rivalTask,
          (Selects (manager.prioritySchedule cpustate) slot task →
            Selects (other.prioritySchedule pointer) rival rivalTask →
              (manager.objects rivalTask).priority = (manager.objects task).priority) ∧
          (Selects (manager.sjf cpustate) slot task → Selects (other.sjf pointer) rival rivalTask →
            (¬ ∃ slot task, Continues manager slot task) →
            (¬ ∃ slot task, Continues other slot task) →
            (∃ task ∈ manager.tasks, Unfinished manager task) →
              (manager.objects rivalTask).burstTime = (manager.objects task).burstTime) := by
  refine ⟨prioritySchedule_selects manager cpustate valid used,
    sjf_keeps manager cpustate valid, sjf_chooses manager cpustate valid,
    sjf_returns manager cpustate valid used, ?_⟩
  intro other otherValid objects reordered pointer slot rival task rivalTask
  constructor
  · intro selects rivals
    exact priority_order_independent manager cpustate other pointer valid otherValid objects
      reordered slot rival task rivalTask selects rivals used
  · intro selects rivals
    exact burst_order_independent manager cpustate other pointer valid otherValid objects
      reordered slot rival task rivalTask selects rivals

/-- Two tasks, the one registered later being shorter and more urgent. -/
def twoJobs : Manager where
  tasks := [0x5000, 0x7000]
  currentTask := -1
  objects := fun task => if task = 0x5000 then ⟨0x5FCC, 5, 5, 2⟩ else ⟨0x7FCC, 3, 3, 1⟩

theorem policies_choose_leftmost_least_two_jobs :
    ∃ slot task, Selects (twoJobs.sjf 0x100) slot task ∧
      Chosen (keyOf twoJobs Task.burstTime) (Unfinished twoJobs) twoJobs.tasks slot task :=
  (policies_choose_leftmost_least twoJobs 0x100 ⟨by decide, by decide, by decide⟩
    (by decide)).2.2.1 (by rintro ⟨slot, task, current, -⟩; simp [twoJobs] at current)
      ⟨0x7000, by decide, by unfold Unfinished; decide⟩

end BlueOs.StableSelection
