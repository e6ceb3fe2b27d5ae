import BlueOs.StableSelection

/-!
# The non-preemptive policies over whole bursts

`fcfs` and `sjf` should serve one task for its whole burst and then the next. Only
`srtf` ever takes a tick from a remaining time: under the other two the first task
selected stays unfinished and is selected for ever. The order of service is kept
exactly when there is no second task to move on to.
-/

namespace BlueOs.RunToCompletion

open ByteMemory TaskManager SchedulerSteps Selection StableSelection LeftmostLeast

inductive NonPreemptive where
  | fcfs
  | sjf
deriving DecidableEq

def NonPreemptive.policy : NonPreemptive → Policy
  | fcfs => .fcfs
  | sjf => .sjf

/-- The order of service: by registration, or by burst time with ties by
registration. -/
def NonPreemptive.order (burst : Address → Word) :
    NonPreemptive → List Address → List Address
  | fcfs, tasks => tasks
  | sjf, tasks =>
    tasks.mergeSort fun earlier later => decide ((burst earlier).toNat ≤ (burst later).toNat)

/-- Every task for as many consecutive ticks as its burst is long. -/
def service (burst : Address → Word) (order : List Address) : List Address :=
  order.flatMap fun task => List.replicate (burst task).toNat task

/-- The manager and the tasks selected so far, in order. -/
structure Traced where
  manager : Manager
  selections : List Address

def step (policy : NonPreemptive) (traced : Traced) (cpustate : Address) : Option Traced :=
  (policy.policy.tick traced.manager cpustate).map fun result =>
    { manager := result.2
      selections := traced.selections ++ (result.2.slot result.2.currentTask).toList }

def start (burst prio : Address → Word) (tasks : List Address) : Traced where
  manager := registered burst prio tasks
  selections := []

/-- A call of `fcfs` saves and resumes the current task, at first that of slot 0. -/
theorem fcfs_next (manager : Manager) (cpustate : Address) (slot : Nat) (task : Address)
    (now : (if manager.currentTask = -1 then 0 else manager.currentTask) = slot)
    (used : manager.tasks[slot]? = some task) :
    Selects (manager.fcfs cpustate) slot task ∧ ∀ returned next,
      manager.fcfs cpustate = some (returned, next) → SameJobs manager next := by
  have occupied : ¬ manager.numTasks = 0 := by
    have inside := (List.getElem?_eq_some_iff.mp used).1
    simp only [Manager.numTasks]
    omega
  have first : (if manager.currentTask = -1 then manager.setCurrent 0 else manager) =
      manager.setCurrent slot := by
    rw [← now]
    split <;> rfl
  obtain ⟨saved, save, tasks, current, objects⟩ : ∃ saved,
      (manager.setCurrent slot).saveContext slot cpustate = some saved ∧
        saved.tasks = manager.tasks ∧ saved.currentTask = slot ∧
        saved.objects = Function.update manager.objects task
          { manager.objects task with cpustate := cpustate } := by
    refine ⟨{ manager.setCurrent slot with
      objects := Function.update manager.objects task
        { manager.objects task with cpustate := cpustate } }, ?_, rfl, rfl, rfl⟩
    simp [Manager.saveContext, Manager.modify, Manager.setCurrent, used]
  have called : manager.fcfs cpustate = (saved.setCurrent slot).resumeCurrent := by
    have same : saved.setCurrent slot = saved := by
      rw [← current]
      rfl
    simp only [Manager.fcfs, occupied, if_false, first, Option.bind_eq_bind, same]
    rw [show (manager.setCurrent slot).currentTask = slot from rfl, save, Option.bind_some]
  constructor
  · rw [called]
    apply resume_selects
    rw [tasks]
    exact used
  · intro returned next outcome
    rw [called, Manager.resumeCurrent, Option.map_eq_some_iff] at outcome
    obtain ⟨_, -, same⟩ := outcome
    obtain ⟨-, rfl⟩ := Prod.mk.inj same
    constructor <;> intro other <;>
      simp only [Manager.setCurrent, objects, Function.update_apply] <;> split <;> simp_all

/-- A call of `sjf` changes no task but in its context. -/
theorem sjf_jobs (manager : Manager) (cpustate returned : Address) (next : Manager)
    (outcome : manager.sjf cpustate = some (returned, next)) : SameJobs manager next := by
  have unchanged : ∀ other : Manager, other.objects = manager.objects → SameJobs manager other := by
    intro other same
    constructor <;> intro task <;> rw [same]
  by_cases vacant : manager.numTasks = 0
  · simp only [Manager.sjf, vacant, if_true, Option.some.injEq, Prod.mk.injEq] at outcome
    exact unchanged next (by rw [outcome.2])
  · simp only [Manager.sjf, vacant, if_false, Option.bind_eq_bind,
      Option.bind_eq_some_iff] at outcome
    obtain ⟨saved, save, continues, -, outcome⟩ := outcome
    have jobs := saveCurrent_jobs manager saved cpustate save
    -- Every branch returns the saved manager, perhaps with another current task.
    have objects : next.objects = saved.objects := by
      split at outcome
      · simp only [Manager.resumeCurrent, Option.map_eq_some_iff, Prod.mk.injEq] at outcome
        obtain ⟨_, -, -, rfl⟩ := outcome
        rfl
      · obtain ⟨best, -, outcome⟩ := Option.bind_eq_some_iff.mp outcome
        split at outcome
        · simp only [Option.some.injEq, Prod.mk.injEq] at outcome
          rw [outcome.2]
        · simp only [Manager.resumeCurrent, Option.map_eq_some_iff, Prod.mk.injEq] at outcome
          obtain ⟨_, -, -, rfl⟩ := outcome
          rfl
    constructor <;> intro task <;> rw [objects]
    · exact jobs.burstTime task
    · exact jobs.remainingTime task
    · exact jobs.priority task

/-- A call of either policy whose selection is known, with all it keeps. -/
theorem tick_next (policy : NonPreemptive) (manager : Manager) (valid : Valid manager)
    (cpustate : Address) (slot : Nat) (task : Address)
    (selects : Selects (policy.policy.tick manager cpustate) slot task)
    (jobs : ∀ returned next, policy.policy.tick manager cpustate = some (returned, next) →
      SameJobs manager next) (selections : List Address) :
    ∃ next, step policy ⟨manager, selections⟩ cpustate = some ⟨next, selections ++ [task]⟩ ∧
      Valid next ∧ next.tasks = manager.tasks ∧ next.currentTask = slot ∧
      SameJobs manager next := by
  obtain ⟨returned, next, called, nextValid, tasks⟩ :=
    tick_valid policy.policy manager valid cpustate
  obtain ⟨again, other, same, current, held, -⟩ := selects
  obtain ⟨rfl, rfl⟩ := Prod.mk.inj (Option.some.inj (called.symm.trans same))
  refine ⟨next, ?_, nextValid, tasks, current, jobs returned next called⟩
  have read : next.slot next.currentTask = some task := by
    rw [current, slot_natCast]
    exact held
  simp only [step, called, Option.map_some, read, Option.toList_some]

variable (burst prio : Address → Word) (tasks : List Address)

/-- One task, still with its whole burst before it, was selected by every call. -/
structure Pinned (slot : Nat) (champion : Address) (calls : Nat) (traced : Traced) : Prop where
  valid : Valid traced.manager
  table : traced.manager.tasks = tasks
  current : traced.manager.currentTask = slot
  here : tasks[slot]? = some champion
  whole : (traced.manager.objects champion).remainingTime = burst champion
  selections : traced.selections = List.replicate calls champion

variable {burst prio tasks}

/-- The task selected stays selected. -/
theorem pinned_next (policy : NonPreemptive) (positive : ∀ task ∈ tasks, 0 < (burst task).toNat)
    {slot calls : Nat} {champion : Address} (traced : Traced)
    (pinned : Pinned burst tasks slot champion calls traced) (cpustate : Address) :
    ∃ next, step policy traced cpustate = some next ∧
      Pinned burst tasks slot champion (calls + 1) next := by
  have used : traced.manager.tasks[slot]? = some champion := by
    rw [pinned.table]
    exact pinned.here
  obtain ⟨selects, jobs⟩ : Selects (policy.policy.tick traced.manager cpustate) slot champion ∧
      ∀ returned next, policy.policy.tick traced.manager cpustate = some (returned, next) →
        SameJobs traced.manager next := by
    cases policy with
    | fcfs =>
      apply fcfs_next traced.manager cpustate slot champion ?_ used
      have running : ¬ traced.manager.currentTask = -1 := by
        rw [pinned.current]
        omega
      rw [if_neg running]
      exact pinned.current
    | sjf =>
      refine ⟨sjf_keeps traced.manager cpustate pinned.valid slot champion
        ⟨pinned.current, used, ?_⟩, fun returned next called =>
          sjf_jobs traced.manager cpustate returned next called⟩
      rw [Unfinished, pinned.whole, BitVec.lt_def]
      exact positive champion (List.mem_of_getElem? pinned.here)
  obtain ⟨next, taken, valid, table, current, same⟩ := tick_next policy traced.manager pinned.valid
    cpustate slot champion selects jobs traced.selections
  refine ⟨_, taken, valid, table.trans pinned.table, current, pinned.here, ?_, ?_⟩
  · rw [same.remainingTime]
    exact pinned.whole
  · simp only [pinned.selections, List.replicate_succ']

variable (prio) in
/-- The first call selects a task. -/
theorem start_pinned (policy : NonPreemptive) (capacity : tasks.length ≤ 256)
    (positive : ∀ task ∈ tasks, 0 < (burst task).toNat) (used : tasks ≠ []) (cpustate : Address) :
    ∃ next slot champion, step policy (start burst prio tasks) cpustate = some next ∧
      Pinned burst tasks slot champion 1 next := by
  have valid := registered_valid burst prio tasks capacity
  have registers := registered_eq burst prio tasks capacity
  have table : (registered burst prio tasks).tasks = tasks := by rw [registers]
  have none : (registered burst prio tasks).currentTask = -1 := by rw [registers]
  have whole : ∀ task, ((registered burst prio tasks).objects task).remainingTime = burst task := by
    intro task
    rw [registers]
    rfl
  obtain ⟨slot, champion, selects, jobs⟩ : ∃ slot champion,
      Selects (policy.policy.tick (registered burst prio tasks) cpustate) slot champion ∧
      ∀ returned next, policy.policy.tick (registered burst prio tasks) cpustate =
        some (returned, next) → SameJobs (registered burst prio tasks) next := by
    have long : 0 < tasks.length := List.length_pos_iff.mpr used
    cases policy with
    | fcfs =>
      refine ⟨0, tasks[0], fcfs_next _ cpustate 0 tasks[0] ?_ ?_⟩
      · rw [none]
        rfl
      · rw [table]
        exact List.getElem?_eq_getElem long
    | sjf =>
      obtain ⟨slot, champion, selects, -⟩ := sjf_chooses (registered burst prio tasks) cpustate
        valid (by
          rintro ⟨slot, task, current, -⟩
          omega) ⟨tasks[0], by rw [table]; exact List.getElem_mem long, by
          rw [Unfinished, whole, BitVec.lt_def]
          exact positive _ (List.getElem_mem long)⟩
      exact ⟨slot, champion, selects, fun returned next called =>
        sjf_jobs _ cpustate returned next called⟩
  obtain ⟨next, taken, nextValid, kept, current, same⟩ :=
    tick_next policy _ valid cpustate slot champion selects jobs []
  refine ⟨_, slot, champion, taken, nextValid, kept.trans table, current, ?_, ?_, rfl⟩
  · obtain ⟨returned, other, called, now, held, -⟩ := selects
    obtain ⟨pointer, again, recalled, -, sameTasks⟩ :=
      tick_valid policy.policy (registered burst prio tasks) valid cpustate
    obtain ⟨-, rfl⟩ := Prod.mk.inj (Option.some.inj (called.symm.trans recalled))
    rw [sameTasks, table] at held
    exact held
  · rw [same.remainingTime, whole]

variable (prio) in
/-- Every call selects the task that the first call selected. -/
theorem run_selections (policy : NonPreemptive) (capacity : tasks.length ≤ 256)
    (positive : ∀ task ∈ tasks, 0 < (burst task).toNat) (used : tasks ≠ [])
    (calls : List Address) :
    ∃ final champion, Runs.run (step policy) calls (start burst prio tasks) = some final ∧
      champion ∈ tasks ∧ final.selections = List.replicate calls.length champion := by
  cases calls with
  | nil => exact ⟨_, tasks.head used, rfl, List.head_mem used, rfl⟩
  | cons cpustate rest =>
    obtain ⟨first, slot, champion, taken, pinned⟩ :=
      start_pinned prio policy capacity positive used cpustate
    obtain ⟨final, completed, count, held, total⟩ := Runs.run_total (step policy)
      (fun later traced => ∃ count, Pinned burst tasks slot champion count traced ∧
        count + later.length = rest.length + 1)
      (by
        rintro call later traced ⟨count, held, total⟩
        obtain ⟨next, advanced, following⟩ := pinned_next policy positive traced held call
        refine ⟨next, advanced, count + 1, following, ?_⟩
        rw [List.length_cons] at total
        omega)
      rest first ⟨1, pinned, by omega⟩
    rw [List.length_nil, Nat.add_zero] at total
    refine ⟨final, champion, ?_, List.mem_of_getElem? pinned.here, ?_⟩
    · rw [Runs.run_cons, taken, Option.bind_some, completed]
    · rw [held.selections, total, List.length_cons]

/-- Every task with a burst is served, in either order. -/
theorem mem_service (policy : NonPreemptive) (task : Address) (member : task ∈ tasks)
    (positive : 0 < (burst task).toNat) : task ∈ service burst (policy.order burst tasks) := by
  have ordered : task ∈ policy.order burst tasks := by
    cases policy with
    | fcfs => exact member
    | sjf => exact List.mem_mergeSort.mpr member
  exact List.mem_flatMap.mpr
    ⟨task, ordered, List.mem_replicate.mpr ⟨Nat.pos_iff_ne_zero.mp positive, rfl⟩⟩

/-- Over as many calls as all bursts together are long, a non-preemptive policy
serves every task for its whole burst and in order exactly if at most one task is
registered. -/
theorem runs_to_completion_iff (policy : NonPreemptive) (burst prio : Address → Word)
    (tasks : List Address) (distinct : tasks.Nodup) (capacity : tasks.length ≤ 256)
    (positive : ∀ task ∈ tasks, 0 < (burst task).toNat) (calls : List Address)
    (enough : calls.length = (tasks.map fun task => (burst task).toNat).sum) :
    (∃ final, Runs.run (step policy) calls (start burst prio tasks) = some final ∧
      final.selections = service burst (policy.order burst tasks)) ↔ tasks.length ≤ 1 := by
  by_cases used : tasks = []
  · subst used
    obtain rfl : calls = [] := List.length_eq_zero_iff.mp enough
    have empty : service burst (policy.order burst []) = [] := by
      cases policy <;> simp [service, NonPreemptive.order]
    simp [start, empty]
  · obtain ⟨final, champion, completed, member, selections⟩ :=
      run_selections prio policy capacity positive used calls
    constructor
    · rintro ⟨other, again, served⟩
      obtain rfl := Option.some.inj (again.symm.trans completed)
      have all : ∀ task ∈ tasks, task = champion := by
        intro task here
        have demanded := mem_service policy task here (positive task here)
        rw [← served, selections] at demanded
        exact List.eq_of_mem_replicate demanded
      have same : tasks = List.replicate tasks.length champion :=
        List.eq_replicate_iff.mpr ⟨rfl, all⟩
      rw [same] at distinct
      exact List.nodup_replicate.mp distinct
    · intro single
      obtain ⟨task, rfl⟩ : ∃ task, tasks = [task] := by
        have long := List.length_pos_iff.mpr used
        exact List.length_eq_one_iff.mp (by omega)
      rw [List.mem_singleton.mp member] at selections
      have ordered : policy.order burst [task] = [task] := by
        cases policy with
        | fcfs => rfl
        | sjf => exact List.mergeSort_singleton task
      refine ⟨final, completed, ?_⟩
      simpa [service, ordered, enough] using selections

theorem runs_to_completion_iff_one_task :
    ∃ final, Runs.run (step .sjf) [0x100, 0x5800, 0x5800]
        (start (fun _ => 3) (fun _ => 1) [0x5000]) = some final ∧
      final.selections =
        service (fun _ => 3) (NonPreemptive.sjf.order (fun _ => 3) [0x5000]) :=
  (runs_to_completion_iff .sjf (fun _ => 3) (fun _ => 1) [0x5000] (by decide) (by decide)
    (by intro task _; decide) [0x100, 0x5800, 0x5800] (by decide)).mpr (by decide)

/-- Two tasks of one tick each: the second one is not served. -/
theorem two_ticks_pinned (policy : NonPreemptive) :
    ∃ final, Runs.run (step policy) [0x100, 0x5800]
        (start (fun _ => 1) (fun _ => 1) [0x5000, 0x7000]) = some final ∧
      final.selections = [0x5000, 0x5000] ∧
      final.selections ≠ service (fun _ => 1) (policy.order (fun _ => 1) [0x5000, 0x7000]) := by
  obtain ⟨final, completed, selections⟩ : ∃ final, Runs.run (step policy) [0x100, 0x5800]
      (start (fun _ => 1) (fun _ => 1) [0x5000, 0x7000]) = some final ∧
        final.selections = [0x5000, 0x5000] := by
    cases policy <;> exact ⟨_, rfl, by decide⟩
  refine ⟨final, completed, selections, ?_⟩
  intro served
  have waits : (0x7000 : Address) ∈ service (fun _ => 1)
      (policy.order (fun _ => 1) [0x5000, 0x7000]) :=
    mem_service policy 0x7000 (by decide) (by decide)
  rw [← served, selections] at waits
  exact absurd waits (by decide)

/-- Both policies select the first of two tasks twice. -/
theorem first_task_pinned :
    (∃ final, Runs.run (step .fcfs) [0x100, 0x5800]
        (start (fun _ => 1) (fun _ => 1) [0x5000, 0x7000]) = some final ∧
      final.selections = [0x5000, 0x5000] ∧ final.selections ≠
        service (fun _ => 1) (NonPreemptive.fcfs.order (fun _ => 1) [0x5000, 0x7000])) ∧
      ∃ final, Runs.run (step .sjf) [0x100, 0x5800]
        (start (fun _ => 1) (fun _ => 1) [0x5000, 0x7000]) = some final ∧
      final.selections = [0x5000, 0x5000] ∧ final.selections ≠
        service (fun _ => 1) (NonPreemptive.sjf.order (fun _ => 1) [0x5000, 0x7000]) :=
  ⟨two_ticks_pinned .fcfs, two_ticks_pinned .sjf⟩

end BlueOs.RunToCompletion
