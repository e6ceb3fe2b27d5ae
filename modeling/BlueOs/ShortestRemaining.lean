import BlueOs.SchedulerSteps

/-!
# The accounts of shortest remaining time first

Every call of `srtf` charges the task it left current before. The least remaining
time only gets smaller while it is charged, so one task, the leftmost of least burst
time, is served from the first call on. The search does not skip finished tasks and
the charge does not stop at zero: once that task is finished it stays the least, and
the call after that takes its remaining time below zero.

The accounts are therefore kept exactly as long as the calls do not use up the
shortest burst, or use it up with no other task waiting.
-/

namespace BlueOs.ShortestRemaining

open ByteMemory TaskManager SchedulerSteps Selection LeftmostLeast

/-- The manager, the ticks charged to each task and the tasks before the last call. -/
structure Traced where
  manager : Manager
  charges : Address → Nat
  previous : Address → Task

/-- A call charges the task that was current before it. -/
def step (traced : Traced) (cpustate : Address) : Option Traced :=
  (traced.manager.srtf cpustate).map fun result =>
    { manager := result.2
      charges := match traced.manager.slot traced.manager.currentTask with
        | some task => Function.update traced.charges task (traced.charges task + 1)
        | none => traced.charges
      previous := traced.manager.objects }

def start (burst prio : Address → Word) (tasks : List Address) : Traced where
  manager := registered burst prio tasks
  charges := fun _ => 0
  previous := (registered burst prio tasks).objects

/-- What the policy promises of every state: each remaining time is the burst time
less the ticks charged and has not grown, and while a task is unfinished a call
leaves an unfinished task of least remaining time current. -/
structure Accounts (traced : Traced) : Prop where
  charged : ∀ task ∈ traced.manager.tasks,
    ((traced.manager.objects task).remainingTime.toNat : Int) =
      (traced.manager.objects task).burstTime.toNat - traced.charges task
  bounded : ∀ task ∈ traced.manager.tasks,
    (traced.manager.objects task).remainingTime ≤ (traced.manager.objects task).burstTime
  decreasing : ∀ task ∈ traced.manager.tasks,
    (traced.manager.objects task).remainingTime ≤ (traced.previous task).remainingTime
  chosen : traced.manager.currentTask ≠ -1 →
    (∃ task ∈ traced.manager.tasks, Unfinished traced.manager task) →
      ∃ task, traced.manager.slot traced.manager.currentTask = some task ∧
        Unfinished traced.manager task ∧
        ∀ other ∈ traced.manager.tasks, Unfinished traced.manager other →
          (traced.manager.objects task).remainingTime ≤
            (traced.manager.objects other).remainingTime

/-- A call that leaves the table to the search alone, after the charge. -/
theorem srtf_searches (manager charged : Manager) (cpustate : Address)
    (used : manager.tasks ≠ []) (charge : manager.charge cpustate = some charged)
    (same : charged.tasks = manager.tasks) :
    ∃ (slot : Nat) (task : Address),
      Chosen (keyOf charged Task.remainingTime) (fun _ => True) charged.tasks slot task ∧
      manager.srtf cpustate =
        some ((charged.objects task).cpustate, charged.setCurrent slot) := by
  have occupied : ¬ manager.numTasks = 0 := by simpa [Manager.numTasks] using used
  obtain ⟨slot, task, found, chosen⟩ := least_chosen charged Task.remainingTime (by
    rw [same]
    exact used)
  have read : (charged.setCurrent slot).slot slot = some task :=
    (slot_natCast _ _).trans chosen.here
  refine ⟨slot, task, chosen, ?_⟩
  simp only [Manager.srtf, occupied, if_false, charge, Option.bind_eq_bind, Option.bind_some,
    found, Manager.resumeCurrent, Manager.taskAt]
  rw [show (charged.setCurrent slot).currentTask = slot from rfl, read]
  rfl

variable (burst prio : Address → Word) (tasks : List Address)

/-- One task was charged every tick so far, and has no greater burst time than any. -/
structure Serving (slot : Nat) (champion : Address) (ticks : Nat) (traced : Traced) : Prop where
  table : traced.manager.tasks = tasks
  current : traced.manager.currentTask = slot
  here : tasks[slot]? = some champion
  shortest : ∀ task ∈ tasks, (burst champion).toNat ≤ (burst task).toNat
  bursts : ∀ task, (traced.manager.objects task).burstTime = burst task
  served : (traced.manager.objects champion).remainingTime.toNat + ticks = (burst champion).toNat
  waiting : ∀ task ≠ champion, (traced.manager.objects task).remainingTime = burst task
  charges : ∀ task, traced.charges task = if task = champion then ticks else 0
  decreasing : ∀ task,
    (traced.manager.objects task).remainingTime ≤ (traced.previous task).remainingTime

variable {burst prio tasks}

/-- The table shows the task served at the current slot. -/
theorem serving_slot {slot ticks : Nat} {champion : Address} {traced : Traced}
    (serving : Serving burst tasks slot champion ticks traced) :
    traced.manager.slot traced.manager.currentTask = some champion := by
  rw [serving.current, slot_natCast, serving.table]
  exact serving.here

/-- A call made while that task is current charges it one tick. -/
theorem serving_charges {slot ticks : Nat} {champion : Address} {traced : Traced}
    (serving : Serving burst tasks slot champion ticks traced) (cpustate : Address) :
    ∃ next chosenSlot task, step traced cpustate = some next ∧
      Chosen (keyOf next.manager Task.remainingTime) (fun _ => True) tasks chosenSlot task ∧
      next.manager.tasks = tasks ∧ next.manager.currentTask = chosenSlot ∧
      next.previous = traced.manager.objects ∧
      next.charges = Function.update traced.charges champion (ticks + 1) ∧
      next.manager.objects = Function.update traced.manager.objects champion
        { traced.manager.objects champion with
          cpustate := cpustate
          remainingTime := (traced.manager.objects champion).remainingTime - 1 } := by
  have running : 0 ≤ traced.manager.currentTask := by
    rw [serving.current]
    exact Int.natCast_nonneg slot
  have used := serving_slot serving
  have nonempty : traced.manager.tasks ≠ [] := by
    rw [serving.table]
    exact List.ne_nil_of_mem (List.mem_of_getElem? serving.here)
  obtain ⟨charged, charge, table, objects⟩ : ∃ charged,
      traced.manager.charge cpustate = some charged ∧ charged.tasks = traced.manager.tasks ∧
        charged.objects = Function.update traced.manager.objects champion
          { traced.manager.objects champion with
            cpustate := cpustate
            remainingTime := (traced.manager.objects champion).remainingTime - 1 } :=
    ⟨_, charge_used traced.manager cpustate champion running used, rfl, rfl⟩
  obtain ⟨chosenSlot, task, chosen, called⟩ :=
    srtf_searches traced.manager charged cpustate nonempty charge table
  have count : traced.charges champion = ticks := by
    rw [serving.charges, if_pos rfl]
  have taken : step traced cpustate = some
      { manager := charged.setCurrent chosenSlot
        charges := Function.update traced.charges champion (ticks + 1)
        previous := traced.manager.objects } := by
    simp only [step, called, Option.map_some, used, count]
  rw [table, serving.table] at chosen
  exact ⟨_, chosenSlot, task, taken, chosen, table.trans serving.table, rfl, rfl, rfl, objects⟩

/-- While its burst is not used up, the task served stays the least. -/
theorem serving_next (distinct : tasks.Nodup) {slot ticks : Nat} {champion : Address}
    {traced : Traced} (serving : Serving burst tasks slot champion ticks traced)
    (unspent : ticks < (burst champion).toNat) (cpustate : Address) :
    ∃ next, step traced cpustate = some next ∧
      Serving burst tasks slot champion (ticks + 1) next := by
  obtain ⟨next, chosenSlot, task, taken, chosen, table, current, previous, charges, objects⟩ :=
    serving_charges serving cpustate
  have served := serving.served
  have charged : (next.manager.objects champion).remainingTime.toNat + (ticks + 1) =
      (burst champion).toNat := by
    rw [objects, Function.update_self]
    bv_omega
  have others : ∀ other ≠ champion, (next.manager.objects other).remainingTime = burst other := by
    intro other different
    rw [objects, Function.update_of_ne different]
    exact serving.waiting other different
  -- The others still have their whole bursts before them.
  have same : task = champion := by
    by_contra different
    have smallest := chosen.least champion (List.mem_of_getElem? serving.here) trivial
    have whole := serving.shortest task chosen.member
    simp only [keyOf, others task different] at smallest
    omega
  subst same
  have slots : chosenSlot = slot := by
    have inside := chosen.inside
    exact (List.getElem?_inj inside distinct).mp (chosen.here.trans serving.here.symm)
  subst slots
  refine ⟨next, taken, table, current, serving.here, serving.shortest, ?_, charged, others, ?_, ?_⟩
  · intro other
    rw [objects]
    by_cases different : other = task
    · rw [different, Function.update_self]
      exact serving.bursts task
    · rw [Function.update_of_ne different]
      exact serving.bursts other
  · intro other
    rw [charges]
    by_cases different : other = task
    · rw [different, Function.update_self, if_pos rfl]
    · rw [Function.update_of_ne different, serving.charges, if_neg different, if_neg different]
  · intro other
    rw [objects, previous]
    by_cases different : other = task
    · rw [different, Function.update_self]
      have positive : 0 < (traced.manager.objects task).remainingTime.toNat := by omega
      simp only
      bv_omega
    · rw [Function.update_of_ne different]
      exact BitVec.le_refl _

/-- A task is alone if there is no other. -/
theorem only_member {tasks : List Address} {champion : Address} (distinct : tasks.Nodup)
    (member : champion ∈ tasks) (alone : ¬∃ other ∈ tasks, other ≠ champion) :
    tasks = [champion] := by
  have same : ∀ other ∈ tasks, other = champion := by
    intro other otherMember
    by_contra different
    exact alone ⟨other, otherMember, different⟩
  cases tasks with
  | nil => cases member
  | cons first rest =>
    obtain rfl := same first List.mem_cons_self
    have none : rest = [] := by
      apply List.eq_nil_iff_forall_not_mem.mpr
      intro other later
      obtain rfl := same other (List.mem_cons_of_mem first later)
      exact (List.nodup_cons.mp distinct).1 later
    rw [none]

/-- Only the task served may be unfinished without a burst left. -/
theorem serving_unspent {slot ticks : Nat} {champion : Address} {traced : Traced}
    (positive : ∀ task ∈ tasks, 0 < (burst task).toNat)
    (serving : Serving burst tasks slot champion ticks traced) (accounts : Accounts traced)
    {other : Address} (otherMember : other ∈ tasks) (different : other ≠ champion) :
    ticks < (burst champion).toNat := by
  have served := serving.served
  have current : traced.manager.currentTask ≠ -1 := by
    rw [serving.current]
    omega
  -- The other task waits with its whole burst.
  have waits : Unfinished traced.manager other := by
    rw [Unfinished, serving.waiting other different, BitVec.lt_def]
    exact positive other otherMember
  rw [← serving.table] at otherMember
  obtain ⟨task, now, unfinished, -⟩ := accounts.chosen current ⟨other, otherMember, waits⟩
  obtain rfl := Option.some.inj ((serving_slot serving).symm.trans now)
  rw [Unfinished, BitVec.lt_def] at unfinished
  have zero : (0 : Word).toNat = 0 := rfl
  omega

/-- The accounts while one task is served. -/
theorem serving_accounts {slot ticks : Nat} {champion : Address} {traced : Traced}
    (positive : ∀ task ∈ tasks, 0 < (burst task).toNat) (distinct : tasks.Nodup)
    (serving : Serving burst tasks slot champion ticks traced) :
    Accounts traced ↔ ticks < (burst champion).toNat ∨ tasks = [champion] := by
  have served := serving.served
  have member : champion ∈ tasks := List.mem_of_getElem? serving.here
  constructor
  · intro accounts
    by_cases alone : ∃ other ∈ tasks, other ≠ champion
    · obtain ⟨other, otherMember, different⟩ := alone
      exact Or.inl (serving_unspent positive serving accounts otherMember different)
    · exact Or.inr (only_member distinct member alone)
  · intro unspent
    refine ⟨?_, ?_, fun task _ => serving.decreasing task, ?_⟩
    · intro task _
      rw [serving.bursts, serving.charges]
      by_cases same : task = champion
      · rw [same, if_pos rfl]
        omega
      · rw [serving.waiting task same, if_neg same]
        omega
    · intro task _
      rw [serving.bursts, BitVec.le_def]
      by_cases same : task = champion
      · rw [same]
        omega
      · rw [serving.waiting task same]
    · rintro - ⟨waiting, waitingMember, unfinished⟩
      refine ⟨champion, serving_slot serving, ?_, ?_⟩
      · rcases unspent with early | only
        · rw [Unfinished, BitVec.lt_def]
          have zero : (0 : Word).toNat = 0 := rfl
          omega
        · rw [serving.table, only, List.mem_singleton] at waitingMember
          rw [← waitingMember]
          exact unfinished
      · intro other otherMember _
        rw [serving.table] at otherMember
        rw [BitVec.le_def]
        by_cases same : other = champion
        · rw [same]
        · have shortest := serving.shortest other otherMember
          rw [serving.waiting other same]
          omega

/-- The call after the burst was used up takes the remaining time below zero. -/
theorem serving_wraps {slot ticks : Nat} {champion : Address} {traced : Traced}
    (serving : Serving burst tasks slot champion ticks traced)
    (spent : ticks = (burst champion).toNat) (cpustate : Address) :
    ∃ next, step traced cpustate = some next ∧ ¬ Accounts next := by
  obtain ⟨next, chosenSlot, task, taken, -, table, -, -, charges, objects⟩ :=
    serving_charges serving cpustate
  refine ⟨next, taken, ?_⟩
  intro accounts
  have charged := accounts.charged champion (by
    rw [table]
    exact List.mem_of_getElem? serving.here)
  rw [charges, objects, Function.update_self, Function.update_self] at charged
  simp only [serving.bursts] at charged
  omega

/-- The accounts of all the calls made while one task is served. -/
theorem serving_throughout (positive : ∀ task ∈ tasks, 0 < (burst task).toNat)
    (distinct : tasks.Nodup) {slot ticks : Nat} {champion : Address} (calls : List Address)
    (traced : Traced) (serving : Serving burst tasks slot champion ticks traced) :
    Runs.Throughout step Accounts calls traced ↔
      ticks + calls.length < (burst champion).toNat ∨
        (tasks = [champion] ∧ ticks + calls.length ≤ (burst champion).toNat) := by
  have accounts := serving_accounts positive distinct serving
  have served := serving.served
  induction calls generalizing traced ticks with
  | nil =>
    simp only [Runs.Throughout, accounts, List.length_nil, Nat.add_zero]
    constructor
    · rintro (early | only)
      · exact Or.inl early
      · exact Or.inr ⟨only, by omega⟩
    · rintro (early | ⟨only, -⟩)
      · exact Or.inl early
      · exact Or.inr only
  | cons cpustate rest inductionHypothesis =>
    simp only [Runs.Throughout, List.length_cons]
    by_cases unspent : ticks < (burst champion).toNat
    · obtain ⟨next, taken, following⟩ := serving_next distinct serving unspent cpustate
      have later := inductionHypothesis next following
        (serving_accounts positive distinct following) following.served
      simp only [taken, Option.some.injEq, forall_eq', later, accounts, unspent, true_or, true_and]
      rw [show ticks + 1 + rest.length = ticks + (rest.length + 1) by omega]
    · obtain ⟨next, taken, broken⟩ := serving_wraps serving (by omega) cpustate
      simp only [taken, Option.some.injEq, forall_eq']
      constructor
      · rintro ⟨-, following⟩
        exact absurd (Runs.throughout_start step Accounts rest next following) broken
      · rintro (early | ⟨-, inside⟩) <;> omega

/-- With no task registered there is nothing to account for. -/
theorem idle_throughout (calls : List Address) :
    Runs.Throughout step Accounts calls (start burst prio []) := by
  apply Runs.throughout_of_invariant step Accounts fun traced => traced.manager.tasks = []
  · intro traced empty
    constructor <;> simp [empty]
  · intro traced cpustate next empty taken
    simp only [step, Manager.srtf, Manager.numTasks, empty, List.length_nil, Int.natCast_zero,
      if_true, Option.map_some, Option.some.injEq] at taken
    rw [← taken]
    exact empty
  · rfl

variable (burst prio) in
/-- Before the first call nothing is charged and no task is current. -/
theorem start_accounts (capacity : tasks.length ≤ 256) : Accounts (start burst prio tasks) := by
  have registers := registered_eq burst prio tasks capacity
  constructor
  · intro task _
    simp only [start, registers, Task.construct, Int.natCast_zero, Int.sub_zero]
  · intro task _
    simp only [start, registers, Task.construct]
    exact BitVec.le_refl _
  · intro task _
    exact BitVec.le_refl _
  · intro current
    simp only [start, registers] at current
    exact absurd rfl current

variable (burst prio) in
/-- The first call charges nothing and serves a task of least burst time. -/
theorem start_serves (capacity : tasks.length ≤ 256) (used : tasks ≠ []) (cpustate : Address) :
    ∃ next slot champion, step (start burst prio tasks) cpustate = some next ∧
      Serving burst tasks slot champion 0 next := by
  have registers := registered_eq burst prio tasks capacity
  have charge : (registered burst prio tasks).charge cpustate =
      some (registered burst prio tasks) := by
    rw [registers]
    rfl
  obtain ⟨slot, champion, chosen, called⟩ := srtf_searches (registered burst prio tasks) _ cpustate
    (by rw [registers]; exact used) charge rfl
  have none : (registered burst prio tasks).slot (registered burst prio tasks).currentTask =
      none := by
    rw [registers]
    rfl
  have taken : step (start burst prio tasks) cpustate = some
      { manager := (registered burst prio tasks).setCurrent slot
        charges := fun _ => 0
        previous := (registered burst prio tasks).objects } := by
    simp only [step, start, called, Option.map_some, none]
  rw [registers] at taken chosen
  refine ⟨_, slot, champion, taken, rfl, rfl, chosen.here, ?_, fun _ => rfl, ?_, fun _ _ => rfl, ?_,
    fun _ => BitVec.le_refl _⟩
  · intro task member
    exact chosen.least task member trivial
  · simp only [Manager.setCurrent, Task.construct, Nat.add_zero]
  · intro task
    split <;> rfl

/-- Every run of calls is completed, and keeps the accounts exactly if there are not
more calls than any burst time, or a single task and one call more at most. -/
theorem srtf_accounts_iff (burst prio : Address → Word) (tasks : List Address)
    (distinct : tasks.Nodup) (capacity : tasks.length ≤ 256)
    (positive : ∀ task ∈ tasks, 0 < (burst task).toNat) (calls : List Address) :
    (∃ final, Runs.run step calls (start burst prio tasks) = some final) ∧
      (Runs.Throughout step Accounts calls (start burst prio tasks) ↔
        (∀ task ∈ tasks, calls.length ≤ (burst task).toNat) ∨
          ∃ task, tasks = [task] ∧ calls.length ≤ (burst task).toNat + 1) := by
  constructor
  · obtain ⟨final, completed, -⟩ := Runs.run_total step (fun _ traced => Valid traced.manager) (by
      intro cpustate rest traced valid
      obtain ⟨returned, next, called, ticks⟩ := srtf_ticks traced.manager valid cpustate
      exact ⟨_, by simp only [step, called, Option.map_some]; rfl, ticks.valid⟩)
      calls (start burst prio tasks) (registered_valid burst prio tasks capacity)
    exact ⟨final, completed⟩
  · by_cases used : tasks = []
    · subst used
      simp [idle_throughout]
    · cases calls with
      | nil => simp [Runs.Throughout, start_accounts burst prio capacity]
      | cons cpustate rest =>
        obtain ⟨next, slot, champion, taken, serving⟩ :=
          start_serves burst prio capacity used cpustate
        have member : champion ∈ tasks := List.mem_of_getElem? serving.here
        have initial := start_accounts burst prio capacity
        simp only [Runs.Throughout, initial, true_and, taken, Option.some.injEq, forall_eq',
          serving_throughout positive distinct rest next serving, List.length_cons, Nat.zero_add]
        apply or_congr
        · constructor
          · intro early task other
            have shortest := serving.shortest task other
            omega
          · intro early
            exact early champion member
        · constructor
          · rintro ⟨only, inside⟩
            exact ⟨champion, only, by omega⟩
          · rintro ⟨task, only, inside⟩
            rw [only, List.mem_singleton] at member
            rw [member]
            exact ⟨only, by omega⟩

/-- Two tasks and as many calls as the shorter burst is long. -/
theorem srtf_accounts_iff_two_tasks :
    Runs.Throughout step Accounts [0x100, 0x5800]
      (start (fun task => if task = 0x5000 then 2 else 3) (fun _ => 1) [0x5000, 0x7000]) :=
  (srtf_accounts_iff (fun task => if task = 0x5000 then 2 else 3) (fun _ => 1) [0x5000, 0x7000]
    (by decide) (by decide) (by intro task _; split <;> decide)
    [0x100, 0x5800]).2.mpr (Or.inl (by intro task _; split <;> decide))

/-- The second call finishes the shorter task and selects it again while the other
one waits; the third takes its remaining time to the largest word. -/
theorem finished_task_selected :
    ∃ second third,
      Runs.run step [0x100, 0x5800]
          (start (fun task => if task = 0x5000 then 1 else 3) (fun _ => 1) [0x5000, 0x7000]) =
        some second ∧
      step second 0x5900 = some third ∧
      second.manager.slot second.manager.currentTask = some 0x5000 ∧
      (second.manager.objects 0x5000).remainingTime = 0 ∧
      (second.manager.objects 0x7000).remainingTime = 3 ∧
      (third.manager.objects 0x5000).remainingTime = 0xFFFFFFFF ∧
      ¬ Accounts second ∧ ¬ Accounts third := by
  refine ⟨_, _, rfl, rfl, by decide, by decide, by decide, by decide, ?_, ?_⟩
  · intro accounts
    have bounded := accounts.chosen (by decide) ⟨0x7000, by decide, by unfold Unfinished; decide⟩
    obtain ⟨task, current, unfinished, -⟩ := bounded
    obtain rfl : (0x5000 : Address) = task := Option.some.inj current
    exact absurd unfinished (by unfold Unfinished; decide)
  · intro accounts
    have bounded := accounts.bounded 0x5000 (by decide)
    exact absurd bounded (by decide)

end BlueOs.ShortestRemaining
