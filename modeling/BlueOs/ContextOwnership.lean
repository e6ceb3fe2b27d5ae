import BlueOs.SchedulerSteps

/-!
# Whose context a scheduler call returns

A run interleaves registrations with calls of any policy. Beside the manager it
records every call: the task that was current when it was entered and the pointer
it was given. A task owns the pointer of the last call entered while it was
current, or its constructor's frame when there was none; a pointer given while no
task was current is owned by no task.

Every run whose calls are not a first call of `fcfs` stores and returns only the
pointers their tasks own. The frames of tasks not yet registered, and the absence
of calls for slots not yet in use, are the parts of the invariant that make a
later registration start from its constructor's frame.
-/

namespace BlueOs.ContextOwnership

open ByteMemory TaskManager SchedulerSteps

inductive Event where
  | addTask (task : Address)
  | tick (policy : Policy) (cpustate : Address)
deriving DecidableEq

/-- The manager, the calls made so far with the newest first, and what the last
event returned if it was a call. -/
structure Traced where
  manager : Manager
  calls : List (Int × Address)
  returned : Option Address

def step (traced : Traced) : Event → Option Traced
  | .addTask task =>
    some { traced with manager := (traced.manager.addTask task).2, returned := none }
  | .tick policy cpustate =>
    (policy.tick traced.manager cpustate).map fun result =>
      { manager := result.2
        calls := (traced.manager.currentTask, cpustate) :: traced.calls
        returned := some result.1 }

/-- A new manager over constructed tasks, before any registration. -/
def start (burst prio : Address → Word) : Traced where
  manager := construct fun task => Task.construct task (burst task) (prio task)
  calls := []
  returned := none

/-- What the most recent call entered with this task current was given. -/
def lastPassed {β : Type} (calls : List (Int × β)) (index : Int) : Option β :=
  (calls.find? fun call => call.1 == index).map Prod.snd

/-- The context a registered task owns. -/
def ownContext (calls : List (Int × Address)) (index : Int) (task : Address) : Address :=
  (lastPassed calls index).getD (initialFrame task)

/-- A call that leaves a task current returned that task's own context, and every
slot in use holds its own context. -/
structure Owned (traced : Traced) : Prop where
  returned : ∀ pointer, traced.returned = some pointer → 0 ≤ traced.manager.currentTask →
    ∃ task, traced.manager.slot traced.manager.currentTask = some task ∧
      pointer = ownContext traced.calls traced.manager.currentTask task
  stored : ∀ index task, traced.manager.slot index = some task →
    (traced.manager.objects task).cpustate = ownContext traced.calls index task

/-- The tasks that a list of events registers, in order. -/
def registered (events : List Event) : List Address :=
  events.filterMap fun
    | .addTask task => some task
    | .tick _ _ => none

/-- The call is not the first call of `fcfs` after a registration. -/
def OwnedCall (traced : Traced) : Event → Prop
  | .addTask _ => True
  | .tick policy _ => ¬ TakesBoot policy traced.manager

instance (traced : Traced) : (event : Event) → Decidable (OwnedCall traced event)
  | .addTask _ => isTrue trivial
  | .tick policy _ => inferInstanceAs (Decidable (¬ TakesBoot policy traced.manager))

/-- What a run keeps, with the tasks it will still register. -/
structure Invariant (rest : List Event) (traced : Traced) : Prop where
  valid : Valid traced.manager
  owned : Owned traced
  distinct : traced.manager.tasks.Nodup
  upcoming : (registered rest).Nodup
  fresh : ∀ task ∈ registered rest, task ∉ traced.manager.tasks
  untouched : ∀ task, task ∉ traced.manager.tasks →
    (traced.manager.objects task).cpustate = initialFrame task
  past : ∀ call ∈ traced.calls, call.1 < traced.manager.numTasks

theorem slot_member (manager : Manager) (index : Int) (task : Address)
    (used : manager.slot index = some task) : task ∈ manager.tasks := by
  simp only [Manager.slot] at used
  split at used
  · exact List.mem_of_getElem? used
  · cases used

theorem lastPassed_cons {β : Type} (calls : List (Int × β)) (entered index : Int) (given : β) :
    lastPassed ((entered, given) :: calls) index =
      if entered = index then some given else lastPassed calls index := by
  by_cases same : entered = index <;> simp [lastPassed, same]

/-- A slot at or past every call's task has been given no pointer. -/
theorem lastPassed_none (calls : List (Int × Address)) (index : Int)
    (past : ∀ call ∈ calls, call.1 < index) : lastPassed calls index = none := by
  have absent : calls.find? (fun call => call.1 == index) = none := by
    refine List.find?_eq_none.mpr ?_
    intro call member
    have before := past call member
    simp only [beq_iff_eq]
    omega
  simp [lastPassed, absent]

/-- The slots after an accepted registration: the old ones and one more. -/
theorem slot_append (manager : Manager) (task other : Address) (index : Int)
    (used : ({ manager with tasks := manager.tasks ++ [task] } : Manager).slot index = some other) :
    manager.slot index = some other ∨ (index = manager.numTasks ∧ other = task) := by
  simp only [Manager.slot] at used ⊢
  split at used
  case isTrue lower =>
    rw [List.getElem?_append] at used
    split at used
    · exact Or.inl (by simpa only [lower, if_true] using used)
    case isFalse outside =>
      right
      obtain ⟨inside, same⟩ := List.getElem?_eq_some_iff.mp used
      simp only [List.length_singleton] at inside
      simp only [List.getElem_singleton] at same
      refine ⟨?_, same.symm⟩
      simp only [Manager.numTasks]
      omega
  case isFalse negative => cases used

/-- Registering a task keeps the invariant. -/
theorem addTask_invariant (rest : List Event) (traced : Traced) (task : Address)
    (held : Invariant (.addTask task :: rest) traced) :
    Invariant rest { traced with
      manager := (traced.manager.addTask task).2
      returned := none } := by
  have upcoming : task ∉ registered rest ∧ (registered rest).Nodup :=
    List.nodup_cons.mp held.upcoming
  have later : ∀ other ∈ registered rest, other ∉ traced.manager.tasks := fun other member =>
    held.fresh other (List.mem_cons_of_mem task member)
  by_cases room : traced.manager.numTasks < 256
  · have count : ({ traced.manager with tasks := traced.manager.tasks ++ [task] } :
        Manager).numTasks = traced.manager.numTasks + 1 := by
      simp [Manager.numTasks]
    have absent : task ∉ traced.manager.tasks := held.fresh task List.mem_cons_self
    simp only [Manager.addTask, room, if_true]
    have valid := (addTask_valid traced.manager held.valid task).1
    simp only [Manager.addTask, room, if_true] at valid
    refine ⟨valid, ⟨by simp, ?_⟩, ?_, upcoming.2, ?_, ?_, ?_⟩
    · -- A new slot has its constructor's frame, since no call was made for it.
      intro index other used
      rcases slot_append traced.manager task other index used with before | ⟨rfl, rfl⟩
      · exact held.owned.stored index other before
      · simp [ownContext, lastPassed_none traced.calls _ held.past,
          held.untouched other absent]
    · refine List.nodup_append.mpr ⟨held.distinct, by simp, ?_⟩
      intro left member right single same
      rw [List.mem_singleton.mp single] at same
      exact absent (same ▸ member)
    · intro other member inside
      rcases List.mem_append.mp inside with before | here
      · exact later other member before
      · exact upcoming.1 ((List.mem_singleton.mp here) ▸ member)
    · intro other outside
      exact held.untouched other fun inside => outside (List.mem_append_left _ inside)
    · intro call member
      rw [count]
      exact Int.lt_add_one_of_le (Int.le_of_lt (held.past call member))
  · simp only [Manager.addTask, room, if_false]
    exact ⟨held.valid, ⟨by simp, held.owned.stored⟩, held.distinct, upcoming.2, later,
      held.untouched, held.past⟩

/-- An owned call keeps the invariant. The context stored is that of the task
that was current, and the record of the call makes it that task's own. -/
theorem tick_invariant (rest : List Event) (traced : Traced) (policy : Policy)
    (cpustate returned : Address) (next : Manager)
    (held : Invariant (.tick policy cpustate :: rest) traced)
    (ticks : Ticks traced.manager next cpustate returned) :
    Invariant rest
      { manager := next
        calls := (traced.manager.currentTask, cpustate) :: traced.calls
        returned := some returned } := by
  have count : next.numTasks = traced.manager.numTasks := by
    simp only [Manager.numTasks, ticks.tasks]
  have stored : ∀ index task, next.slot index = some task → (next.objects task).cpustate =
      ownContext ((traced.manager.currentTask, cpustate) :: traced.calls) index task := by
    intro index task used
    rw [slot_congr traced.manager next ticks.tasks] at used
    rw [ticks.contexts task, ownContext, lastPassed_cons]
    by_cases same : traced.manager.currentTask = index
    · simp [same, used]
    · have other : traced.manager.slot traced.manager.currentTask ≠ some task := by
        intro here
        exact same (slot_injective traced.manager held.distinct _ _ task here used)
      simp only [other, same, if_false]
      exact held.owned.stored index task used
  refine ⟨ticks.valid, ⟨?_, stored⟩, ?_, held.upcoming, ?_, ?_, ?_⟩
  · rintro pointer same running
    obtain ⟨task, used, resumed⟩ := ticks.resumed running
    cases same
    exact ⟨task, used, resumed.trans (stored _ task used)⟩
  · rw [ticks.tasks]
    exact held.distinct
  · intro task member
    rw [ticks.tasks]
    exact held.fresh task member
  · intro task outside
    rw [ticks.tasks] at outside
    have other : traced.manager.slot traced.manager.currentTask ≠ some task := fun here =>
      outside (slot_member traced.manager _ task here)
    rw [ticks.contexts task, if_neg other]
    exact held.untouched task outside
  · intro call member
    rw [count]
    rcases List.mem_cons.mp member with rfl | before
    · exact held.valid.upper
    · exact held.past call before

/-- In every run that registers distinct tasks and makes no first call of `fcfs`
with a task registered, every call returns, a call that leaves a task current
returns the context that task owns, and every slot in use holds its own. -/
theorem contexts_owned (burst prio : Address → Word) (events : List Event)
    (distinct : (registered events).Nodup)
    (calls : Runs.Meets step OwnedCall events (start burst prio)) :
    ∃ final, Runs.run step events (start burst prio) = some final ∧ Owned final := by
  have initial : Invariant events (start burst prio) := by
    have valid : Valid (start burst prio).manager := by
      constructor <;> simp [start, construct, Manager.numTasks]
    refine ⟨valid, ⟨by simp [start], ?_⟩, List.nodup_nil, distinct, by simp [start, construct],
      fun task _ => rfl, by simp [start]⟩
    intro index task used
    exact absurd (slot_member _ index task used) (by simp [start, construct])
  obtain ⟨final, completed, held⟩ := Runs.run_invariant step OwnedCall Invariant (by
    intro event rest traced held owned
    cases event with
    | addTask task => exact ⟨_, rfl, addTask_invariant rest traced task held⟩
    | tick policy cpustate =>
      obtain ⟨returned, next, called, ticks⟩ :=
        tick_ticks policy traced.manager held.valid cpustate owned
      exact ⟨_, by simp only [step, called, Option.map_some],
        tick_invariant rest traced policy cpustate returned next held ticks⟩)
    events (start burst prio) initial calls
  exact ⟨final, completed, held.owned⟩

/-- A run with two tasks under round robin, shortest job first and `fcfs`. -/
theorem contexts_owned_mixed_policies :
    ∃ final, Runs.run step [.addTask 0x5000, .addTask 0x7000, .tick .schedule 0x100,
        .tick .sjf 0x5800, .tick .fcfs 0x5900] (start (fun _ => 3) fun _ => 1) = some final ∧
      Owned final := by
  exact contexts_owned (fun _ => 3) (fun _ => 1) _ (by decide) (by decide)

/-- The boot context is returned for slot 0 by a first call of `fcfs`, where no
call was entered with that task current. -/
theorem fcfs_returns_boot_context :
    ∃ final, Runs.run step [.addTask 0x5000, .tick .fcfs 0x100]
        (start (fun _ => 3) fun _ => 1) = some final ∧
      final.manager.currentTask = 0 ∧ final.returned = some 0x100 ∧
      lastPassed final.calls 0 = none ∧ initialFrame 0x5000 ≠ 0x100 ∧ ¬ Owned final := by
  obtain ⟨task, next, -, called, tasks, current, -⟩ := fcfs_takes_boot
    ((start (fun _ => 3) fun _ => 1).manager.addTask 0x5000).2 0x100 (by decide)
  refine ⟨⟨next, [(-1, 0x100)], some 0x100⟩, ?_, current, rfl, rfl, by decide, ?_⟩
  · simp only [Runs.run_cons, Runs.run_nil, step, Option.bind_some, Policy.tick, called,
      Option.map_some]
    rfl
  · intro owned
    obtain ⟨other, slot, same⟩ := owned.returned 0x100 rfl (by simp [current])
    have member : other ∈ next.tasks := slot_member next _ other slot
    have registeredTask : next.tasks = [0x5000] := tasks
    rw [registeredTask, List.mem_singleton] at member
    subst member
    rw [current] at same
    change 0x100 = ownContext [(-1, 0x100)] 0 0x5000 at same
    exact absurd same (by decide)

end BlueOs.ContextOwnership
