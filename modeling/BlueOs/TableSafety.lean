import BlueOs.ContextOwnership

/-!
# Safety of the task table

In every run of registrations, also past the capacity, and of calls of any policy,
the current task is a slot in use or minus one, and the table is never overfull. A
policy reads only slots in use and takes no remainder by zero: the model has no
result for anything else, so a completed run is one that did neither. A stored entry
is never changed.
-/

namespace BlueOs.TableSafety

open ByteMemory TaskManager SchedulerSteps ContextOwnership

/-- A registration or a scheduler call, without its result. -/
def step (manager : Manager) : Event → Option Manager
  | .addTask task => some (manager.addTask task).2
  | .tick policy cpustate => (policy.tick manager cpustate).map Prod.snd

/-- Every step is taken, keeps the bounds and keeps the stored entries. -/
theorem step_safe (manager : Manager) (valid : Valid manager) (event : Event) :
    ∃ next, step manager event = some next ∧ Valid next ∧ manager.tasks <+: next.tasks := by
  cases event with
  | addTask task =>
    obtain ⟨nextValid, kept⟩ := addTask_valid manager valid task
    exact ⟨_, rfl, nextValid, kept⟩
  | tick policy cpustate =>
    obtain ⟨returned, next, called, nextValid, tasks⟩ := tick_valid policy manager valid cpustate
    exact ⟨next, by simp only [step, called, Option.map_some], nextValid, by rw [tasks]⟩

/-- Every run is completed, keeps the bounds and keeps the stored entries. -/
theorem run_safe (manager : Manager) (valid : Valid manager) (events : List Event) :
    ∃ final, Runs.run step events manager = some final ∧ Valid final ∧
      manager.tasks <+: final.tasks := by
  apply Runs.run_total step fun _ current => Valid current ∧ manager.tasks <+: current.tasks
  · rintro event rest current ⟨currentValid, kept⟩
    obtain ⟨next, taken, nextValid, extended⟩ := step_safe current currentValid event
    exact ⟨next, taken, nextValid, kept.trans extended⟩
  · exact ⟨valid, List.prefix_refl _⟩

theorem construct_valid (objects : Address → Task) : Valid (construct objects) := by
  constructor <;> simp [construct, Manager.numTasks]

/-- A slot can be read exactly when it is in use. -/
theorem slot_isSome_iff (manager : Manager) (index : Int) :
    (manager.slot index).isSome = true ↔ 0 ≤ index ∧ index < manager.numTasks := by
  simp only [Manager.slot, Manager.numTasks]
  split
  · rw [isSome_getElem?]
    omega
  · simp_all

/-- The entries of a table that was only extended are still there. -/
theorem slot_kept (manager later : Manager) (kept : manager.tasks <+: later.tasks) (index : Int)
    (task : Address) (used : manager.slot index = some task) : later.slot index = some task := by
  obtain ⟨added, extended⟩ := kept
  simp only [Manager.slot] at used ⊢
  split at used
  case isTrue lower =>
    have inside : index.toNat < manager.tasks.length := (List.getElem?_eq_some_iff.mp used).1
    rw [if_pos lower, ← extended, List.getElem?_append_left inside, used]
  case isFalse negative => cases used

/-- A registration is refused exactly when the table is full, and then changes
nothing. -/
theorem addTask_refused (manager : Manager) (task : Address)
    (refused : (manager.addTask task).1 = false) :
    256 ≤ manager.numTasks ∧ (manager.addTask task).2 = manager := by
  simp only [Manager.addTask] at refused ⊢
  split at refused
  · cases refused
  case isFalse full =>
    rw [if_neg full]
    exact ⟨by omega, rfl⟩

/-- An accepted registration stores at the first index that was not in use, which is
then in use. -/
theorem addTask_accepted (manager : Manager) (task : Address)
    (accepted : (manager.addTask task).1 = true) :
    manager.numTasks < 256 ∧ (manager.addTask task).2.slot manager.numTasks = some task := by
  simp only [Manager.addTask] at accepted ⊢
  split at accepted
  case isTrue room =>
    rw [if_pos room]
    exact ⟨room, by simp [Manager.slot, Manager.numTasks]⟩
  case isFalse => cases accepted

/-- From a new task manager every run, and every continuation of it, is completed;
the bounds hold after both, slots are readable exactly below the number of tasks,
what was stored stays stored, an accepted registration stores at the next slot of
the 256 and a refused one changes nothing. -/
theorem table_safe (objects : Address → Task) (earlier later : List Event) :
    ∃ reached final, Runs.run step earlier (construct objects) = some reached ∧
      Runs.run step later reached = some final ∧
      (-1 ≤ reached.currentTask ∧ reached.currentTask < reached.numTasks ∧
        reached.numTasks ≤ 256) ∧
      (∀ index, (reached.slot index).isSome = true ↔ 0 ≤ index ∧ index < reached.numTasks) ∧
      (∀ index task, reached.slot index = some task → final.slot index = some task) ∧
      ∀ task, ((reached.addTask task).1 = true → reached.numTasks < 256 ∧
          (reached.addTask task).2.slot reached.numTasks = some task) ∧
        ((reached.addTask task).1 = false → (reached.addTask task).2 = reached) := by
  obtain ⟨reached, ran, valid, -⟩ := run_safe (construct objects) (construct_valid objects) earlier
  obtain ⟨final, continued, -, kept⟩ := run_safe reached valid later
  refine ⟨reached, final, ran, continued, ⟨valid.lower, valid.upper, valid.capacity⟩,
    slot_isSome_iff reached, slot_kept reached final kept, ?_⟩
  intro task
  exact ⟨addTask_accepted reached task, fun refused => (addTask_refused reached task refused).2⟩

end BlueOs.TableSafety
