import BlueOs.Library.GrowingRing
import BlueOs.TableSafety

/-!
# Fairness of round robin

A run interleaves registrations with calls of `schedule` and records which slot each
call selects, and how many tasks were registered then. The slots are a ring that
grows when a task is registered, and each selection follows the one before it on
that ring, whenever the registrations come.
-/

namespace BlueOs.RoundRobin

open ByteMemory TaskManager SchedulerSteps GrowingRing

inductive Event where
  | addTask (task : Address)
  | schedule (cpustate : Address)
deriving DecidableEq

/-- The manager and the slots selected so far, in order. -/
structure Traced where
  manager : Manager
  selections : List Visit

/-- A call with no task registered selects no slot. -/
def step (traced : Traced) : Event → Option Traced
  | .addTask task => some { traced with manager := (traced.manager.addTask task).2 }
  | .schedule cpustate =>
    (traced.manager.schedule cpustate).map fun result =>
      { manager := result.2
        selections :=
          if traced.manager.numTasks = 0 then traced.selections
          else traced.selections ++
            [⟨result.2.currentTask.toNat, result.2.numTasks.toNat⟩] }

def start (objects : Address → Task) : Traced where
  manager := construct objects
  selections := []

/-- The selections walk the ring of slots, and the current task is the last slot
selected. -/
structure Invariant (traced : Traced) : Prop where
  valid : Valid traced.manager
  walk : traced.selections.IsChain Follows
  inside : ∀ visit ∈ traced.selections, visit.Inside
  last : ∀ visit ∈ traced.selections.getLast?, (visit.position : Int) = traced.manager.currentTask ∧
    (visit.size : Int) ≤ traced.manager.numTasks

theorem addTask_invariant (traced : Traced) (task : Address) (held : Invariant traced) :
    Invariant { traced with manager := (traced.manager.addTask task).2 } := by
  obtain ⟨valid, kept⟩ := addTask_valid traced.manager held.valid task
  have current : (traced.manager.addTask task).2.currentTask = traced.manager.currentTask := by
    simp only [Manager.addTask]
    split <;> rfl
  have grown : traced.manager.numTasks ≤ (traced.manager.addTask task).2.numTasks := by
    have length := kept.length_le
    simp only [Manager.numTasks]
    omega
  generalize (traced.manager.addTask task).2 = next at valid current grown
  refine ⟨valid, held.walk, held.inside, ?_⟩
  intro visit last
  obtain ⟨position, size⟩ := held.last visit last
  exact ⟨position.trans current.symm, size.trans grown⟩

/-- A selection follows the one before it. -/
theorem schedule_invariant (traced : Traced) (cpustate : Address) (held : Invariant traced) :
    ∃ next, step traced (.schedule cpustate) = some next ∧ Invariant next := by
  obtain ⟨returned, manager, called, ticks, selected⟩ :=
    schedule_ticks traced.manager held.valid cpustate
  have count : manager.numTasks = traced.manager.numTasks := by
    simp only [Manager.numTasks, ticks.tasks]
  refine ⟨{ manager, selections := if traced.manager.numTasks = 0 then traced.selections
      else traced.selections ++ [⟨manager.currentTask.toNat, manager.numTasks.toNat⟩] },
    by simp only [step, called, Option.map_some], ?_⟩
  by_cases vacant : traced.manager.numTasks = 0
  · have idle : manager = traced.manager := by
      simp only [Manager.schedule, vacant, if_true, Option.some.injEq, Prod.mk.injEq] at called
      exact called.2.symm
    simp only [vacant, if_true, idle]
    exact held
  · have lower := held.valid.lower
    have upper := held.valid.upper
    have next := selected vacant
    rw [Int.tmod_eq_emod_of_nonneg (by omega)] at next
    have nonneg : 0 ≤ manager.currentTask := by
      rw [next]
      exact Int.emod_nonneg _ vacant
    have inside : manager.currentTask < manager.numTasks := ticks.valid.upper
    simp only [vacant, if_false]
    refine ⟨ticks.valid, ?_, ?_, ?_⟩
    · refine List.isChain_append.mpr ⟨held.walk, .singleton _, ?_⟩
      intro before last visit only
      obtain ⟨position, size⟩ := held.last before last
      cases only
      simp only [Follows]
      refine ⟨by omega, ?_⟩
      apply Int.ofNat_inj.mp
      rw [Int.natCast_emod, Int.natCast_add, position, Int.toNat_of_nonneg nonneg,
        Int.toNat_of_nonneg (by omega), count]
      exact next
    · intro visit member
      rcases List.mem_append.mp member with before | here
      · exact held.inside visit before
      · rw [List.mem_singleton.mp here]
        simp only [Visit.Inside]
        omega
    · intro visit last
      rw [List.getLast?_append_of_ne_nil _ (by simp)] at last
      cases last
      simp only [List.getLast_singleton]
      omega

/-- In every run, between two consecutive selections of one slot, every other slot
registered at the first of them is selected exactly once, and every slot registered
later at most once. -/
theorem round_robin_fair (objects : Address → Task) (events : List Event) :
    ∃ final, Runs.run step events (start objects) = some final ∧
      ∀ older between newer first second,
        final.selections = older ++ first :: between ++ second :: newer →
        second.position = first.position →
        (∀ visit ∈ between, visit.position ≠ first.position) →
          (∀ slot < first.size, slot ≠ first.position →
              (between.map Visit.position).count slot = 1) ∧
            ∀ slot, first.size ≤ slot → (between.map Visit.position).count slot ≤ 1 := by
  obtain ⟨final, completed, held⟩ := Runs.run_total step (fun _ traced => Invariant traced) (by
    intro event rest traced held
    cases event with
    | addTask task => exact ⟨_, rfl, addTask_invariant traced task held⟩
    | schedule cpustate => exact schedule_invariant traced cpustate held)
    events (start objects) ⟨TableSafety.construct_valid objects, .nil, by simp [start],
      by simp [start]⟩
  refine ⟨final, completed, ?_⟩
  intro older between newer first second split again new
  have walk := held.walk
  have inside := held.inside first (by simp [split])
  have regrouped : final.selections = older ++ ((first :: between ++ [second]) ++ newer) := by
    simp [split]
  rw [regrouped] at walk
  have lap := (List.isChain_append.mp (List.isChain_append.mp walk).2.1).1
  exact visited_once first second between lap inside again new

end BlueOs.RoundRobin
