import BlueOs.Library.LeftmostLeast
import BlueOs.TaskManager

/-!
# What the searches of the scheduler find

Both searches compare strictly while they walk the slots from the left. The search
of `srtf` and `prioritySchedule` therefore finds the lowest slot of least key, and
the search of `sjf` the lowest slot of least burst time among the unfinished tasks.
-/

namespace BlueOs.Selection

open ByteMemory TaskManager LeftmostLeast

variable (manager : Manager)

/-- The member compared, of the task at an address. -/
def keyOf (key : Task → Word) (task : Address) : Nat := (key (manager.objects task)).toNat

def Unfinished (task : Address) : Prop := 0 < (manager.objects task).remainingTime

@[simp] theorem slot_natCast (index : Nat) : manager.slot index = manager.tasks[index]? := by
  simp [Manager.slot]

@[simp] theorem taskAt_natCast (index : Nat) :
    manager.taskAt index = manager.tasks[index]?.map manager.objects := by
  simp [Manager.taskAt]

/-- The slots a walk still has to visit begin with the next one. -/
theorem next_slot (seen count index : Nat) (rest : List Nat)
    (remaining : index :: rest = List.range' seen (count - seen)) :
    index = seen ∧ seen < count ∧ rest = List.range' (seen + 1) (count - (seen + 1)) := by
  have more : count - seen = (count - (seen + 1)) + 1 := by
    by_contra done
    have nothing : count - seen = 0 := by omega
    rw [nothing] at remaining
    simp at remaining
  rw [more, List.range'_succ] at remaining
  obtain ⟨here, later⟩ := List.cons.inj remaining
  exact ⟨here, by omega, later⟩

/-- One iteration of the search by a key, over the slots seen so far. -/
theorem leastStep_chosen (key : Task → Word) (seen slot : Nat) (task : Address)
    (inside : seen < manager.tasks.length)
    (chosen : Chosen (keyOf manager key) (fun _ => True) (manager.tasks.take seen) slot task) :
    ∃ (better : Nat) (champion : Address), manager.leastStep key slot seen = some (better : Int) ∧
      Chosen (keyOf manager key) (fun _ => True) (manager.tasks.take (seen + 1)) better
        champion := by
  have used : manager.tasks[slot]? = some task := by
    have early : slot < seen := by
      have bound := chosen.inside
      rw [List.length_take] at bound
      omega
    rw [← chosen.here, List.getElem?_take_of_lt early]
  have count : (manager.tasks.take seen).length = seen := by
    rw [List.length_take]
    omega
  rw [List.take_add_one, List.getElem?_eq_getElem inside, Option.toList_some]
  by_cases smaller : key (manager.objects manager.tasks[seen]) < key (manager.objects task)
  · refine ⟨seen, manager.tasks[seen], ?_, ?_⟩
    · simp [Manager.leastStep, used, inside, smaller]
    · have overtaken := chosen.overtaken manager.tasks[seen] trivial (BitVec.lt_def.mp smaller)
      rw [count] at overtaken
      exact overtaken
  · refine ⟨slot, task, ?_, ?_⟩
    · simp [Manager.leastStep, used, inside, smaller]
    · apply chosen.stays
      intro _
      rw [BitVec.lt_def] at smaller
      exact Nat.le_of_not_lt smaller

/-- The search by a key finds the lowest slot of least key. -/
theorem least_chosen (key : Task → Word) (used : manager.tasks ≠ []) :
    ∃ (slot : Nat) (task : Address), manager.least key = some (slot : Int) ∧
      Chosen (keyOf manager key) (fun _ => True) manager.tasks slot task := by
  have positive : 0 < manager.tasks.length := List.length_pos_iff.mpr used
  obtain ⟨best, found, seen, slot, task, done, rfl, chosen⟩ :=
    Runs.run_total (manager.leastStep key)
      (fun rest best => ∃ seen slot task,
        rest = List.range' seen (manager.tasks.length - seen) ∧ best = (slot : Nat) ∧
          Chosen (keyOf manager key) (fun _ => True) (manager.tasks.take seen) slot task)
      (by
        rintro index rest best ⟨seen, slot, task, remaining, rfl, chosen⟩
        obtain ⟨rfl, inside, later⟩ := next_slot seen _ index rest remaining
        obtain ⟨better, champion, step, next⟩ :=
          leastStep_chosen manager key index slot task inside chosen
        exact ⟨better, step, index + 1, better, champion, later, rfl, next⟩)
      (List.range' 1 (manager.tasks.length - 1)) 0 (by
        refine ⟨1, 0, manager.tasks[0], rfl, rfl, ?_⟩
        have first : manager.tasks.take 1 = [] ++ [manager.tasks[0]] := by
          rw [List.take_one, List.head?_eq_getElem?, List.getElem?_eq_getElem positive]
          rfl
        rw [first]
        exact chosen_first _ (by simp [Vacant]) _ trivial)
  have all : manager.tasks.length ≤ seen := by
    have length := congrArg List.length done
    simp at length
    omega
  rw [List.take_of_length_le all] at chosen
  exact ⟨slot, task, found, chosen⟩

/-- What the search of `sjf` holds over the slots seen so far: minus one when all of
them are finished, else the champion's slot. -/
def Best (table : List Address) (best : Int) : Prop :=
  (best = -1 ∧ Vacant (Unfinished manager) table) ∨
    ∃ slot task, best = (slot : Nat) ∧
      Chosen (keyOf manager Task.burstTime) (Unfinished manager) table slot task

/-- One iteration of the search of `sjf`. -/
theorem shortestStep_best (seen : Nat) (best : Int) (inside : seen < manager.tasks.length)
    (held : Best manager (manager.tasks.take seen) best) :
    ∃ better, manager.shortestStep best seen = some better ∧
      Best manager (manager.tasks.take (seen + 1)) better := by
  have count : (manager.tasks.take seen).length = seen := by
    rw [List.length_take]
    omega
  have grown :
      manager.tasks.take (seen + 1) = manager.tasks.take seen ++ [manager.tasks[seen]] := by
    rw [List.take_add_one, List.getElem?_eq_getElem inside, Option.toList_some]
  have read : manager.taskAt seen = some (manager.objects manager.tasks[seen]) := by
    simp [inside]
  rw [grown]
  by_cases unfinished : 0 < (manager.objects manager.tasks[seen]).remainingTime
  · rcases held with ⟨rfl, vacant⟩ | ⟨slot, task, rfl, chosen⟩
    · refine ⟨(seen : Nat), ?_, Or.inr ?_⟩
      · simp only [Manager.shortestStep, read, Option.bind_eq_bind, Option.bind_some, unfinished,
          if_true]
      refine ⟨seen, manager.tasks[seen], rfl, ?_⟩
      have first := chosen_first (keyOf manager Task.burstTime) vacant manager.tasks[seen]
        unfinished
      rw [count] at first
      exact first
    · have used : manager.tasks[slot]? = some task := by
        have early : slot < seen := by
          have bound := chosen.inside
          omega
        rw [← chosen.here, List.getElem?_take_of_lt early]
      have readChampion : manager.taskAt slot = some (manager.objects task) := by simp [used]
      have present : ¬ (slot : Int) = -1 := by omega
      by_cases smaller : (manager.objects manager.tasks[seen]).burstTime <
          (manager.objects task).burstTime
      · refine ⟨(seen : Nat), ?_, Or.inr ⟨seen, manager.tasks[seen], rfl, ?_⟩⟩
        · simp only [Manager.shortestStep, read, Option.bind_eq_bind, Option.bind_some, unfinished,
            present, readChampion, smaller, if_true, if_false]
        · have overtaken := chosen.overtaken manager.tasks[seen] unfinished
            (BitVec.lt_def.mp smaller)
          rw [count] at overtaken
          exact overtaken
      · refine ⟨(slot : Nat), ?_, Or.inr ⟨slot, task, rfl, ?_⟩⟩
        · simp only [Manager.shortestStep, read, Option.bind_eq_bind, Option.bind_some, unfinished,
            present, readChampion, smaller, if_true, if_false]
        · apply chosen.stays
          intro _
          rw [BitVec.lt_def] at smaller
          exact Nat.le_of_not_lt smaller
  · refine ⟨best, ?_, ?_⟩
    · simp only [Manager.shortestStep, read, Option.bind_eq_bind, Option.bind_some, unfinished,
        if_false]
    rcases held with ⟨rfl, vacant⟩ | ⟨slot, task, rfl, chosen⟩
    · exact Or.inl ⟨rfl, vacant.extend _ unfinished⟩
    · exact Or.inr ⟨slot, task, rfl,
        chosen.stays _ fun allowed => absurd allowed unfinished⟩

/-- The search of `sjf` finds the lowest slot of least burst time among the
unfinished tasks, or minus one when every task is finished. -/
theorem shortest_best : ∃ best, manager.shortest = some best ∧ Best manager manager.tasks best := by
  obtain ⟨best, found, seen, done, held⟩ := Runs.run_total manager.shortestStep
    (fun rest best => ∃ seen, rest = List.range' seen (manager.tasks.length - seen) ∧
      Best manager (manager.tasks.take seen) best)
    (by
      rintro index rest best ⟨seen, remaining, held⟩
      obtain ⟨rfl, inside, later⟩ := next_slot seen _ index rest remaining
      obtain ⟨better, step, next⟩ := shortestStep_best manager index best inside held
      exact ⟨better, step, index + 1, later, next⟩)
    (List.range manager.tasks.length) (-1)
    ⟨0, List.range_eq_range', Or.inl ⟨rfl, by simp [Vacant]⟩⟩
  have all : manager.tasks.length ≤ seen := by
    have length := congrArg List.length done
    simp at length
    omega
  rw [List.take_of_length_le all] at held
  exact ⟨best, found, held⟩

end BlueOs.Selection
