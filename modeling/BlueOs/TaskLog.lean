import BlueOs.PrintedText

/-!
# The log of the tasks

Each task of the kernel counts: in a turn it prints its name and its counter, and then
counts a variable up to a bound of its own. A switch between the tasks is taken to fall
before a turn or into its delay, and not into its prints.

The tasks share the console. Their lines are messages, so whatever the order of their
steps, the log says how far each task has come.
-/

namespace BlueOs.TaskLog

open NumberPrinting PrintedText
open TextConsole (Console print)

/-- The tasks of `kernel.cpp`: `fastTask`, `mediumTask` and `slowTask`. -/
inductive Task where
  | fast
  | medium
  | slow
deriving DecidableEq

/-- What a task prints before its counter. -/
def Task.name : Task → String
  | fast => "FAST: "
  | medium => "MEDIUM: "
  | slow => "SLOW: "

/-- The bound of the delay. -/
def Task.bound : Task → Word
  | fast => 300000
  | medium => 800000
  | slow => 1500000

/-- The local variables: at the top of the outer loop, and in the delay with `i`. -/
inductive Local where
  | top (counter : Word)
  | delay (counter i : Word)
deriving DecidableEq

structure State where
  console : Console
  tasks : Task → Local

/-- What a task prints in a turn. -/
def calls (task : Task) (counter : Word) : List Printed :=
  [.text task.name, .hex32 counter, .text "\n"]

/-- A step of a task: the prints of a turn, or a test of the delay. -/
def step (state : State) (task : Task) : State :=
  match state.tasks task with
  | .top counter =>
    { console := printAll state.console (calls task counter)
      tasks := Function.update state.tasks task (.delay (counter + 1) 0) }
  | .delay counter i =>
    if i.slt task.bound then
      { state with tasks := Function.update state.tasks task (.delay counter (i + 1)) }
    else { state with tasks := Function.update state.tasks task (.top counter) }

/-- All counters are zero. -/
def start (console : Console) : State where
  console := console
  tasks := fun _ => .top 0

def run (schedule : List Task) (state : State) : State := schedule.foldl step state

/-- A line of the log. -/
structure Line where
  task : Task
  counter : Word
deriving DecidableEq

/-- How many steps a turn takes: the prints, and the tests of the delay. -/
def Task.period (task : Task) : Nat := task.bound.toNat + 2

/-- Where a task is after a number of its steps. -/
def Task.localAfter (task : Task) (steps : Nat) : Local :=
  if steps % task.period = 0 then .top (BitVec.ofNat 32 (steps / task.period))
  else .delay (BitVec.ofNat 32 (steps / task.period + 1))
    (BitVec.ofNat 32 (steps % task.period - 1))

/-- The line that a task prints in the step after a number of its steps, if it prints. -/
def Task.announced (task : Task) (steps : Nat) : Option Line :=
  if steps % task.period = 0 then some ⟨task, BitVec.ofNat 32 (steps / task.period)⟩ else none

/-- The lines of a schedule, in order. -/
def lines (schedule : List Task) : List Line := schedule.zipIdx.filterMap fun turn =>
  turn.1.announced ((schedule.take turn.2).count turn.1)

/-- How many turns a task has begun after a number of its steps. -/
def Task.turns (task : Task) (steps : Nat) : Nat := (steps + (task.period - 1)) / task.period

theorem name_apart (one other : Task) (begins : bytes one.name.toList <+: bytes other.name.toList) :
    one = other := by
  cases one <;> cases other <;> first | rfl | exact absurd begins (by decide)

theorem name_nonempty (task : Task) : bytes task.name.toList ≠ [] := by
  cases task <;> decide

theorem all_tasks (task : Task) : task ∈ [Task.fast, Task.medium, Task.slow] := by
  cases task <;> decide

def Line.fields (line : Line) : Task × Word := (line.task, line.counter)

def ofFields (fields : Task × Word) : Line := ⟨fields.1, fields.2⟩

theorem ofFields_fields (line : Line) : ofFields line.fields = line := rfl

/-- A name, a counter, and the end of the line. -/
def lineFormat : Messages.Format Line Byte :=
  ((Messages.Format.named (fun task : Task => bytes task.name.toList)
    [Task.fast, Task.medium, Task.slow] all_tasks name_nonempty name_apart).pair
      (hexWord.before (bytes "\n".toList))).retract Line.fields ofFields ofFields_fields

theorem text_calls (line : Line) : text (calls line.task line.counter) = lineFormat.encode line := by
  simp only [text, calls, List.flatMap_cons, List.flatMap_nil, Printed.characters, bytes_append,
    List.append_nil]
  rfl

theorem calls_proper (task : Task) (counter : Word) : ∀ c ∈ text (calls task counter), c ≠ 0 := by
  simp only [text, calls, List.flatMap_cons, List.flatMap_nil, Printed.characters, bytes_append,
    List.append_nil, List.forall_mem_append]
  refine ⟨?_, digits_proper _ (printHex32_digits counter), literal_proper _ (by decide)⟩
  cases task with
  | fast => exact literal_proper _ (by decide)
  | medium => exact literal_proper _ (by decide)
  | slow => exact literal_proper _ (by decide)

theorem lines_snoc (schedule : List Task) (task : Task) :
    lines (schedule ++ [task]) =
      lines schedule ++ (task.announced (schedule.count task)).toList := by
  have earlier : schedule.zipIdx.filterMap (fun turn =>
      turn.1.announced (((schedule ++ [task]).take turn.2).count turn.1)) = lines schedule := by
    apply List.filterMap_congr
    rintro ⟨other, position⟩ member
    have inside := (List.mem_zipIdx' member).1
    rw [List.take_append_of_le_length (Nat.le_of_lt inside)]
  have now : (schedule ++ [task]).take schedule.length = schedule := List.take_left
  rw [lines, List.zipIdx_append, List.filterMap_append, earlier, List.zipIdx_singleton,
    Nat.zero_add]
  cases announced : task.announced (schedule.count task) with
  | none => rw [List.filterMap_cons_none (by rw [now, announced])]; rfl
  | some line => rw [List.filterMap_cons_some (by rw [now, announced])]; rfl

theorem bound_small (task : Task) : task.bound.toNat < 2 ^ 31 := by
  cases task <;> decide

/-- The test of the delay compares the numbers. -/
theorem delay_iff (task : Task) (value : Nat) (inside : value ≤ task.bound.toNat) :
    (BitVec.ofNat 32 value).slt task.bound = decide (value < task.bound.toNat) := by
  have small := bound_small task
  have same : (BitVec.ofNat 32 value).toNat = value := by
    rw [BitVec.toNat_ofNat]
    exact Nat.mod_eq_of_lt (by omega)
  rw [BitVec.slt, BitVec.toInt_eq_toNat_of_lt (by omega), BitVec.toInt_eq_toNat_of_lt (by omega),
    same]
  simp only [Nat.cast_lt]

theorem ofNat_succ (number : Nat) :
    BitVec.ofNat 32 (number + 1) = BitVec.ofNat 32 number + 1 := BitVec.ofNat_add number 1

section turns

variable (task : Task)

theorem period_pos : 0 < task.period := Nat.succ_pos _

/-- Every number of steps ends before a turn, or in the delay of one. -/
theorem phases (steps : Nat) :
    (∃ turn, steps = task.period * turn) ∨
      ∃ turn i, i ≤ task.bound.toNat ∧ steps = task.period * turn + (i + 1) := by
  have period : task.period = task.bound.toNat + 2 := rfl
  have split := Nat.div_add_mod steps task.period
  have phase := Nat.mod_lt steps (period_pos task)
  cases remainder : steps % task.period with
  | zero => exact Or.inl ⟨steps / task.period, by omega⟩
  | succ i => exact Or.inr ⟨steps / task.period, i, by omega, by omega⟩

theorem before_turn (turn : Nat) :
    task.period * turn % task.period = 0 ∧ task.period * turn / task.period = turn :=
  ⟨Nat.mul_mod_right _ _, Nat.mul_div_cancel_left turn (period_pos task)⟩

theorem in_delay (turn i : Nat) (inside : i ≤ task.bound.toNat) :
    (task.period * turn + (i + 1)) % task.period = i + 1 ∧
      (task.period * turn + (i + 1)) / task.period = turn := by
  have small : i + 1 < task.period := Nat.succ_lt_succ (Nat.lt_succ_of_le inside)
  rw [Nat.mul_add_mod, Nat.mod_eq_of_lt small, Nat.mul_add_div (period_pos task),
    Nat.div_eq_of_lt small]
  exact ⟨rfl, Nat.add_zero turn⟩

theorem localAfter_top (turn : Nat) :
    task.localAfter (task.period * turn) = .top (BitVec.ofNat 32 turn) := by
  obtain ⟨phase, count⟩ := before_turn task turn
  rw [Task.localAfter, phase, count]
  rfl

theorem localAfter_delay (turn i : Nat) (inside : i ≤ task.bound.toNat) :
    task.localAfter (task.period * turn + (i + 1)) =
      .delay (BitVec.ofNat 32 (turn + 1)) (BitVec.ofNat 32 i) := by
  obtain ⟨phase, count⟩ := in_delay task turn i inside
  rw [Task.localAfter, phase, count, if_neg (Nat.succ_ne_zero i), Nat.add_sub_cancel]

theorem announced_top (turn : Nat) :
    task.announced (task.period * turn) = some ⟨task, BitVec.ofNat 32 turn⟩ := by
  obtain ⟨phase, count⟩ := before_turn task turn
  rw [Task.announced, phase, count]
  rfl

theorem announced_delay (turn i : Nat) (inside : i ≤ task.bound.toNat) :
    task.announced (task.period * turn + (i + 1)) = none := by
  obtain ⟨phase, -⟩ := in_delay task turn i inside
  rw [Task.announced, phase, if_neg (Nat.succ_ne_zero i)]

theorem turns_top (turn : Nat) : task.turns (task.period * turn) = turn := by
  have rest := Nat.div_eq_of_lt (Nat.sub_lt (period_pos task) Nat.one_pos)
  rw [Task.turns, Nat.mul_add_div (period_pos task), rest, Nat.add_zero]

theorem turns_delay (turn i : Nat) (inside : i ≤ task.bound.toNat) :
    task.turns (task.period * turn + (i + 1)) = turn + 1 := by
  have period : task.period = task.bound.toNat + 2 := rfl
  have begun : task.period * turn + (i + 1) + (task.period - 1) =
      task.period * (turn + 1) + i := by
    rw [Nat.mul_succ]
    omega
  rw [Task.turns, begun, Nat.mul_add_div (period_pos task), Nat.div_eq_of_lt (by omega),
    Nat.add_zero]

end turns

/-- A step of a task does what is due after its earlier steps. -/
theorem step_due (state : State) (task : Task) (steps : Nat)
    (here : state.tasks task = task.localAfter steps) :
    (step state task).tasks = Function.update state.tasks task (task.localAfter (steps + 1)) ∧
      (step state task).console =
        print state.console (lineFormat.stream (task.announced steps).toList) := by
  rcases phases task steps with ⟨turn, rfl⟩ | ⟨turn, i, inside, rfl⟩
  · have printed := printAll_eq state.console _ (calls_proper task (BitVec.ofNat 32 turn))
    rw [localAfter_top] at here
    rw [localAfter_delay task turn 0 (Nat.zero_le _), announced_top]
    rw [text_calls ⟨task, BitVec.ofNat 32 turn⟩] at printed
    simp only [step, here]
    refine ⟨?_, ?_⟩
    · rw [ofNat_succ]
      rfl
    · rw [printed, Option.toList_some, Messages.Format.stream_cons]
      exact congrArg _ (List.append_nil _).symm
  · rw [localAfter_delay task turn i inside] at here
    rw [announced_delay task turn i inside]
    simp only [step, here, delay_iff task i inside, decide_eq_true_eq]
    by_cases more : i < task.bound.toNat
    · rw [if_pos more, Nat.add_assoc, localAfter_delay task turn (i + 1) more, ofNat_succ i]
      exact ⟨rfl, rfl⟩
    · have last : task.period * turn + (i + 1) + 1 = task.period * (turn + 1) := by
        have period : task.period = task.bound.toNat + 2 := rfl
        rw [Nat.mul_succ]
        omega
      rw [if_neg more, last, localAfter_top]
      exact ⟨rfl, rfl⟩

theorem stream_proper (log : List Line) : ∀ c ∈ lineFormat.stream log, c ≠ 0 := by
  induction log with
  | nil => exact literal_proper _ rfl
  | cons line rest inductionHypothesis =>
    rw [Messages.Format.stream_cons, List.forall_mem_append, ← text_calls]
    exact ⟨calls_proper line.task line.counter, inductionHypothesis⟩

/-- After every schedule each task is where its own steps have brought it, and the console
shows the lines of the schedule. -/
theorem run_logged (schedule : List Task) (console : Console) :
    (∀ task, (run schedule (start console)).tasks task = task.localAfter (schedule.count task)) ∧
      (run schedule (start console)).console =
        print console (lineFormat.stream (lines schedule)) := by
  induction schedule using List.reverseRecOn with
  | nil => exact ⟨fun task => (localAfter_top task 0).symm, rfl⟩
  | append_singleton schedule task inductionHypothesis =>
    obtain ⟨tasks, shown⟩ := inductionHypothesis
    obtain ⟨moved, printed⟩ := step_due _ task _ (tasks task)
    have last : run (schedule ++ [task]) (start console) =
        step (run schedule (start console)) task := by
      rw [run, List.foldl_append]
      rfl
    rw [last, printed, shown, lines_snoc, Messages.Format.stream_append,
      print_append _ _ _ (stream_proper _)]
    refine ⟨fun other => ?_, rfl⟩
    rw [moved, List.count_append]
    by_cases same : other = task
    · subst same
      rw [Function.update_self, List.count_singleton_self]
    · rw [Function.update_of_ne same, tasks other, List.count_singleton,
        if_neg (by simpa using Ne.symm same), Nat.add_zero]

/-- The counters of the lines of one task are the numbers of its turns, none left out and
none twice. -/
theorem counters_lines (schedule : List Task) (task : Task) :
    ((lines schedule).filter fun line => line.task = task).map Line.counter =
      (List.range (task.turns (schedule.count task))).map (BitVec.ofNat 32) := by
  induction schedule using List.reverseRecOn with
  | nil =>
    have none := turns_top task 0
    rw [Nat.mul_zero] at none
    rw [List.count_nil, none]
    rfl
  | append_singleton schedule other inductionHypothesis =>
    rw [lines_snoc, List.filter_append, List.map_append, inductionHypothesis, List.count_append]
    by_cases same : other = task
    · subst same
      rw [List.count_singleton_self]
      rcases phases other (schedule.count other) with ⟨turn, steps⟩ | ⟨turn, i, inside, steps⟩
      · rw [steps, announced_top, turns_top, turns_delay other turn 0 (Nat.zero_le _),
          List.range_succ, List.map_append]
        simp
      · rw [steps, announced_delay other turn i inside, turns_delay other turn i inside]
        by_cases more : i < other.bound.toNat
        · rw [Nat.add_assoc, turns_delay other turn (i + 1) more]
          exact List.append_nil _
        · have last : other.period * turn + (i + 1) + 1 = other.period * (turn + 1) := by
            have period : other.period = other.bound.toNat + 2 := rfl
            rw [Nat.mul_succ]
            omega
          rw [last, turns_top]
          exact List.append_nil _
    · have theirs : (((other.announced (schedule.count other)).toList.filter fun line =>
          line.task = task).map Line.counter) = [] := by
        rw [Task.announced]
        split
        · simp [same]
        · rfl
      rw [theirs, List.append_nil, List.count_singleton, if_neg (by simpa using same),
        Nat.add_zero]

/-- Whatever the order of the tasks' steps, the console shows one text, from which the
lines of all turns are read back in the order in which the turns began; and the counters
of each task's lines go up from zero, one for every turn that it has begun. -/
theorem log_read_back (schedule : List Task) (console : Console) :
    ∃ log, (run schedule (start console)).console = print console log ∧
      lineFormat.read log = some (lines schedule) ∧
      ∀ task, ((lines schedule).filter fun line => line.task = task).map Line.counter =
        (List.range (task.turns (schedule.count task))).map (BitVec.ofNat 32) :=
  ⟨_, (run_logged schedule console).2, lineFormat.read_stream _, counters_lines schedule⟩

example : lineFormat.stream (lines [.fast, .slow, .fast, .medium]) =
    bytes "FAST: 00000000\nSLOW: 00000000\nMEDIUM: 00000000\n".toList := by decide

end BlueOs.TaskLog
