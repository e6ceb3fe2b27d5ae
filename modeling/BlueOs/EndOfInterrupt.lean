import BlueOs.InterruptDispatch

/-!
# Handlers, the scheduler and the ends of interrupt, counted

Over a run of calls every call invokes the handler of its vector once, if there is
one, and the timer vector calls `schedule` once with what the handler returned. The
constructor maps the lines of the two controllers to the vectors 0x20 to 0x27 and
0x28 to 0x2F; the range test of the end of interrupt also admits vector 0x30. Each
controller is therefore sent as many ends of interrupt as there were vectors of its
own exactly when vector 0x30 does not occur.
-/

namespace BlueOs.EndOfInterrupt

open ByteMemory InterruptManager InterruptDispatch SchedulerSteps

/-- A call for a vector, with what the code of the handlers returns on it. -/
structure Call where
  interruptNumber : Byte
  esp : Word
  invoke : Address → Word → Word

/-- The vector as the stub passes it. -/
def Call.number (call : Call) : Word := call.interruptNumber.setWidth 32

/-- A call with an active manager, which keeps its record. -/
def step (manager : Manager) (call : Call) : Option Manager :=
  (handleInterrupt call.invoke true manager call.number call.esp).map Prod.snd

/-- The manager with an empty record. -/
def recording (manager : Manager) : Manager := { manager with effects := [] }

/-- The handlers invoked and their arguments, newest first. -/
def invocations (effects : List Effect) : List (Address × Word) :=
  effects.filterMap fun
    | .invoked handler esp => some (handler, esp)
    | _ => none

/-- The arguments of the calls of `schedule`, newest first. -/
def schedulings (effects : List Effect) : List Address :=
  effects.filterMap fun
    | .scheduled cpustate => some cpustate
    | _ => none

/-- The ends of interrupt written to a command port. -/
def endsOfInterrupt (port : BitVec 16) (effects : List Effect) : Nat :=
  effects.count (.wrote port 0x20)

/-- The stack pointer after the handler of the vector, if there is one. -/
def handled (manager : Manager) (call : Call) : Word :=
  match manager.interruptHandler call.interruptNumber with
  | some handler => call.invoke handler call.esp
  | none => call.esp

/-- The record of the handler or of the message. -/
def dispatched (manager : Manager) (call : Call) : List Effect :=
  match manager.interruptHandler call.interruptNumber with
  | some handler => [.invoked handler call.esp]
  | none =>
    if call.number ≠ 0x20 then [.printed (unhandledMessage call.number)] else []

/-- The record of the call of `schedule`. -/
def scheduled (manager : Manager) (call : Call) : List Effect :=
  if call.number = 0x20 then [.scheduled (handled manager call)] else []

/-- The record of the ends of interrupt. -/
def acknowledged (call : Call) : List Effect :=
  if 0x20 ≤ call.number ∧ call.number ≤ 0x30 then
    if 0x28 ≤ call.number then [.wrote picSlaveCommand 0x20, .wrote picMasterCommand 0x20]
    else [.wrote picMasterCommand 0x20]
  else []

theorem dispatch_records (manager : Manager) (call : Call) :
    (dispatch call.invoke manager call.number call.esp).1 = handled manager call ∧
      (dispatch call.invoke manager call.number call.esp).2.effects =
        dispatched manager call ++ manager.effects := by
  have vector : call.number.setWidth 8 = call.interruptNumber := by simp [Call.number]
  simp only [dispatch, handled, dispatched, vector]
  cases manager.interruptHandler call.interruptNumber with
  | some handler => exact ⟨rfl, rfl⟩
  | none =>
    dsimp only
    split <;> exact ⟨rfl, rfl⟩

/-- What a call returns: for the timer what `schedule` returns, else what the handler
left. -/
def Returns (manager : Manager) (call : Call) (returned : Word) : Prop :=
  if call.number = 0x20 then
    ∃ tasks, manager.taskManager.schedule (handled manager call) = some (returned, tasks)
  else returned = handled manager call

theorem reschedule_records (manager rescheduled current : Manager) (call : Call) (returned : Word)
    (same : current.taskManager = manager.taskManager)
    (chosen : reschedule current call.number (handled manager call) =
      some (returned, rescheduled)) :
    rescheduled.effects = scheduled manager call ++ current.effects ∧
      Returns manager call returned := by
  simp only [reschedule, scheduled, Returns] at chosen ⊢
  split at chosen
  case isTrue timer =>
    rw [if_pos timer, if_pos timer]
    obtain ⟨outcome, ran, result⟩ := Option.map_eq_some_iff.mp chosen
    obtain ⟨rfl, rfl⟩ := Prod.mk.inj result
    rw [same] at ran
    exact ⟨rfl, outcome.2, ran⟩
  case isFalse other =>
    rw [if_neg other, if_neg other]
    obtain ⟨rfl, rfl⟩ := Prod.mk.inj (Option.some.inj chosen)
    exact ⟨rfl, rfl⟩

theorem acknowledge_records (manager : Manager) (call : Call) :
    (acknowledge manager call.number).effects = acknowledged call ++ manager.effects := by
  simp only [acknowledge, acknowledged]
  split
  · split <;> rfl
  · rfl

/-- A call completes, keeps the handlers, and records the handler, the scheduler and
the ends of interrupt, in this order. -/
theorem call_records (manager : Manager) (valid : Valid manager.taskManager) (call : Call) :
    ∃ returned next, handleInterrupt call.invoke true manager call.number call.esp =
        some (returned, next) ∧
      next.effects =
        acknowledged call ++ (scheduled manager call ++ (dispatched manager call ++
          manager.effects)) ∧
      Returns manager call returned ∧ next.interruptHandler = manager.interruptHandler ∧
      Valid next.taskManager := by
  have vector : call.number < 256 := by
    simp only [Call.number, BitVec.lt_def, BitVec.toNat_setWidth]
    have small := call.interruptNumber.isLt
    have wide : (256 : Word).toNat = 256 := rfl
    omega
  have inside : ¬ 256 ≤ call.number := by bv_omega
  obtain ⟨returned, next, called, handles, nextValid⟩ :=
    doHandleInterrupt_handles call.invoke manager call.number call.esp vector valid
  obtain ⟨stack, record⟩ := dispatch_records manager call
  obtain ⟨-, -, -, tasks⟩ := dispatch_keeps call.invoke manager call.number call.esp
  obtain ⟨outcome, chosen, finished⟩ : ∃ outcome,
      reschedule (dispatch call.invoke manager call.number call.esp).2 call.number
        (handled manager call) = some outcome ∧
      (outcome.1, acknowledge outcome.2 call.number) = (returned, next) := by
    rw [doHandleInterrupt, if_neg inside, ← stack] at *
    obtain ⟨outcome, chosen, finished⟩ := Option.bind_eq_some_iff.mp called
    exact ⟨outcome, chosen, Option.some.inj finished⟩
  obtain ⟨rfl, rfl⟩ := Prod.mk.inj finished
  obtain ⟨effects, returns⟩ :=
    reschedule_records manager outcome.2 _ call outcome.1 tasks chosen
  refine ⟨outcome.1, _, called, ?_, returns, handles.handlers, nextValid⟩
  rw [acknowledge_records, effects, record]

/-- A call serves its vector: it completes, invokes the registered handler once and
with the incoming stack pointer, and for the timer alone calls `schedule` once, with
what the handler left, and returns its result. -/
def Serves (manager : Manager) (call : Call) : Prop :=
  ∃ returned next recent, handleInterrupt call.invoke true manager call.number call.esp =
      some (returned, next) ∧
    next.effects = recent ++ manager.effects ∧
    invocations recent =
      (manager.interruptHandler call.interruptNumber).toList.map
        (fun handler => (handler, call.esp)) ∧
    schedulings recent = (if call.number = 0x20 then [handled manager call] else []) ∧
    Returns manager call returned

/-- Ends of interrupt are neither handlers nor calls of `schedule`. -/
theorem acknowledged_silent (call : Call) :
    invocations (acknowledged call) = [] ∧ schedulings (acknowledged call) = [] := by
  simp only [acknowledged]
  split
  · split <;> exact ⟨rfl, rfl⟩
  · exact ⟨rfl, rfl⟩

theorem dispatched_invokes (manager : Manager) (call : Call) :
    invocations (dispatched manager call) =
        (manager.interruptHandler call.interruptNumber).toList.map
          (fun handler => (handler, call.esp)) ∧
      schedulings (dispatched manager call) = [] := by
  simp only [dispatched]
  cases manager.interruptHandler call.interruptNumber with
  | some handler => exact ⟨rfl, rfl⟩
  | none =>
    dsimp only
    split <;> exact ⟨rfl, rfl⟩

theorem scheduled_schedules (manager : Manager) (call : Call) :
    invocations (scheduled manager call) = [] ∧
      schedulings (scheduled manager call) =
        if call.number = 0x20 then [handled manager call] else [] := by
  simp only [scheduled]
  split <;> exact ⟨rfl, rfl⟩

theorem call_serves (manager : Manager) (valid : Valid manager.taskManager) (call : Call) :
    Serves manager call := by
  obtain ⟨returned, next, called, effects, returns, -⟩ := call_records manager valid call
  refine ⟨returned, next, acknowledged call ++ (scheduled manager call ++ dispatched manager call),
    called, by simpa only [List.append_assoc] using effects, ?_, ?_, returns⟩
  · simp only [invocations, List.filterMap_append] at *
    have silent := (acknowledged_silent call).1
    have schedules := (scheduled_schedules manager call).1
    have invokes := (dispatched_invokes manager call).1
    simp only [invocations] at silent schedules invokes
    rw [silent, schedules, invokes, List.nil_append, List.nil_append]
  · simp only [schedulings, List.filterMap_append]
    have silent := (acknowledged_silent call).2
    have schedules := (scheduled_schedules manager call).2
    have invokes := (dispatched_invokes manager call).2
    simp only [schedulings] at silent schedules invokes
    rw [silent, schedules, invokes, List.nil_append, List.append_nil]

/-- The ends of interrupt that one call writes to each controller. -/
theorem call_ends (manager : Manager) (call : Call) :
    endsOfInterrupt picMasterCommand
        (acknowledged call ++ (scheduled manager call ++ (dispatched manager call ++
          manager.effects))) =
      endsOfInterrupt picMasterCommand manager.effects +
        (if 0x20 ≤ call.number ∧ call.number ≤ 0x30 then 1 else 0) ∧
    endsOfInterrupt picSlaveCommand
        (acknowledged call ++ (scheduled manager call ++ (dispatched manager call ++
          manager.effects))) =
      endsOfInterrupt picSlaveCommand manager.effects +
        (if 0x28 ≤ call.number ∧ call.number ≤ 0x30 then 1 else 0) := by
  have quiet : ∀ port, endsOfInterrupt port (scheduled manager call) = 0 ∧
      endsOfInterrupt port (dispatched manager call) = 0 := by
    intro port
    constructor
    · simp only [scheduled]
      split <;> rfl
    · simp only [dispatched]
      cases manager.interruptHandler call.interruptNumber with
      | some handler => rfl
      | none =>
        dsimp only
        split <;> rfl
  have own : endsOfInterrupt picMasterCommand (acknowledged call) =
        (if 0x20 ≤ call.number ∧ call.number ≤ 0x30 then 1 else 0) ∧
      endsOfInterrupt picSlaveCommand (acknowledged call) =
        (if 0x28 ≤ call.number ∧ call.number ≤ 0x30 then 1 else 0) := by
    simp only [acknowledged]
    by_cases line : 0x20 ≤ call.number ∧ call.number ≤ 0x30
    · rw [if_pos line, if_pos line]
      by_cases slave : 0x28 ≤ call.number
      · rw [if_pos slave, if_pos ⟨slave, line.2⟩]
        decide
      · rw [if_neg slave, if_neg (fun both => slave both.1)]
        decide
    · have outside : ¬ (0x28 ≤ call.number ∧ call.number ≤ 0x30) := by
        intro both
        apply line
        exact ⟨by bv_omega, both.2⟩
      rw [if_neg line, if_neg line, if_neg outside]
      decide
  simp only [endsOfInterrupt, List.count_append] at quiet own ⊢
  simp only [quiet, own]
  omega

/-- What the constructor's comments promise of the record of a run. -/
structure Counted (calls : List Call) (final : Manager) : Prop where
  master : endsOfInterrupt picMasterCommand final.effects =
    calls.countP fun call => 0x20 ≤ call.interruptNumber ∧ call.interruptNumber ≤ 0x2F
  slave : endsOfInterrupt picSlaveCommand final.effects =
    calls.countP fun call => 0x28 ≤ call.interruptNumber ∧ call.interruptNumber ≤ 0x2F

/-- A run writes an end of interrupt for every vector that passes the range tests. -/
theorem run_ends (manager : Manager) (valid : Valid manager.taskManager) (calls : List Call) :
    ∃ final, Runs.run step calls (recording manager) = some final ∧ Valid final.taskManager ∧
      final.interruptHandler = manager.interruptHandler ∧
      endsOfInterrupt picMasterCommand final.effects =
        calls.countP (fun call => 0x20 ≤ call.number ∧ call.number ≤ 0x30) ∧
      endsOfInterrupt picSlaveCommand final.effects =
        calls.countP (fun call => 0x28 ≤ call.number ∧ call.number ≤ 0x30) := by
  obtain ⟨final, completed, finalValid, handlers, master, slave⟩ := Runs.run_total step
    (fun rest current => Valid current.taskManager ∧
      current.interruptHandler = manager.interruptHandler ∧
      endsOfInterrupt picMasterCommand current.effects +
          rest.countP (fun call => 0x20 ≤ call.number ∧ call.number ≤ 0x30) =
        calls.countP (fun call => 0x20 ≤ call.number ∧ call.number ≤ 0x30) ∧
      endsOfInterrupt picSlaveCommand current.effects +
          rest.countP (fun call => 0x28 ≤ call.number ∧ call.number ≤ 0x30) =
        calls.countP (fun call => 0x28 ≤ call.number ∧ call.number ≤ 0x30))
    (by
      rintro call rest current ⟨currentValid, handlers, master, slave⟩
      obtain ⟨returned, next, called, effects, -, kept, nextValid⟩ :=
        call_records current currentValid call
      obtain ⟨masterEnds, slaveEnds⟩ := call_ends current call
      rw [List.countP_cons] at master slave
      simp only [decide_eq_true_eq] at master slave
      refine ⟨next, by rw [step, called, Option.map_some], nextValid, kept.trans handlers, ?_, ?_⟩
      · rw [effects, masterEnds]
        omega
      · rw [effects, slaveEnds]
        omega)
    calls (recording manager) ⟨valid, rfl, by simp [recording, endsOfInterrupt],
      by simp [recording, endsOfInterrupt]⟩
  exact ⟨final, completed, finalValid, handlers, by simpa using master, by simpa using slave⟩

/-- The range tests pass one vector more than the lines have. -/
theorem countP_admitted (first : Byte) (low : first ≤ 0x2F) (calls : List Call) :
    calls.countP (fun call => first.setWidth 32 ≤ call.number ∧ call.number ≤ 0x30) =
      calls.countP (fun call => first ≤ call.interruptNumber ∧ call.interruptNumber ≤ 0x2F) +
        calls.countP fun call => call.interruptNumber = 0x30 := by
  induction calls with
  | nil => rfl
  | cons call rest inductionHypothesis =>
    have admitted : (first.setWidth 32 ≤ call.number ∧ call.number ≤ 0x30) ↔
        (first ≤ call.interruptNumber ∧ call.interruptNumber ≤ 0x2F) ∨
          call.interruptNumber = 0x30 := by
      simp only [Call.number]
      bv_omega
    have apart : call.interruptNumber = 0x30 →
        ¬ (first ≤ call.interruptNumber ∧ call.interruptNumber ≤ 0x2F) := by bv_omega
    simp only [List.countP_cons, inductionHypothesis, decide_eq_true_eq, admitted]
    by_cases past : call.interruptNumber = 0x30
    · rw [if_pos (Or.inr past), if_neg (apart past), if_pos past]
      omega
    · rw [if_neg past]
      simp only [past, or_false]
      omega

/-- In every run of calls with an active manager every call serves its vector, and
each controller is sent as many ends of interrupt as there were vectors of its own
exactly if vector 0x30 does not occur. -/
theorem ends_counted_iff (manager : Manager) (valid : Valid manager.taskManager)
    (calls : List Call) :
    ∃ final, Runs.run step calls (recording manager) = some final ∧
      final.interruptHandler = manager.interruptHandler ∧ (∀ call, Serves final call) ∧
      (Counted calls final ↔ ∀ call ∈ calls, call.interruptNumber ≠ 0x30) := by
  obtain ⟨final, completed, finalValid, handlers, master, slave⟩ := run_ends manager valid calls
  have masterCount := countP_admitted 0x20 (by decide) calls
  have slaveCount := countP_admitted 0x28 (by decide) calls
  have absent : calls.countP (fun call => call.interruptNumber = 0x30) = 0 ↔
      ∀ call ∈ calls, call.interruptNumber ≠ 0x30 := by
    simp [List.countP_eq_zero]
  refine ⟨final, completed, handlers, call_serves final finalValid, ?_⟩
  rw [← absent]
  constructor
  · intro counted
    have same := master.symm.trans counted.master
    exact Nat.add_left_cancel (masterCount.symm.trans same)
  · intro none
    rw [none, Nat.add_zero] at masterCount slaveCount
    exact ⟨master.trans masterCount, slave.trans slaveCount⟩

/-- A manager without handlers and tasks. -/
def idle : Manager := zeroed (TaskManager.construct fun _ => ⟨0, 0, 0, 0⟩)

theorem idle_valid : Valid idle.taskManager := by
  constructor <;> simp [idle, zeroed, TaskManager.construct, TaskManager.Manager.numTasks]

theorem ends_counted_iff_timer_and_mouse :
    ∃ final, Runs.run step [⟨0x20, 0x8F00, fun _ esp => esp⟩, ⟨0x2C, 0x8F00, fun _ esp => esp⟩]
        (recording idle) = some final ∧
      Counted [⟨0x20, 0x8F00, fun _ esp => esp⟩, ⟨0x2C, 0x8F00, fun _ esp => esp⟩] final := by
  obtain ⟨final, completed, -, -, counted⟩ := ends_counted_iff idle idle_valid
    [⟨0x20, 0x8F00, fun _ esp => esp⟩, ⟨0x2C, 0x8F00, fun _ esp => esp⟩]
  exact ⟨final, completed, counted.mpr (by decide)⟩

/-- Vector 0x30 is acknowledged at both controllers, though no line has it. -/
theorem vector_past_the_lines :
    ∃ final, Runs.run step [⟨0x30, 0x8F00, fun _ esp => esp⟩] (recording idle) = some final ∧
      endsOfInterrupt picMasterCommand final.effects = 1 ∧
      endsOfInterrupt picSlaveCommand final.effects = 1 ∧
      ¬ Counted [⟨0x30, 0x8F00, fun _ esp => esp⟩] final := by
  refine ⟨_, rfl, by decide, by decide, ?_⟩
  intro counted
  exact absurd counted.master (by decide)

end BlueOs.EndOfInterrupt
