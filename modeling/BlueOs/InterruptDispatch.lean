import BlueOs.InterruptManager
import BlueOs.SchedulerSteps

/-!
# What the interrupt manager does

The constructor leaves every vector without a handler, every gate but three at the
default routine and both controllers ready with nothing in service. A call of
`doHandleInterrupt` then keeps the table and the handlers, keeps the task manager
valid, and writes the end of interrupt that the vector asks for; the timer vector
without a handler is a call of `schedule` and nothing else.
-/

namespace BlueOs.InterruptDispatch

open ByteMemory InterruptManager

section construct

variable (link : Routine → Word) (before : Manager) (taskManager : TaskManager.Manager)

/-- The gate of a routine. -/
def gateOf (routine : Routine) : GateDescriptor :=
  gateDescriptor codeSegment (link routine) 0 idtInterruptGate

/-- The two halves of the address join to the address. -/
theorem gateOf_handlerAddress (routine : Routine) :
    (gateOf link routine).handlerAddress = link routine := by
  have ones : ∀ index < 16, (0xFFFF : Word).getLsbD index = true := by decide
  simp only [gateOf, gateDescriptor, GateDescriptor.handlerAddress]
  ext index inside
  simp only [BitVec.getElem_append, BitVec.getElem_setWidth, BitVec.getLsbD_and,
    BitVec.getLsbD_ushiftRight]
  split
  case isTrue low => rw [ones index low, Bool.and_true, BitVec.getLsbD_eq_getElem]
  case isFalse high =>
    rw [ones (index - 16) (by omega), Bool.and_true, show 16 + (index - 16) = index by omega,
      BitVec.getLsbD_eq_getElem]

/-- A vector is reset once the loop has passed it, and stays reset. -/
theorem resetVectors (interrupts : List Nat) (vector : Byte) (manager : Manager)
    (reached : (∃ interrupt ∈ interrupts, BitVec.ofNat 8 interrupt = vector) ∨
      (manager.interruptHandler vector = none ∧
        manager.interruptDescriptorTable vector = gateOf link .ignoreInterruptRequest)) :
    (interrupts.foldl (resetVector link) manager).interruptHandler vector = none ∧
      (interrupts.foldl (resetVector link) manager).interruptDescriptorTable vector =
        gateOf link .ignoreInterruptRequest := by
  induction interrupts generalizing manager with
  | nil => simpa using reached
  | cons interrupt rest inductionHypothesis =>
    apply inductionHypothesis
    by_cases here : vector = BitVec.ofNat 8 interrupt
    · right
      simp [resetVector, setInterruptDescriptorEntry, gateOf, here]
    · rcases reached with ⟨other, member, same⟩ | done
      · left
        rcases List.mem_cons.mp member with rfl | later
        · exact absurd same.symm here
        · exact ⟨other, later, same⟩
      · right
        simpa [resetVector, setInterruptDescriptorEntry, here] using done

/-- The gates that the constructor leaves. -/
def installed (vector : Byte) : Routine :=
  if vector = 0x2C then .handleInterruptRequest0x0C
  else if vector = 0x21 then .handleInterruptRequest0x01
  else if vector = 0x20 then .handleInterruptRequest0x00
  else .ignoreInterruptRequest

theorem every_vector_reset (vector : Byte) :
    ∃ interrupt ∈ List.range 256, BitVec.ofNat 8 interrupt = vector :=
  ⟨vector.toNat, List.mem_range.mpr vector.isLt, by simp⟩

theorem construct_interruptHandler (vector : Byte) :
    (construct link before taskManager).interruptHandler vector = none :=
  (resetVectors link (List.range 256) vector _ (Or.inl (every_vector_reset vector))).1

theorem construct_gate (vector : Byte) :
    (construct link before taskManager).interruptDescriptorTable vector =
      gateOf link (installed vector) := by
  have reset := (resetVectors link (List.range 256) vector
    { before with taskManager := taskManager } (Or.inl (every_vector_reset vector))).2
  change setInterruptDescriptorEntry (setInterruptDescriptorEntry (setInterruptDescriptorEntry
    _ 0x20 _ _ _ _) 0x21 _ _ _ _) 0x2C _ _ _ _ vector = _
  simp only [setInterruptDescriptorEntry, Function.update_apply, installed]
  split
  · rfl
  · split
    · rfl
    · split
      · rfl
      · exact reset

theorem construct_taskManager :
    (construct link before taskManager).taskManager = taskManager := by
  have kept : ∀ (interrupts : List Nat) (manager : Manager),
      (interrupts.foldl (resetVector link) manager).taskManager = manager.taskManager := by
    intro interrupts
    induction interrupts with
    | nil => simp
    | cons interrupt rest inductionHypothesis =>
      intro manager
      rw [List.foldl_cons, inductionHypothesis]
      rfl
  simp only [construct, initialization, List.foldl_cons, List.foldl_nil, Manager.write,
    Manager.record, setGate, kept]

/-- A controller after its initialization words. -/
def initialized (base : Byte) : Pic8259.Controller where
  stage := .ready
  base := base
  mask := 0
  inService := 0

/-- Whatever the controllers were, the constructor leaves every line unmasked, the
lines at vectors 0x20 to 0x2F and none in service. -/
theorem construct_pics :
    (construct link before taskManager).pics =
      { master := initialized 0x20, slave := initialized 0x28 } := by
  simp [construct, initialization, Manager.write, Manager.record, picMasterCommand, picMasterData,
    picSlaveCommand, picSlaveData, Pic8259.Controller.writeCommand, Pic8259.Controller.writeData,
    initialized]

end construct

/-- The controllers after the end of interrupt for a vector. -/
def acknowledgedPics (pics : Pic8259.Pair) (interruptNumber : Word) : Pic8259.Pair :=
  if 0x20 ≤ interruptNumber ∧ interruptNumber ≤ 0x30 then
    { master := pics.master.writeCommand 0x20
      slave := if 0x28 ≤ interruptNumber then pics.slave.writeCommand 0x20 else pics.slave }
  else pics

/-- What every call keeps, and what it does to the controllers. -/
structure Handles (manager next : Manager) (interruptNumber : Word) : Prop where
  table : next.interruptDescriptorTable = manager.interruptDescriptorTable
  handlers : next.interruptHandler = manager.interruptHandler
  pics : next.pics = acknowledgedPics manager.pics interruptNumber

/-- The end of interrupt touches the controllers and the record alone. -/
theorem acknowledge_handles (manager : Manager) (interruptNumber : Word) :
    Handles manager (acknowledge manager interruptNumber) interruptNumber ∧
      (acknowledge manager interruptNumber).taskManager = manager.taskManager := by
  simp only [acknowledge]
  split
  case isTrue line =>
    split
    case isTrue slave =>
      exact ⟨⟨rfl, rfl, by
        simp only [acknowledgedPics, if_pos line, if_pos slave]
        rfl⟩, rfl⟩
    case isFalse own =>
      exact ⟨⟨rfl, rfl, by
        simp only [acknowledgedPics, if_pos line, if_neg own]
        rfl⟩, rfl⟩
  case isFalse outside =>
    exact ⟨⟨rfl, rfl, by simp only [acknowledgedPics, if_neg outside]⟩, rfl⟩

theorem dispatch_keeps (invoke : Address → Word → Word) (manager : Manager)
    (interruptNumber esp : Word) :
    (dispatch invoke manager interruptNumber esp).2.interruptDescriptorTable =
        manager.interruptDescriptorTable ∧
      (dispatch invoke manager interruptNumber esp).2.interruptHandler = manager.interruptHandler ∧
      (dispatch invoke manager interruptNumber esp).2.pics = manager.pics ∧
      (dispatch invoke manager interruptNumber esp).2.taskManager = manager.taskManager := by
  simp only [dispatch]
  split
  · exact ⟨rfl, rfl, rfl, rfl⟩
  · split <;> exact ⟨rfl, rfl, rfl, rfl⟩

/-- A call for a vector with a valid task manager returns. -/
theorem doHandleInterrupt_handles (invoke : Address → Word → Word) (manager : Manager)
    (interruptNumber esp : Word) (vector : interruptNumber < 256)
    (valid : SchedulerSteps.Valid manager.taskManager) :
    ∃ returned next, doHandleInterrupt invoke manager interruptNumber esp = some (returned, next) ∧
      Handles manager next interruptNumber ∧ SchedulerSteps.Valid next.taskManager := by
  have inside : ¬ 256 ≤ interruptNumber := by bv_omega
  obtain ⟨table, handlers, pics, tasks⟩ := dispatch_keeps invoke manager interruptNumber esp
  obtain ⟨chosen, dispatched, handled⟩ : ∃ chosen dispatched,
      dispatch invoke manager interruptNumber esp = (chosen, dispatched) := ⟨_, _, rfl⟩
  rw [handled] at table handlers pics tasks
  have finish (rescheduled : Manager)
      (sameTable : rescheduled.interruptDescriptorTable = manager.interruptDescriptorTable)
      (sameHandlers : rescheduled.interruptHandler = manager.interruptHandler)
      (samePics : rescheduled.pics = manager.pics)
      (stillValid : SchedulerSteps.Valid rescheduled.taskManager) :
      Handles manager (acknowledge rescheduled interruptNumber) interruptNumber ∧
        SchedulerSteps.Valid (acknowledge rescheduled interruptNumber).taskManager := by
    obtain ⟨acknowledged, kept⟩ := acknowledge_handles rescheduled interruptNumber
    refine ⟨⟨acknowledged.table.trans sameTable, acknowledged.handlers.trans sameHandlers, ?_⟩, ?_⟩
    · rw [acknowledged.pics, samePics]
    · rw [kept]
      exact stillValid
  by_cases timer : interruptNumber = 0x20
  · subst timer
    obtain ⟨returned, scheduled, called, ticks, -⟩ :=
      SchedulerSteps.schedule_ticks dispatched.taskManager (by rw [tasks]; exact valid) chosen
    refine ⟨returned, _, ?_, finish
      ({ dispatched with taskManager := scheduled }.record (.scheduled chosen))
      table handlers pics ticks.valid⟩
    simp only [doHandleInterrupt, inside, if_false, handled, reschedule, if_true, called,
      Option.map_some, Option.bind_eq_bind, Option.bind_some]
  · refine ⟨chosen, _, ?_, finish dispatched table handlers pics (by rw [tasks]; exact valid)⟩
    simp only [doHandleInterrupt, inside, if_false, handled, reschedule, timer,
      Option.bind_eq_bind, Option.bind_some]

/-- The timer vector without a handler is a call of `schedule`. -/
theorem timer_schedules (invoke : Address → Word → Word) (manager : Manager) (esp returned : Word)
    (scheduled : TaskManager.Manager) (vacant : manager.interruptHandler 0x20 = none)
    (called : manager.taskManager.schedule esp = some (returned, scheduled)) :
    ∃ next, handleInterrupt invoke true manager 0x20 esp = some (returned, next) ∧
      next.taskManager = scheduled ∧ next.interruptHandler = manager.interruptHandler := by
  have unhandled : dispatch invoke manager 0x20 esp = (esp, manager) := by
    simp only [dispatch]
    rw [show (0x20 : Word).setWidth 8 = 0x20 from rfl, vacant]
    rfl
  obtain ⟨acknowledged, kept⟩ := acknowledge_handles
    ({ manager with taskManager := scheduled }.record (.scheduled esp)) 0x20
  refine ⟨_, ?_, kept, acknowledged.handlers⟩
  simp only [handleInterrupt, if_true, doHandleInterrupt,
    show ¬ (256 : Word) ≤ 0x20 by decide, if_false, unhandled, reschedule, called, Option.map_some,
    Option.bind_eq_bind, Option.bind_some]

end BlueOs.InterruptDispatch
