import BlueOs.Library.Runs
import BlueOs.Library.WordStack
import Mathlib.Logic.Function.Basic

/-!
# The task table and its five scheduling policies

A `TaskManager` holds pointers to tasks in a table of 256 slots, the number of
slots in use and the number of the current task, minus one when none has run. The
table is the list of the slots in use, so its length is `numTasks`. Task objects
live at their own addresses: two slots that held one pointer would share a task.

Each policy takes the CPU state pointer of the interrupted context and returns
the one to resume. Reading a slot outside the slots in use, and a remainder by
zero, have no result; every policy is a partial function for that reason only.
-/

namespace BlueOs.TaskManager

open ByteMemory

/-- A task without its stack, which is bytes in memory. -/
structure Task where
  cpustate : Address
  burstTime : Word
  remainingTime : Word
  priority : Word
deriving DecidableEq

/-- The members of `CPUState`, each a word, in their order from the lowest
address. -/
inductive CPUState where
  | eax
  | ebx
  | ecx
  | edx
  | esi
  | edi
  | ebp
  | error
  | eip
  | cs
  | eflags
  | esp
  | ss
deriving DecidableEq

def CPUState.index : CPUState → Nat
  | eax => 0
  | ebx => 1
  | ecx => 2
  | edx => 3
  | esi => 4
  | edi => 5
  | ebp => 6
  | error => 7
  | eip => 8
  | cs => 9
  | eflags => 10
  | esp => 11
  | ss => 12

/-- `sizeof(CPUState)`: thirteen words. -/
def sizeofCPUState : Word := 52

/-- Where the constructor places the first frame. The stack is the first member,
so it starts at the task's own address. -/
def initialFrame (task : Address) : Address := task + 4096 - sizeofCPUState

/-- The members the `Task` constructor sets beside the frame. -/
def Task.construct (task : Address) (burst prio : Word) : Task where
  cpustate := initialFrame task
  burstTime := burst
  remainingTime := burst
  priority := prio

/-- The assignments to the first frame, in order. The error word, `esp` and `ss`
are left as they were. -/
def Task.frame (entrypoint : Word) : List (CPUState × Word) :=
  [(.eax, 0), (.ebx, 0), (.ecx, 0), (.edx, 0), (.esi, 0), (.edi, 0), (.ebp, 0),
    (.eip, entrypoint), (.cs, 0x08), (.eflags, 0x202)]

/-- The bytes of the stack after the `Task` constructor. -/
def Task.constructStack (task : Address) (entrypoint : Word) (memory : Memory) : Memory :=
  (Task.frame entrypoint).foldl
    (fun memory assigned =>
      WordStack.storeAt memory (initialFrame task) assigned.1.index assigned.2)
    memory

structure Manager where
  tasks : List Address
  currentTask : Int
  objects : Address → Task

/-- `TaskManager::TaskManager` -/
def construct (objects : Address → Task) : Manager where
  tasks := []
  currentTask := -1
  objects := objects

namespace Manager

variable (manager : Manager)

def numTasks : Int := manager.tasks.length

/-- `tasks[index]`, for an index in use. -/
def slot (index : Int) : Option Address :=
  if 0 ≤ index then manager.tasks[index.toNat]? else none

/-- `*tasks[index]` -/
def taskAt (index : Int) : Option Task := (manager.slot index).map manager.objects

/-- Assign members of `*tasks[index]`. -/
def modify (index : Int) (change : Task → Task) : Option Manager :=
  (manager.slot index).map fun task =>
    { manager with
      objects := Function.update manager.objects task (change (manager.objects task)) }

/-- `tasks[index]->cpustate = cpustate` -/
def saveContext (index : Int) (cpustate : Address) : Option Manager :=
  manager.modify index fun task => { task with cpustate := cpustate }

/-- `if(currentTask >= 0) tasks[currentTask]->cpustate = cpustate` -/
def saveCurrent (cpustate : Address) : Option Manager :=
  if 0 ≤ manager.currentTask then manager.saveContext manager.currentTask cpustate
  else some manager

/-- `currentTask = index` -/
def setCurrent (index : Int) : Manager := { manager with currentTask := index }

/-- `return tasks[currentTask]->cpustate` -/
def resumeCurrent : Option (Address × Manager) :=
  (manager.taskAt manager.currentTask).map fun task => (task.cpustate, manager)

/-- `TaskManager::addTask` -/
def addTask (task : Address) : Bool × Manager :=
  if manager.numTasks < 256 then (true, { manager with tasks := manager.tasks ++ [task] })
  else (false, manager)

/-- The remainder of `int`s, truncated toward zero. -/
def remainder (dividend divisor : Int) : Option Int :=
  if divisor = 0 then none else some (dividend.tmod divisor)

/-- Round robin. -/
def schedule (cpustate : Address) : Option (Address × Manager) :=
  if manager.numTasks = 0 then some (cpustate, manager)
  else do
    let manager ← manager.saveCurrent cpustate
    let next ← remainder (manager.currentTask + 1) manager.numTasks
    (manager.setCurrent next).resumeCurrent

/-- First come, first served. -/
def fcfs (cpustate : Address) : Option (Address × Manager) :=
  if manager.numTasks = 0 then some (cpustate, manager)
  else do
    let manager := if manager.currentTask = -1 then manager.setCurrent 0 else manager
    let manager ← manager.saveContext manager.currentTask cpustate
    manager.resumeCurrent

/-- One iteration of the search in `sjf`. -/
def shortestStep (best : Int) (index : Nat) : Option Int := do
  let task ← manager.taskAt index
  if 0 < task.remainingTime then
    if best = -1 then some index
    else do
      let champion ← manager.taskAt best
      some (if task.burstTime < champion.burstTime then index else best)
  else some best

/-- The unfinished task of least burst time, or minus one. -/
def shortest : Option Int := Runs.run manager.shortestStep (List.range manager.tasks.length) (-1)

/-- `currentTask >= 0 && tasks[currentTask]->remainingTime > 0` -/
def unfinished : Option Bool :=
  if 0 ≤ manager.currentTask then
    (manager.taskAt manager.currentTask).map fun task => decide (0 < task.remainingTime)
  else some false

/-- Shortest job first. -/
def sjf (cpustate : Address) : Option (Address × Manager) :=
  if manager.numTasks = 0 then some (cpustate, manager)
  else do
    let manager ← manager.saveCurrent cpustate
    let continues ← manager.unfinished
    if continues then manager.resumeCurrent
    else do
      let best ← manager.shortest
      if best = -1 then some (cpustate, manager)
      else (manager.setCurrent best).resumeCurrent

/-- One iteration of the searches in `srtf` and `prioritySchedule`, which differ
in the member they compare. -/
def leastStep (key : Task → Word) (best : Int) (index : Nat) : Option Int := do
  let task ← manager.taskAt index
  let champion ← manager.taskAt best
  some (if key task < key champion then index else best)

/-- The search starts at slot 0 and compares the slots from 1 on. -/
def least (key : Task → Word) : Option Int :=
  Runs.run (manager.leastStep key) (List.range' 1 (manager.tasks.length - 1)) 0

/-- Save the context of the current task and charge it one tick. -/
def charge (cpustate : Address) : Option Manager :=
  if 0 ≤ manager.currentTask then do
    let manager ← manager.saveContext manager.currentTask cpustate
    manager.modify manager.currentTask fun task =>
      { task with remainingTime := task.remainingTime - 1 }
  else some manager

/-- Shortest remaining time first. -/
def srtf (cpustate : Address) : Option (Address × Manager) :=
  if manager.numTasks = 0 then some (cpustate, manager)
  else do
    let manager ← manager.charge cpustate
    let best ← manager.least Task.remainingTime
    (manager.setCurrent best).resumeCurrent

/-- Priority scheduling. -/
def prioritySchedule (cpustate : Address) : Option (Address × Manager) :=
  if manager.numTasks = 0 then some (cpustate, manager)
  else do
    let manager ← manager.saveCurrent cpustate
    let best ← manager.least Task.priority
    (manager.setCurrent best).resumeCurrent

end Manager

/-- The scheduling entry points. -/
inductive Policy where
  | schedule
  | fcfs
  | sjf
  | srtf
  | prioritySchedule
deriving DecidableEq

def Policy.tick (policy : Policy) (manager : Manager) (cpustate : Address) :
    Option (Address × Manager) :=
  match policy with
  | schedule => manager.schedule cpustate
  | fcfs => manager.fcfs cpustate
  | sjf => manager.sjf cpustate
  | srtf => manager.srtf cpustate
  | prioritySchedule => manager.prioritySchedule cpustate

end BlueOs.TaskManager
