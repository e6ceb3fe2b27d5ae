import BlueOs.InterruptManager

/-!
# The interrupt stubs

The processor pushes three words when it delivers an interrupt, the stub pushes
eight more and calls the interrupt manager with the stack pointer; the pointer the
call returns becomes the stack pointer, and the stub pops what lies there. The
words pushed and the words popped meet in the layout of `CPUState`, which is also
what the `Task` constructor forges.

All tasks run at one privilege level, so `iret` pops three words and switches no
stack. The byte `interruptnumber` and the three after it are the argument of the
call; the latter are taken to be zero.
-/

namespace BlueOs.InterruptStubs

open ByteMemory WordStack
open TaskManager (CPUState)
open InterruptManager (GateDescriptor handleInterrupt)

/-- The registers that the stub saves with a push each. -/
inductive General where
  | eax
  | ebx
  | ecx
  | edx
  | esi
  | edi
  | ebp
deriving DecidableEq

/-- The member of `CPUState` that keeps a register. -/
def General.member : General → CPUState
  | eax => .eax
  | ebx => .ebx
  | ecx => .ecx
  | edx => .edx
  | esi => .esi
  | edi => .edi
  | ebp => .ebp

@[ext] structure Registers where
  general : General → Word
  eip : Word
  cs : BitVec 16
  eflags : Word
  esp : Address

structure Processor where
  registers : Registers
  memory : Memory

namespace Processor

variable (processor : Processor)

def stack : Stack where
  pointer := processor.registers.esp
  memory := processor.memory

def setStack (stack : Stack) : Processor where
  registers := { processor.registers with esp := stack.pointer }
  memory := stack.memory

def pushl (word : Word) : Processor := processor.setStack (push processor.stack word)

def pushRegister (register : General) : Processor :=
  processor.pushl (processor.registers.general register)

def popRegister (register : General) : Processor :=
  let (word, stack) := pop processor.stack
  let popped := processor.setStack stack
  { popped with
    registers := { popped.registers with
      general := Function.update popped.registers.general register word } }

/-- The flags that an interrupt gate clears: trap, interrupt enable, nested task,
resume and virtual mode. -/
def gateFlags : Word := 0x34300

/-- The processor enters the routine of a gate. -/
def deliver (gate : GateDescriptor) : Processor :=
  let entered := ((processor.pushl processor.registers.eflags).pushl
    (processor.registers.cs.setWidth 32)).pushl processor.registers.eip
  { entered with
    registers := { entered.registers with
      eip := gate.handlerAddress
      cs := gate.gdtCodeSegmentSelector
      eflags := processor.registers.eflags &&& ~~~gateFlags } }

def iret : Processor :=
  let (eip, stack) := pop processor.stack
  let (cs, stack) := pop stack
  let (eflags, stack) := pop stack
  { registers := { processor.registers with
      eip := eip
      cs := cs.setWidth 16
      eflags := eflags
      esp := stack.pointer }
    memory := stack.memory }

/-- A near return. -/
def ret : Processor :=
  let (eip, stack) := pop processor.stack
  let returned := processor.setStack stack
  { returned with registers := { returned.registers with eip := eip } }

/-- The pushes of `handleInterruptRequest` and `int_bottom` before the call. -/
def save : Processor :=
  [General.ebp, .edi, .esi, .edx, .ecx, .ebx, .eax].foldl pushRegister (processor.pushl 0)

/-- `add $4, %esp` -/
def dropWord : Processor :=
  processor.setStack { processor.stack with pointer := processor.stack.pointer + 4 }

/-- `int_bottom` after the call: the returned pointer becomes the stack pointer. -/
def restore (returned : Address) : Processor :=
  let switched := processor.setStack { processor.stack with pointer := returned }
  ([General.eax, .ebx, .ecx, .edx, .esi, .edi, .ebp].foldl popRegister switched).dropWord.iret

end Processor

/-- What a C++ call leaves of the memory. The frame above its arguments is its
caller's and is kept. -/
structure Call where
  leaves : Address → Memory → Memory
  keeps : ∀ esp before tested, (tested - esp).toNat < 44 → leaves esp before tested = before tested

/-- A stub from its first push to its `iret`. -/
def handleInterruptRequest (invoke : Address → Word → Word) (active : Bool) (call : Call)
    (interruptNumber : Word) (manager : InterruptManager.Manager) (processor : Processor) :
    Option (Address × Processor × InterruptManager.Manager) :=
  let saved := processor.save
  let esp := saved.registers.esp
  (handleInterrupt invoke active manager interruptNumber esp).map fun handled =>
    (handled.1, { saved with memory := call.leaves esp saved.memory }.restore handled.1, handled.2)

/-- The registers kept in the `CPUState` at a pointer. -/
def cpuState (memory : Memory) (pointer : Address) : Registers where
  general register := wordAt memory pointer register.member.index
  eip := wordAt memory pointer CPUState.eip.index
  cs := (wordAt memory pointer CPUState.cs.index).setWidth 16
  eflags := wordAt memory pointer CPUState.eflags.index
  esp := pointer + 44

/-- The words of a saved context from the lowest address. -/
def frameWords (registers : Registers) : List Word :=
  [registers.general .eax, registers.general .ebx, registers.general .ecx, registers.general .edx,
    registers.general .esi, registers.general .edi, registers.general .ebp, 0, registers.eip,
    registers.cs.setWidth 32, registers.eflags]

/-- Delivery and the stub together lay out the interrupted context. -/
theorem save_deliver (processor : Processor) (gate : GateDescriptor) :
    (processor.deliver gate).save.stack = pushAll processor.stack (frameWords processor.registers) :=
  rfl

/-- The stub resumes the context kept in the `CPUState` it was given. -/
theorem restore_registers (processor : Processor) (returned : Address) :
    (processor.restore returned).registers = cpuState processor.memory returned := by
  have pointer : (processor.restore returned).registers.esp = returned + 44 := by
    simp [Processor.restore, Processor.iret, Processor.dropWord, Processor.popRegister,
      Processor.setStack, Processor.stack, pop, BitVec.add_assoc]
  refine Registers.ext (funext fun register => ?_) ?_ ?_ ?_ pointer
  · cases register <;>
      simp [Processor.restore, Processor.iret, Processor.dropWord, Processor.popRegister,
        Processor.setStack, Processor.stack, pop, cpuState, General.member, CPUState.index]
  all_goals
    simp [Processor.restore, Processor.iret, Processor.dropWord, Processor.popRegister,
      Processor.setStack, Processor.stack, pop, cpuState, CPUState.index]

/-- The stub resumes that context and leaves the memory. -/
theorem restore_eq (processor : Processor) (returned : Address) :
    processor.restore returned =
      { registers := cpuState processor.memory returned, memory := processor.memory } := by
  have memory : (processor.restore returned).memory = processor.memory := rfl
  rw [← restore_registers, ← memory]

/-- A saved context is determined by its 44 bytes. -/
theorem cpuState_congr (left right : Memory) (pointer : Address)
    (same : ∀ tested, (tested - pointer).toNat < 44 → left tested = right tested) :
    cpuState left pointer = cpuState right pointer := by
  have words (index : Nat) (inside : index < 11) :
      wordAt left pointer index = wordAt right pointer index :=
    wordAt_congr left right pointer 11 index inside (by decide) same
  refine Registers.ext (funext fun register => words _ ?_) (words _ ?_) ?_ (words _ ?_) rfl
  · cases register <;> decide
  · decide
  · simp only [cpuState, words CPUState.cs.index (by decide)]
  · decide

section saved

variable (processor : Processor) (gate : GateDescriptor)

theorem saved_esp :
    (processor.deliver gate).save.registers.esp = processor.registers.esp - 44 := by
  change (processor.deliver gate).save.stack.pointer = _
  rw [save_deliver, pushAll_pointer]
  rfl

/-- What the stub saved is the interrupted context. -/
theorem saved_context :
    cpuState (processor.deliver gate).save.memory (processor.deliver gate).save.registers.esp =
      processor.registers := by
  change cpuState (processor.deliver gate).save.stack.memory
    (processor.deliver gate).save.stack.pointer = _
  have words (index : Nat) (inside : index < 11) :
      wordAt (processor.deliver gate).save.stack.memory (processor.deliver gate).save.stack.pointer
        index = (frameWords processor.registers)[index] := by
    rw [save_deliver]
    exact pushAll_word processor.stack (frameWords processor.registers) (by simp [frameWords]) index
      inside
  refine Registers.ext (funext fun register => ?_) (words 8 (by decide)) ?_
    (words 10 (by decide)) ?_
  · cases register <;> exact words _ (by decide)
  · simp only [cpuState, CPUState.index, words 9 (by decide), frameWords]
    simp
  · change (processor.deliver gate).save.registers.esp + 44 = _
    rw [saved_esp]
    bv_omega

/-- The stub and the processor write the saved context alone. -/
theorem saved_other (tested : Address)
    (outside : 44 ≤ (tested - (processor.deliver gate).save.registers.esp).toNat) :
    (processor.deliver gate).save.memory tested = processor.memory tested := by
  change (processor.deliver gate).save.stack.memory tested = _
  rw [save_deliver]
  exact pushAll_other processor.stack (frameWords processor.registers) (by simp [frameWords]) tested
    outside

end saved

/-- What the running context did to its registers and to the memory before an
interrupt, and what the C++ call leaves of the memory. -/
structure Slice where
  registers : Registers
  memory : Memory
  call : Call

namespace Slice

variable (slice : Slice) (gate : GateDescriptor)

def interrupted : Processor where
  registers := slice.registers
  memory := slice.memory

/-- The processor when a stub is about to call `handleInterrupt`. -/
def saved : Processor := (slice.interrupted.deliver gate).save

/-- The memory that the call leaves. -/
def leaves : Memory := slice.call.leaves (slice.saved gate).registers.esp (slice.saved gate).memory

/-- The interrupted registers are what the call leaves at the saved pointer. -/
theorem leaves_interrupted :
    cpuState (slice.leaves gate) (slice.saved gate).registers.esp = slice.registers := by
  rw [cpuState_congr (slice.leaves gate) (slice.saved gate).memory _
    (fun tested within => slice.call.keeps _ _ tested within)]
  exact saved_context slice.interrupted gate

/-- A slice whose call leaves the memory as the stub made it. -/
def quiet (registers : Registers) (memory : Memory) : Slice where
  registers := registers
  memory := memory
  call := { leaves := fun _ before => before, keeps := fun _ _ _ _ => rfl }

/-- A quiet slice writes the interrupted context alone. -/
theorem quiet_leaves (registers : Registers) (memory : Memory) (gate : GateDescriptor)
    (tested : Address) (outside : 44 ≤ (tested - (registers.esp - 44)).toNat) :
    (quiet registers memory).leaves gate tested = memory tested := by
  apply saved_other
  rw [saved_esp]
  exact outside

/-- What the processor and the stub push does not depend on the gate. -/
theorem quiet_leaves_gate (registers : Registers) (memory : Memory) (gate other : GateDescriptor) :
    (quiet registers memory).leaves gate = (quiet registers memory).leaves other := by
  change ((quiet registers memory).interrupted.deliver gate).save.stack.memory =
    ((quiet registers memory).interrupted.deliver other).save.stack.memory
  rw [save_deliver, save_deliver]

end Slice

/-- A stub resumes the context at the pointer that `handleInterrupt` returns. -/
theorem handleInterruptRequest_served (invoke : Address → Word → Word) (active : Bool)
    (interruptNumber : Word) (manager : InterruptManager.Manager) (slice : Slice)
    (gate : GateDescriptor) :
    handleInterruptRequest invoke active slice.call interruptNumber manager
        (slice.interrupted.deliver gate) =
      (handleInterrupt invoke active manager interruptNumber
          (slice.saved gate).registers.esp).map fun handled =>
        (handled.1, { registers := cpuState (slice.leaves gate) handled.1,
                      memory := slice.leaves gate }, handled.2) := by
  simp only [handleInterruptRequest, restore_eq]
  rfl

/-- The registers of a task that has not run. -/
def firstRegisters (task : Address) (entrypoint : Word) : Registers where
  general _ := 0
  eip := entrypoint
  cs := 0x08
  eflags := 0x202
  esp := task + 4096 - 8

/-- The frame that the `Task` constructor forges is the context of a first run. -/
theorem constructed_context (task : Address) (entrypoint : Word) (memory : Memory) :
    cpuState (TaskManager.Task.constructStack task entrypoint memory)
      (TaskManager.initialFrame task) = firstRegisters task entrypoint := by
  have assigned (member : CPUState) (value : Word)
      (inside : (member, value) ∈ TaskManager.Task.frame entrypoint) :
      wordAt (TaskManager.Task.constructStack task entrypoint memory)
        (TaskManager.initialFrame task) member.index = value := by
    simp only [TaskManager.Task.frame, List.mem_cons, List.not_mem_nil, or_false,
      Prod.mk.injEq] at inside
    rcases inside with ⟨rfl, rfl⟩ | ⟨rfl, rfl⟩ | ⟨rfl, rfl⟩ | ⟨rfl, rfl⟩ | ⟨rfl, rfl⟩ |
        ⟨rfl, rfl⟩ | ⟨rfl, rfl⟩ | ⟨rfl, rfl⟩ | ⟨rfl, rfl⟩ | ⟨rfl, rfl⟩ <;>
      simp [TaskManager.Task.constructStack, TaskManager.Task.frame, CPUState.index,
        wordAt_storeAt_other]
  refine Registers.ext (funext fun register => ?_) ?_ ?_ ?_ ?_
  · cases register <;> exact assigned _ 0 (by simp [TaskManager.Task.frame, General.member])
  · exact assigned .eip entrypoint (by simp [TaskManager.Task.frame])
  · rw [cpuState, assigned .cs 0x08 (by simp [TaskManager.Task.frame])]
    rfl
  · exact assigned .eflags 0x202 (by simp [TaskManager.Task.frame])
  · simp only [cpuState, firstRegisters, TaskManager.initialFrame, TaskManager.sizeofCPUState]
    bv_omega

/-- The `Task` constructor writes inside its own frame. -/
theorem constructed_other (task : Address) (entrypoint : Word) (memory : Memory) (tested : Address)
    (outside : 52 ≤ (tested - TaskManager.initialFrame task).toNat) :
    TaskManager.Task.constructStack task entrypoint memory tested = memory tested := by
  have inside : ∀ assigned ∈ TaskManager.Task.frame entrypoint, assigned.1.index < 13 := by
    intro assigned member
    cases assigned.1 <;> decide
  simp only [TaskManager.Task.constructStack]
  generalize TaskManager.Task.frame entrypoint = assignments at inside
  induction assignments generalizing memory with
  | nil => rfl
  | cons assigned rest inductionHypothesis =>
    have bounded : ∀ later ∈ rest, later.1.index < 13 := fun later member =>
      inside later (List.mem_cons_of_mem assigned member)
    rw [List.foldl_cons, inductionHypothesis _ bounded]
    exact storeAt_other memory _ tested 13 _ _ (inside assigned List.mem_cons_self) outside

end BlueOs.InterruptStubs
