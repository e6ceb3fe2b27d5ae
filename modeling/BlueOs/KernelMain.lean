import BlueOs.Acknowledgement
import BlueOs.CursorOverlay
import BlueOs.EndOfInterrupt
import BlueOs.FixedRegistries
import BlueOs.HandlerRegistry
import BlueOs.Keyboard

/-!
# The kernel under interrupts

`kernelMain` constructs an interrupt manager without tasks, constructs the drivers of the
keyboard and the mouse, which register themselves with it, and activates them. An
interrupt then goes from its line through the controllers, a gate, a stub and the manager
to a driver and back.

Between two interrupts the kernel prints. The screen is what these prints, the pressed
keys and the packets of the mouse make of it one after the other, and the interrupted
program gets its registers back.
-/

namespace BlueOs.KernelMain

open ByteMemory InterruptStubs Acknowledgement
open InterruptManager (Routine Effect)
open InterruptDispatch (installed)
open Keyboard (KeyboardDriver MakeCode pressed typed character notify)

/-- Where the linker and the frame of `kernelMain` place things. -/
structure Image where
  link : Routine → Word
  injective : Function.Injective link
  keyboard : Address
  mouse : Address
  apart : keyboard ≠ mouse

/-- What the kernel's objects hold, and what the event handler of the keyboard acts on. -/
structure Kernel (ω : Type) where
  interrupts : State
  machine : Mouse.Machine
  world : ω

/-- An interrupt, with what the status port and the data port deliver, or a call of
`print` by the interrupted program. -/
inductive Event where
  | interrupt (delivery : Delivery) (status byte : Byte)
  | print (str : List Byte)

section kernel

variable {ω : Type} (image : Image) (onKeyPress : Address → Byte → ω → ω)
  (driver : KeyboardDriver)

/-- The virtual call `handlers[interruptNumber]->handleInterrupt(esp)`. -/
def handleInterrupt (status byte : Byte) (handler : Address) (esp : Word) (kernel : Kernel ω) :
    Word × Kernel ω :=
  if handler = image.keyboard then
    let (esp, after) := Keyboard.handleInterrupt Keyboard.outputBuffer onKeyPress driver esp
      { devices := byte, console := kernel.machine.console, world := kernel.world }
    (esp, { kernel with
      machine := { kernel.machine with console := after.console }
      world := after.world })
  else if handler = image.mouse then
    (esp, { kernel with machine := Mouse.handleInterrupt kernel.machine status byte })
  else (esp, kernel)

/-- Carry out what the manager did to the outside; its writes reached the controllers. -/
def perform (status byte : Byte) (kernel : Kernel ω) : Effect → Kernel ω
  | .invoked handler esp => (handleInterrupt image onKeyPress driver status byte handler esp kernel).2
  | .printed message =>
    { kernel with machine := { kernel.machine with
      console := TextConsole.print kernel.machine.console (PrintedText.bytes message ++ [0]) } }
  | .wrote _ _ => kernel
  | .scheduled _ => kernel

def step (kernel : Kernel ω) : Event → Option (Kernel ω)
  | .interrupt delivery status byte =>
    let invoke handler esp :=
      (handleInterrupt image onKeyPress driver status byte handler esp kernel).1
    let recording : State :=
      { kernel.interrupts with manager := EndOfInterrupt.recording kernel.interrupts.manager }
    (Acknowledgement.step invoke image.link recording delivery).map fun served =>
      served.manager.effects.reverse.foldl (perform image onKeyPress driver status byte)
        { kernel with interrupts := served }
  | .print str =>
    some { kernel with machine :=
      { kernel.machine with console := TextConsole.print kernel.machine.console str } }

/-- The slots of the manager after the constructors of both drivers. -/
def handlers (this : Address) : Byte → Option Address :=
  ((HandlerRegistry.start.registry.constructHandler image.keyboard 0x21 this).constructHandler
    image.mouse 0x2C this).interruptHandler this

/-- `activate` of a driver, as far as memory goes; the keyboard's has no effect there. -/
def activate (drv : Address) (machine : Mouse.Machine) : Mouse.Machine :=
  if drv = image.mouse then Mouse.activate machine else machine

/-- `kernelMain` up to the activation of the interrupt manager. -/
def boot (before : InterruptManager.Manager) (objects : Address → TaskManager.Task)
    (this driverManager : Address) (memory : Memory) (machine : Mouse.Machine) (world : ω) :
    Kernel ω where
  interrupts := start image.link before (TaskManager.construct objects) (handlers image this)
  machine := FixedRegistries.activateAll (activate image) driverManager
    (FixedRegistries.run (FixedRegistries.driverRegistry driverManager)
      (FixedRegistries.addDriver driverManager) memory [image.keyboard, image.mouse]).memory machine
  world := world

end kernel

/-- An interrupt of the timer, the keyboard or the mouse, or a print. -/
def Event.Served : Event → Prop
  | .interrupt delivery _ _ => HasStub delivery.line
  | .print _ => True

/-- What an event does to the screen and to what the event handler acts on. -/
def serve {ω : Type} (onKeyPress : Address → Byte → ω → ω) (driver : KeyboardDriver)
    (shown : Mouse.Machine × ω) : Event → Mouse.Machine × ω
  | .interrupt delivery status byte =>
    if delivery.line.val = 1 then
      ({ shown.1 with console := TextConsole.print shown.1.console (typed (pressed [byte])) },
        ((pressed [byte]).filterMap character).foldl (notify onKeyPress driver) shown.2)
    else if delivery.line.val = 12 then (Mouse.handleInterrupt shown.1 status byte, shown.2)
    else shown
  | .print str =>
    ({ shown.1 with console := TextConsole.print shown.1.console str }, shown.2)

/-- No line is in service, and the interrupted program continued with its registers. -/
structure Transparent {ω : Type} (kernel : Kernel ω) : Prop where
  idle : ∀ line, ¬ kernel.interrupts.manager.pics.Serving line
  resumed : ∀ service, kernel.interrupts.last = some service →
    service.resumed = service.interrupted

/-- The kernel between interrupts. -/
structure Ready {ω : Type} (image : Image) (kernel : Kernel ω) : Prop where
  invariant : Invariant image.link kernel.interrupts
  timer : kernel.interrupts.manager.interruptHandler 0x20 = none
  keyboard : kernel.interrupts.manager.interruptHandler 0x21 = some image.keyboard
  mouse : kernel.interrupts.manager.interruptHandler 0x2C = some image.mouse
  taskless : kernel.interrupts.manager.taskManager.tasks = []
  resumed : ∀ service, kernel.interrupts.last = some service →
    service.resumed = service.interrupted

theorem Ready.transparent {ω : Type} {image : Image} {kernel : Kernel ω}
    (ready : Ready image kernel) : Transparent kernel where
  idle line := by
    rw [ready.invariant.pics]
    exact Pic8259.Pair.Idle.serving ⟨rfl, rfl⟩ line
  resumed := ready.resumed

section service

variable (image : Image) (invoke : Address → Word → Word)

/-- The number that the stub of a line passes is the vector of the line. -/
theorem stub_vector (line : Fin 16) (stub : HasStub line) :
    interruptNumber (installed (readyPics.deliver line).1) =
      some ((readyPics.deliver line).1.setWidth 32) := by
  rcases stub with rfl | rfl | rfl
  · decide
  · decide
  · decide

/-- A delivery on a line with a stub is a call of the manager. If it returns the pointer
it was given, the interrupted context continues. -/
theorem step_called (state : State) (delivery : Delivery) (held : Invariant image.link state)
    (stub : HasStub delivery.line) (handled : Word → InterruptManager.Manager)
    (called : ∀ esp, InterruptManager.handleInterrupt invoke true (state.accept delivery.line)
      ((readyPics.deliver delivery.line).1.setWidth 32) esp = some (esp, handled esp)) :
    ∃ next esp, Acknowledgement.step invoke image.link state delivery = some next ∧
      next.manager = handled esp ∧ Invariant image.link next ∧
      ∀ service, next.last = some service → service.resumed = service.interrupted := by
  obtain ⟨next, taken, -, kept⟩ :=
    step_transparent_iff invoke image.link image.injective state delivery held
  have computed := taken
  simp only [Acknowledgement.step, gate_reaches image.link image.injective state held delivery.line,
    stub_vector delivery.line stub, Option.bind_eq_bind, Option.bind_some,
    handleInterruptRequest_served, called, Option.map_some, Option.some.injEq] at computed
  refine ⟨next, _, taken, by rw [← computed], kept stub, ?_⟩
  rw [← computed]
  intro service last
  cases last
  exact delivery.slice.leaves_interrupted _

/-- A vector with a handler that returns its argument, other than the timer's. -/
theorem registered_called (manager : InterruptManager.Manager) (vector : Byte)
    (handler : Address) (slot : manager.interruptHandler vector = some handler)
    (other : vector ≠ 0x20) (esp : Word) (returns : invoke handler esp = esp) :
    InterruptManager.handleInterrupt invoke true manager (vector.setWidth 32) esp =
      some (esp, InterruptManager.acknowledge (manager.record (.invoked handler esp))
        (vector.setWidth 32)) := by
  have inside : ¬ 256 ≤ vector.setWidth 32 := by bv_omega
  have elsewhere : vector.setWidth 32 ≠ (0x20 : Word) := by bv_omega
  have same : (vector.setWidth 32).setWidth 8 = vector := by simp
  simp only [InterruptManager.handleInterrupt, InterruptManager.doHandleInterrupt,
    InterruptManager.dispatch, InterruptManager.reschedule, same, slot, returns, if_true,
    if_neg inside, if_neg elsewhere, Option.bind_eq_bind, Option.bind_some]

/-- The timer's vector without a handler, with what `schedule` chooses. -/
theorem timer_scheduled (manager : InterruptManager.Manager) (esp returned : Word)
    (scheduled : TaskManager.Manager) (vacant : manager.interruptHandler 0x20 = none)
    (chosen : manager.taskManager.schedule esp = some (returned, scheduled)) :
    InterruptManager.handleInterrupt invoke true manager 0x20 esp =
      some (returned, InterruptManager.acknowledge
        ({ manager with taskManager := scheduled }.record (.scheduled esp)) 0x20) := by
  have inside : ¬ 256 ≤ (0x20 : Word) := by decide
  have vector : (0x20 : Word).setWidth 8 = 0x20 := rfl
  simp only [InterruptManager.handleInterrupt, InterruptManager.doHandleInterrupt,
    InterruptManager.dispatch, InterruptManager.reschedule, vector, vacant, chosen, if_true,
    if_neg inside, ne_eq, not_true_eq_false, if_false, Option.map_some, Option.bind_eq_bind,
    Option.bind_some]

/-- Without tasks the interrupted context is chosen. -/
theorem timer_called (manager : InterruptManager.Manager)
    (vacant : manager.interruptHandler 0x20 = none) (taskless : manager.taskManager.tasks = [])
    (esp : Word) :
    InterruptManager.handleInterrupt invoke true manager 0x20 esp =
      some (esp, InterruptManager.acknowledge (manager.record (.scheduled esp)) 0x20) := by
  have idle : manager.taskManager.schedule esp = some (esp, manager.taskManager) :=
    if_pos (by rw [TaskManager.Manager.numTasks, taskless]; rfl)
  exact timer_scheduled invoke manager esp esp manager.taskManager vacant idle

end service

section simulation

variable {ω : Type} (image : Image) (onKeyPress : Address → Byte → ω → ω)
  (driver : KeyboardDriver)

/-- The end of interrupt has no effect but that on the controllers. -/
theorem perform_acknowledged (status byte : Byte) (kernel : Kernel ω)
    (manager : InterruptManager.Manager) (interruptNumber : Word) :
    (InterruptManager.acknowledge manager interruptNumber).effects.reverse.foldl
        (perform image onKeyPress driver status byte) kernel =
      manager.effects.reverse.foldl (perform image onKeyPress driver status byte) kernel := by
  rw [InterruptManager.acknowledge]
  split
  · dsimp only
    split
    · simp [InterruptManager.Manager.write, InterruptManager.Manager.record, perform]
    · simp [InterruptManager.Manager.write, InterruptManager.Manager.record, perform]
  · rfl

/-- Both drivers return the stack pointer they are given. -/
theorem handleInterrupt_esp (status byte : Byte) (handler : Address) (esp : Word)
    (kernel : Kernel ω) :
    (handleInterrupt image onKeyPress driver status byte handler esp kernel).1 = esp := by
  rw [handleInterrupt, Keyboard.handleInterrupt_eq]
  split
  · rfl
  · split
    · rfl
    · rfl

/-- A call of the keyboard's driver. -/
theorem handleInterrupt_keyboard (status byte : Byte) (esp : Word) (kernel : Kernel ω) :
    (handleInterrupt image onKeyPress driver status byte image.keyboard esp kernel).2 =
      { kernel with
        machine := { kernel.machine with
          console := TextConsole.print kernel.machine.console (typed (pressed [byte])) }
        world := ((pressed [byte]).filterMap character).foldl (notify onKeyPress driver)
          kernel.world } := by
  rw [handleInterrupt, if_pos rfl, Keyboard.handleInterrupt_eq]
  rfl

/-- A call of the mouse's driver. -/
theorem handleInterrupt_mouse (status byte : Byte) (esp : Word) (kernel : Kernel ω) :
    (handleInterrupt image onKeyPress driver status byte image.mouse esp kernel).2 =
      { kernel with machine := Mouse.handleInterrupt kernel.machine status byte } := by
  rw [handleInterrupt, if_neg (Ne.symm image.apart), if_pos rfl]

/-- The delivery starts a new record. -/
def recording (kernel : Kernel ω) : State :=
  { kernel.interrupts with manager := EndOfInterrupt.recording kernel.interrupts.manager }

/-- A delivery on a line with a stub is taken. What the manager records beside the end of
interrupt is carried out. -/
theorem step_interrupt (kernel : Kernel ω) (delivery : Delivery) (status byte : Byte)
    (ready : Ready image kernel) (stub : HasStub delivery.line) (effect : Word → Effect)
    (called : ∀ esp, InterruptManager.handleInterrupt
      (fun handler esp =>
        (handleInterrupt image onKeyPress driver status byte handler esp kernel).1) true
      ((recording kernel).accept delivery.line)
      ((readyPics.deliver delivery.line).1.setWidth 32) esp =
        some (esp, InterruptManager.acknowledge
          (((recording kernel).accept delivery.line).record (effect esp))
          ((readyPics.deliver delivery.line).1.setWidth 32))) :
    ∃ next esp, step image onKeyPress driver kernel (.interrupt delivery status byte) =
        some (perform image onKeyPress driver status byte { kernel with interrupts := next }
          (effect esp)) ∧
      Ready image { kernel with interrupts := next } := by
  have held : Invariant image.link (recording kernel) :=
    ⟨ready.invariant.gates, ready.invariant.pics, ready.invariant.valid⟩
  obtain ⟨next, esp, taken, manager, invariant, resumed⟩ :=
    step_called image _ (recording kernel) delivery held stub _ called
  obtain ⟨handles, tasks⟩ := InterruptDispatch.acknowledge_handles
    (((recording kernel).accept delivery.line).record (effect esp))
    ((readyPics.deliver delivery.line).1.setWidth 32)
  have handlers : next.manager.interruptHandler =
      kernel.interrupts.manager.interruptHandler := by
    rw [manager, handles.handlers]
    rfl
  refine ⟨next, esp, ?_, invariant, ?_, ?_, ?_, ?_, resumed⟩
  · change Option.map _ (Acknowledgement.step _ _ (recording kernel) delivery) = _
    rw [taken, Option.map_some, manager, perform_acknowledged]
    rfl
  · rw [handlers]
    exact ready.timer
  · rw [handlers]
    exact ready.keyboard
  · rw [handlers]
    exact ready.mouse
  · rw [manager, tasks]
    exact ready.taskless

/-- Every served event is taken; the kernel is ready for the next one, and has shown what
the event does. -/
theorem step_serves (kernel : Kernel ω) (event : Event) (ready : Ready image kernel)
    (served : event.Served) :
    ∃ next, step image onKeyPress driver kernel event = some next ∧ Ready image next ∧
      (next.machine, next.world) =
        serve onKeyPress driver (kernel.machine, kernel.world) event := by
  cases event with
  | print str =>
    exact ⟨_, rfl, ⟨ready.invariant, ready.timer, ready.keyboard, ready.mouse, ready.taskless,
      ready.resumed⟩, rfl⟩
  | interrupt delivery status byte =>
    have taken := step_interrupt image onKeyPress driver kernel delivery status byte ready served
    rcases served with timer | keyboard | mouse
    · obtain ⟨next, esp, taken, again⟩ := taken .scheduled fun esp => by
        rw [timer]
        exact timer_called _ ((recording kernel).accept 0) ready.timer ready.taskless esp
      refine ⟨_, taken, again, ?_⟩
      simp only [serve, timer]
      rfl
    · obtain ⟨next, esp, taken, again⟩ := taken (.invoked image.keyboard) fun esp => by
        rw [keyboard]
        exact registered_called _ ((recording kernel).accept 1) 0x21 _ ready.keyboard (by decide)
          esp (handleInterrupt_esp image onKeyPress driver status byte _ esp kernel)
      rw [perform, handleInterrupt_keyboard] at taken
      refine ⟨_, taken, ?_, ?_⟩
      · exact ⟨again.invariant, again.timer, again.keyboard, again.mouse, again.taskless,
          again.resumed⟩
      · simp only [serve, keyboard]
        rfl
    · obtain ⟨next, esp, taken, again⟩ := taken (.invoked image.mouse) fun esp => by
        rw [mouse]
        exact registered_called _ ((recording kernel).accept 12) 0x2C _ ready.mouse (by decide)
          esp (handleInterrupt_esp image onKeyPress driver status byte _ esp kernel)
      rw [perform, handleInterrupt_mouse] at taken
      refine ⟨_, taken, ?_, ?_⟩
      · exact ⟨again.invariant, again.timer, again.keyboard, again.mouse, again.taskless,
          again.resumed⟩
      · simp only [serve, mouse]
        rfl

/-- Every run of served events is completed, transparent throughout, and shows what the
events do. -/
theorem run_serves (events : List Event) (served : ∀ event ∈ events, event.Served)
    (kernel : Kernel ω) (ready : Ready image kernel) :
    Runs.Throughout (step image onKeyPress driver) Transparent events kernel ∧
      ∃ final, Runs.run (step image onKeyPress driver) events kernel = some final ∧
        (final.machine, final.world) =
          events.foldl (serve onKeyPress driver) (kernel.machine, kernel.world) := by
  induction events generalizing kernel with
  | nil => exact ⟨ready.transparent, kernel, rfl, rfl⟩
  | cons event rest inductionHypothesis =>
    obtain ⟨next, taken, again, shown⟩ :=
      step_serves image onKeyPress driver kernel event ready (served event List.mem_cons_self)
    obtain ⟨throughout, final, completed, same⟩ := inductionHypothesis
      (fun later member => served later (List.mem_cons_of_mem event member)) next again
    refine ⟨⟨ready.transparent, fun other reached => ?_⟩, final, ?_, ?_⟩
    · rw [taken] at reached
      cases reached
      exact throughout
    · rw [Runs.run_cons, taken, Option.bind_some, completed]
    · rw [List.foldl_cons, ← shown, same]

/-- What activation shows: the pointer's position is set, nothing is drawn. -/
theorem activateAll_boot (driverManager : Address) (memory : Memory) (machine : Mouse.Machine) :
    FixedRegistries.activateAll (activate image) driverManager
      (FixedRegistries.run (FixedRegistries.driverRegistry driverManager)
        (FixedRegistries.addDriver driverManager) memory [image.keyboard, image.mouse]).memory
      machine = Mouse.activate machine := by
  have held := FixedRegistries.run_represents (FixedRegistries.driverRegistry driverManager)
    (FixedRegistries.addDriver driverManager) memory
    (FixedRegistries.addDriver_accepts driverManager) [image.keyboard, image.mouse]
    fun more => absurd more (Nat.not_lt.mpr (by decide : 2 ≤ 256))
  rw [FixedRegistries.activateAll_eq (activate image) driverManager [image.keyboard, image.mouse]
    _ held, List.foldl_cons, List.foldl_cons, List.foldl_nil, activate, activate,
    if_neg image.apart, if_pos rfl]

section boot

variable (before : InterruptManager.Manager) (objects : Address → TaskManager.Task)
  (this driverManager : Address) (memory : Memory) (machine : Mouse.Machine) (world : ω)

theorem boot_ready :
    Ready image (boot image before objects this driverManager memory machine world) := by
  have apart := image.apart
  refine ⟨start_invariant image.link before _ _ ?_, ?_, ?_, ?_, ?_, ?_⟩
  · constructor <;> simp [TaskManager.construct, TaskManager.Manager.numTasks]
  · simp [boot, start, handlers, HandlerRegistry.Registry.constructHandler,
      HandlerRegistry.Registry.setSlot, HandlerRegistry.start]
  · simp [boot, start, handlers, HandlerRegistry.Registry.constructHandler,
      HandlerRegistry.Registry.setSlot]
  · simp [boot, start, handlers, HandlerRegistry.Registry.constructHandler,
      HandlerRegistry.Registry.setSlot]
  · simp only [boot, start, InterruptDispatch.construct_taskManager, TaskManager.construct]
  · intro service none
    cases none

/-- Over every sequence of prints and of interrupts of the timer, the keyboard and the
mouse the kernel takes every event. No interrupt is left in service, each gives the
interrupted program all its registers back, and what is shown is what the prints, the pressed
keys and the packets make of it in their order, each interrupt reaching its driver
once. -/
theorem kernel_serves (events : List Event) (served : ∀ event ∈ events, event.Served) :
    Runs.Throughout (step image onKeyPress driver) Transparent events
        (boot image before objects this driverManager memory machine world) ∧
      ∃ final, Runs.run (step image onKeyPress driver) events
          (boot image before objects this driverManager memory machine world) = some final ∧
        (final.machine, final.world) =
          events.foldl (serve onKeyPress driver) (Mouse.activate machine, world) := by
  have ready := boot_ready image before objects this driverManager memory machine world
  obtain ⟨throughout, final, completed, same⟩ :=
    run_serves image onKeyPress driver events served _ ready
  refine ⟨throughout, final, completed, ?_⟩
  rw [same]
  simp only [boot, activateAll_boot]

end boot

end simulation

/-- The routines on pages of their own, the drivers in the frame of `kernelMain`. -/
def placed : Image where
  link := pageOf
  injective := pageOf_injective
  keyboard := 0x8FF00
  mouse := 0x8FE00
  apart := by decide

/-- A pressed key, a tick, a byte of the mouse, a print and a released key. -/
theorem kernel_serves_exchange :
    ∃ final, Runs.run (step placed (fun _ c heard => heard ++ [c])
        (Keyboard.construct.setEventHandler (some 0x80000)))
        [.interrupt (delivered 1) 0x1D 0x23, .interrupt (delivered 0) 0x1C 0x23,
          .interrupt (delivered 12) 0x3D 0x08, .print [0x21, 0x00],
          .interrupt (delivered 1) 0x1D 0xA3]
        (boot placed (InterruptManager.zeroed (TaskManager.construct fun _ => ⟨0, 0, 0, 0⟩))
          (fun _ => ⟨0, 0, 0, 0⟩) 0x8F000 0x8E000 (fun _ => 0)
          (Mouse.boot ⟨fun _ => 0x0720, .corner⟩ (fun _ => 0) 0 0) []) = some final ∧
      final.world = [0x68] := by
  obtain ⟨-, final, completed, same⟩ := kernel_serves placed (fun _ c heard => heard ++ [c])
    (Keyboard.construct.setEventHandler (some 0x80000))
    (InterruptManager.zeroed (TaskManager.construct fun _ => ⟨0, 0, 0, 0⟩))
    (fun _ => ⟨0, 0, 0, 0⟩) 0x8F000 0x8E000 (fun _ => 0)
    (Mouse.boot ⟨fun _ => 0x0720, .corner⟩ (fun _ => 0) 0 0) []
    [.interrupt (delivered 1) 0x1D 0x23, .interrupt (delivered 0) 0x1C 0x23,
      .interrupt (delivered 12) 0x3D 0x08, .print [0x21, 0x00],
      .interrupt (delivered 1) 0x1D 0xA3]
    (by simp [Event.Served, HasStub, delivered])
  exact ⟨final, completed, congrArg Prod.snd same⟩

end BlueOs.KernelMain
