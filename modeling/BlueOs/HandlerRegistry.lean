import BlueOs.InterruptDispatch

/-!
# Which handlers the managers hold

Handlers register themselves with a manager when they are constructed and may be
destroyed in any order; a later handler of the same vector takes the slot of an
earlier one. Managers outlive their handlers. The registry holds the slots of all
managers, the handlers that are alive with the members their constructors set, the
one active manager and the processor's interrupt flag.

Constructing a handler over a living one and destroying one that is not alive are no
steps. The null pointer is the absence of an address.
-/

namespace BlueOs.HandlerRegistry

open ByteMemory

/-- The members of an `InterruptHandler`. -/
structure Handler where
  interruptNumber : Byte
  interruptManager : Address
deriving DecidableEq

structure Registry where
  interruptHandler : Address → Byte → Option Address
  alive : Address → Option Handler
  activeInterruptManager : Option Address
  interruptFlag : Bool

namespace Registry

variable (registry : Registry)

/-- `interruptManager->interruptHandler[interruptNumber] = value` -/
def setSlot (interruptManager : Address) (interruptNumber : Byte) (value : Option Address) :
    Registry :=
  { registry with
    interruptHandler := Function.update registry.interruptHandler interruptManager
      (Function.update (registry.interruptHandler interruptManager) interruptNumber value) }

/-- `InterruptHandler::InterruptHandler` -/
def constructHandler (this : Address) (interruptNumber : Byte) (interruptManager : Address) :
    Registry :=
  { registry with
    alive := Function.update registry.alive this (some ⟨interruptNumber, interruptManager⟩) }.setSlot
      interruptManager interruptNumber (some this)

/-- `InterruptHandler::~InterruptHandler`, for the members of the handler: only its own
slot is cleared. -/
def destroyHandler (this : Address) (members : Handler) : Registry :=
  let registry :=
    if registry.interruptHandler members.interruptManager members.interruptNumber = some this then
      registry.setSlot members.interruptManager members.interruptNumber none
    else registry
  { registry with alive := Function.update registry.alive this none }

/-- `InterruptManager::deactivate`, with `cli`. -/
def deactivate (this : Address) : Registry :=
  if registry.activeInterruptManager = some this then
    { registry with activeInterruptManager := none, interruptFlag := false }
  else registry

/-- `InterruptManager::activate`, with `sti`. -/
def activate (this : Address) : Registry :=
  let registry :=
    match registry.activeInterruptManager with
    | some active => registry.deactivate active
    | none => registry
  { registry with activeInterruptManager := some this, interruptFlag := true }

end Registry

inductive Event where
  | constructHandler (this : Address) (interruptNumber : Byte) (interruptManager : Address)
  | destroyHandler (this : Address)
  | activate (this : Address)
  | deactivate (this : Address)
deriving DecidableEq

/-- The registry and the events so far, the newest first. -/
structure Traced where
  registry : Registry
  history : List Event

/-- What an event does, if it can happen. -/
def effect (registry : Registry) : Event → Option Registry
  | .constructHandler this interruptNumber interruptManager =>
    if (registry.alive this).isSome then none
    else some (registry.constructHandler this interruptNumber interruptManager)
  | .destroyHandler this => (registry.alive this).map (registry.destroyHandler this)
  | .activate this => some (registry.activate this)
  | .deactivate this => some (registry.deactivate this)

def step (traced : Traced) (event : Event) : Option Traced :=
  (effect traced.registry event).map fun registry => ⟨registry, event :: traced.history⟩

/-- The managers after their construction, with interrupts disabled. -/
def start : Traced where
  registry :=
    { interruptHandler _ _ := none
      alive _ := none
      activeInterruptManager := none
      interruptFlag := false }
  history := []

/-- The slots of each manager at the start are those its constructor leaves. -/
theorem start_constructed (link : InterruptManager.Routine → Word)
    (before : InterruptManager.Manager) (taskManager : TaskManager.Manager) (this : Address) :
    start.registry.interruptHandler this =
      (InterruptManager.construct link before taskManager).interruptHandler :=
  funext fun vector =>
    (InterruptDispatch.construct_interruptHandler link before taskManager vector).symm

/-- Every slot holds a living handler of that manager and that vector. -/
def NoneDangling (registry : Registry) : Prop :=
  ∀ manager vector handler, registry.interruptHandler manager vector = some handler →
    registry.alive handler = some ⟨vector, manager⟩

/-- The manager was activated, and after that neither deactivated nor another one
activated. -/
def ActivatedLast (history : List Event) (manager : Address) : Prop :=
  ∃ newer older, history = newer ++ .activate manager :: older ∧
    ∀ event ∈ newer, event ≠ .deactivate manager ∧ ∀ other, event ≠ .activate other

/-- What holds of the registry at all times. -/
structure Sound (traced : Traced) : Prop where
  slots : NoneDangling traced.registry
  flag : traced.registry.interruptFlag = true ↔
    traced.registry.activeInterruptManager.isSome = true
  active : ∀ manager, traced.registry.activeInterruptManager = some manager ↔
    ActivatedLast traced.history manager

theorem setSlot_same (registry : Registry) (manager : Address) (vector : Byte)
    (value : Option Address) :
    (registry.setSlot manager vector value).interruptHandler manager vector = value := by
  simp [Registry.setSlot]

theorem setSlot_other (registry : Registry) (manager other : Address) (vector number : Byte)
    (value : Option Address) (distinct : ¬ (other = manager ∧ number = vector)) :
    (registry.setSlot manager vector value).interruptHandler other number =
      registry.interruptHandler other number := by
  by_cases same : other = manager
  · subst same
    have different : number ≠ vector := fun equal => distinct ⟨rfl, equal⟩
    simp [Registry.setSlot, different]
  · simp [Registry.setSlot, same]

/-- A new handler is put into its own slot; the others still hold what they held. -/
theorem constructHandler_noneDangling (registry : Registry) (this interruptManager : Address)
    (interruptNumber : Byte) (held : NoneDangling registry)
    (unborn : (registry.alive this).isSome = false) :
    NoneDangling (registry.constructHandler this interruptNumber interruptManager) := by
  intro manager vector handler occupied
  change Function.update registry.alive this (some ⟨interruptNumber, interruptManager⟩) handler = _
  by_cases own : manager = interruptManager ∧ vector = interruptNumber
  · obtain ⟨rfl, rfl⟩ := own
    rw [Registry.constructHandler, setSlot_same] at occupied
    cases occupied
    rw [Function.update_self]
  · rw [Registry.constructHandler, setSlot_other _ _ _ _ _ _ own] at occupied
    have before := held manager vector handler occupied
    have other : handler ≠ this := by
      rintro rfl
      rw [before] at unborn
      cases unborn
    rw [Function.update_of_ne other]
    exact before

/-- A handler that is destroyed is in no slot any more: only the slot of its own
members could hold it. -/
theorem destroyHandler_noneDangling (registry : Registry) (this : Address) (members : Handler)
    (held : NoneDangling registry) (born : registry.alive this = some members) :
    NoneDangling (registry.destroyHandler this members) := by
  intro manager vector handler occupied
  have kept : handler ≠ this ∧ registry.interruptHandler manager vector = some handler := by
    simp only [Registry.destroyHandler] at occupied
    split at occupied
    case isTrue own =>
      by_cases same : manager = members.interruptManager ∧ vector = members.interruptNumber
      · obtain ⟨rfl, rfl⟩ := same
        rw [setSlot_same] at occupied
        cases occupied
      · rw [setSlot_other _ _ _ _ _ _ same] at occupied
        refine ⟨?_, occupied⟩
        rintro rfl
        have registered := held manager vector handler occupied
        rw [born] at registered
        cases registered
        exact same ⟨rfl, rfl⟩
    case isFalse taken =>
      refine ⟨?_, occupied⟩
      rintro rfl
      have registered := held manager vector handler occupied
      rw [born] at registered
      cases registered
      exact taken occupied
  have alive : (registry.destroyHandler this members).alive handler = registry.alive handler := by
    simp only [Registry.destroyHandler, Function.update_of_ne kept.1]
    split <;> rfl
  rw [alive]
  exact held manager vector handler kept.2

/-- What the newest event means for the manager activated last. -/
theorem activatedLast_cons (history : List Event) (event : Event) (manager : Address) :
    ActivatedLast (event :: history) manager ↔ event = .activate manager ∨
      (event ≠ .deactivate manager ∧ ∀ other, event ≠ .activate other) ∧
        ActivatedLast history manager := by
  constructor
  · rintro ⟨newer, older, split, quiet⟩
    cases newer with
    | nil =>
      cases split
      exact Or.inl rfl
    | cons newest rest =>
      cases split
      exact Or.inr ⟨quiet event List.mem_cons_self, rest, older, rfl,
        fun later member => quiet later (List.mem_cons_of_mem event member)⟩
  · rintro (rfl | ⟨quiet, newer, older, rfl, rest⟩)
    · exact ⟨[], history, rfl, by simp⟩
    · refine ⟨event :: newer, older, rfl, ?_⟩
      intro later member
      rcases List.mem_cons.mp member with rfl | before
      · exact quiet
      · exact rest later before

/-- An event other than an activation or a deactivation leaves the manager activated
last. -/
theorem activatedLast_skip (history : List Event) (event : Event) (manager : Address)
    (quiet : ∀ other, event ≠ .activate other ∧ event ≠ .deactivate other) :
    ActivatedLast (event :: history) manager ↔ ActivatedLast history manager := by
  rw [activatedLast_cons]
  constructor
  · rintro (now | ⟨-, before⟩)
    · exact absurd now (quiet manager).1
    · exact before
  · intro before
    exact Or.inr ⟨⟨(quiet manager).2, fun other => (quiet other).1⟩, before⟩

theorem activatedLast_activate (history : List Event) (this manager : Address) :
    ActivatedLast (.activate this :: history) manager ↔ this = manager := by
  rw [activatedLast_cons]
  simp

theorem activatedLast_deactivate (history : List Event) (this manager : Address) :
    ActivatedLast (.deactivate this :: history) manager ↔
      this ≠ manager ∧ ActivatedLast history manager := by
  rw [activatedLast_cons]
  simp

/-- A manager stays active unless it is the one deactivated. -/
theorem deactivate_activeInterruptManager (registry : Registry) (this manager : Address) :
    (registry.deactivate this).activeInterruptManager = some manager ↔
      this ≠ manager ∧ registry.activeInterruptManager = some manager := by
  rw [Registry.deactivate]
  split
  case isTrue own =>
    rw [own, Option.some.injEq]
    constructor
    · intro none
      cases none
    · rintro ⟨other, same⟩
      exact absurd same other
  case isFalse other =>
    constructor
    · intro active
      refine ⟨?_, active⟩
      rintro rfl
      exact other active
    · exact And.right

/-- Destroying a handler leaves the active manager and the flag alone. -/
theorem destroyHandler_activeInterruptManager (registry : Registry) (this : Address)
    (members : Handler) :
    (registry.destroyHandler this members).activeInterruptManager =
        registry.activeInterruptManager ∧
      (registry.destroyHandler this members).interruptFlag = registry.interruptFlag := by
  simp only [Registry.destroyHandler]
  split <;> exact ⟨rfl, rfl⟩

theorem activate_activeInterruptManager (registry : Registry) (this : Address) :
    (registry.activate this).activeInterruptManager = some this ∧
      (registry.activate this).interruptFlag = true := ⟨rfl, rfl⟩

/-- Activation and deactivation leave the slots and the handlers alone. -/
theorem deactivate_noneDangling (registry : Registry) (this : Address)
    (held : NoneDangling registry) : NoneDangling (registry.deactivate this) := by
  rw [Registry.deactivate]
  split
  · exact held
  · exact held

theorem activate_noneDangling (registry : Registry) (this : Address)
    (held : NoneDangling registry) : NoneDangling (registry.activate this) := by
  cases active : registry.activeInterruptManager with
  | none =>
    simp only [Registry.activate, active]
    exact held
  | some before =>
    simp only [Registry.activate, active]
    exact deactivate_noneDangling registry before held

/-- Every event keeps the registry sound. -/
theorem step_sound (traced : Traced) (event : Event) (next : Traced) (held : Sound traced)
    (taken : step traced event = some next) : Sound next := by
  obtain ⟨registry, happened, rfl⟩ := Option.map_eq_some_iff.mp taken
  cases event with
  | constructHandler this interruptNumber interruptManager =>
    simp only [effect, Option.ite_none_left_eq_some, Option.some.injEq] at happened
    obtain ⟨unborn, rfl⟩ := happened
    refine ⟨constructHandler_noneDangling _ _ _ _ held.slots (by simpa using unborn), held.flag, ?_⟩
    intro manager
    rw [activatedLast_skip _ _ _ (by simp)]
    exact held.active manager
  | destroyHandler this =>
    obtain ⟨members, born, rfl⟩ := Option.map_eq_some_iff.mp happened
    have same := destroyHandler_activeInterruptManager traced.registry this members
    refine ⟨destroyHandler_noneDangling _ _ _ held.slots born, ?_, ?_⟩
    · rw [same.1, same.2]
      exact held.flag
    · intro manager
      rw [activatedLast_skip _ _ _ (by simp), same.1]
      exact held.active manager
  | activate this =>
    cases happened
    refine ⟨activate_noneDangling _ this held.slots, by simp [Registry.activate], ?_⟩
    intro manager
    rw [activatedLast_activate, (activate_activeInterruptManager _ this).1, Option.some.injEq]
  | deactivate this =>
    cases happened
    refine ⟨deactivate_noneDangling _ this held.slots, ?_, ?_⟩
    · rw [Registry.deactivate]
      split
      · simp
      · exact held.flag
    · intro manager
      rw [activatedLast_deactivate, deactivate_activeInterruptManager, held.active manager]

theorem start_sound : Sound start := by
  refine ⟨?_, by simp [start], ?_⟩
  · intro manager vector handler occupied
    cases occupied
  · intro manager
    simp [start, ActivatedLast]

/-- In every state of every run no slot dangles, and interrupts are enabled exactly
while a manager is active, the one activated last and not deactivated since. -/
theorem registry_sound (events : List Event) : Runs.Throughout step Sound events start :=
  Runs.throughout_of_invariant step Sound Sound (fun _ held => held)
    (fun traced event next held taken => step_sound traced event next held taken) events start
    start_sound

/-- A manager with the slots of a sound registry dispatches to living handlers only,
each constructed for that manager and the vector of the interrupt. -/
theorem dispatch_alive (invoke : Address → Word → Word) (registry : Registry)
    (sound : NoneDangling registry) (this : Address) (manager : InterruptManager.Manager)
    (slots : manager.interruptHandler = registry.interruptHandler this)
    (interruptNumber esp : Word) (handler : Address)
    (invoked : (InterruptManager.dispatch invoke manager interruptNumber esp).2 =
      manager.record (.invoked handler esp)) :
    registry.alive handler = some ⟨interruptNumber.setWidth 8, this⟩ := by
  have occupied : manager.interruptHandler (interruptNumber.setWidth 8) = some handler := by
    simp only [InterruptManager.dispatch] at invoked
    split at invoked
    case h_1 registered slot =>
      simp only [InterruptManager.Manager.record, InterruptManager.Manager.mk.injEq,
        List.cons.injEq, InterruptManager.Effect.invoked.injEq] at invoked
      rw [slot, invoked.2.2.2.2.1.1]
    case h_2 =>
      split at invoked
      · simp [InterruptManager.Manager.record] at invoked
      · have shorter := congrArg (fun result => result.effects.length) invoked
        simp [InterruptManager.Manager.record] at shorter
  rw [slots] at occupied
  exact sound this _ handler occupied

end BlueOs.HandlerRegistry
