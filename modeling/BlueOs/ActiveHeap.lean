import BlueOs.Library.Runs
import BlueOs.MemoryManager
import Mathlib.Logic.Function.Basic

/-!
# Which heap is active

Memory managers may be constructed and destroyed in any order, with overlapping
lifetimes. Every constructor makes its own manager the active one, which serves
`operator new` and `operator delete`. Every destructor leaves no manager active,
whichever manager it destroys, so the heap constructed last is lost when any other
one is destroyed before it.

Constructing a manager over a living one and destroying one that is not alive are no
steps.
-/

namespace BlueOs.ActiveHeap

open ByteMemory MemoryManager Runs

/-- The managers that are alive, the static pointer, the memory the heaps lie in, and
the manager constructed last. -/
structure State where
  alive : Address → Option Manager
  activeMemoryManager : Option Address
  memory : Memory
  latest : Option Address

/-- `MemoryManager::MemoryManager` with its assignment to the static pointer. -/
def constructManager (state : State) (this : Address) (first size : Word) : State where
  alive := Function.update state.alive this (some (construct first size state.memory).1)
  activeMemoryManager := some this
  memory := (construct first size state.memory).2
  latest := some this

/-- `MemoryManager::~MemoryManager` -/
def destroyManager (state : State) (this : Address) : State :=
  { state with
    alive := Function.update state.alive this none
    activeMemoryManager := none }

/-- `operator new`; a pointer to a manager that is not alive serves nothing. -/
def operatorNew (fuel : Nat) (state : State) (size : Word) : Option (Address × State) :=
  match state.activeMemoryManager with
  | none => some (0, state)
  | some active => do
    let manager ← state.alive active
    let (ptr, memory) ← kmalloc fuel manager size state.memory
    some (ptr, { state with memory })

/-- `operator delete` -/
def operatorDelete (state : State) (ptr : Address) : Option State :=
  match state.activeMemoryManager with
  | none => some state
  | some active => (state.alive active).map fun _ => { state with memory := kfree ptr state.memory }

inductive Event where
  | construct (this : Address) (first size : Word)
  | destroy (this : Address)
deriving DecidableEq

def step (state : State) : Event → Option State
  | .construct this first size =>
    if (state.alive this).isSome then none else some (constructManager state this first size)
  | .destroy this =>
    if (state.alive this).isSome then some (destroyManager state this) else none

/-- Before any manager is constructed. -/
def start (memory : Memory) : State where
  alive _ := none
  activeMemoryManager := none
  memory := memory
  latest := none

/-- The manager constructed last, if it is alive. -/
def living (state : State) : Option Address :=
  state.latest.filter fun this => (state.alive this).isSome

/-- The active manager is the one constructed last while that is alive, and none
otherwise; and while it is alive it serves `operator new` and `operator delete`. -/
structure LatestActive (state : State) : Prop where
  active : state.activeMemoryManager = living state
  allocates : ∀ this manager, state.latest = some this → state.alive this = some manager →
    ∀ fuel size, operatorNew fuel state size =
      (kmalloc fuel manager size state.memory).map fun result =>
        (result.1, { state with memory := result.2 })
  frees : ∀ this manager, state.latest = some this → state.alive this = some manager →
    ∀ ptr, operatorDelete state ptr = some { state with memory := kfree ptr state.memory }

/-- The operators are served as soon as the static pointer is right. -/
theorem latestActive_iff (state : State) :
    LatestActive state ↔ state.activeMemoryManager = living state := by
  refine ⟨LatestActive.active, fun active => ⟨active, ?_, ?_⟩⟩
  · intro this manager latest alive fuel size
    have serving : state.activeMemoryManager = some this := by
      simp [active, living, latest, alive]
    simp only [operatorNew, serving, alive, Option.bind_eq_bind, Option.bind_some]
    cases kmalloc fuel manager size state.memory <;> rfl
  · intro this manager latest alive ptr
    have serving : state.activeMemoryManager = some this := by
      simp [active, living, latest, alive]
    simp only [operatorDelete, serving, alive, Option.map_some]

/-- The condition on a step: a destructor runs for the manager constructed last, or
when that one is not alive any more. -/
def Allowed (state : State) : Event → Prop
  | .construct _ _ _ => True
  | .destroy this => state.latest = some this ∨ living state = none ∨ state.alive this = none

/-- Constructing a manager makes it the active one. -/
theorem constructManager_latestActive (state : State) (this : Address) (first size : Word) :
    LatestActive (constructManager state this first size) := by
  rw [latestActive_iff]
  simp [constructManager, living, Option.filter_some]

/-- Destroying a manager leaves the right pointer exactly when no living manager
loses it. -/
theorem destroyManager_latestActive_iff (state : State) (this : Address)
    (alive : (state.alive this).isSome = true) :
    LatestActive (destroyManager state this) ↔ Allowed state (.destroy this) := by
  have born : state.alive this ≠ none := by
    rwa [Option.isSome_iff_ne_none] at alive
  rw [latestActive_iff]
  cases latest : state.latest with
  | none => simp [destroyManager, living, Allowed, latest]
  | some last =>
    by_cases same : last = this
    · subst same
      simp [destroyManager, living, Allowed, latest, Option.filter_some]
    · simp only [destroyManager, living, Allowed, latest, Option.filter_some,
        Function.update_of_ne same, Option.some.injEq, same, born, false_or, or_false]
      exact eq_comm

/-- Over every sequence of constructions and destructions the active manager is the
one constructed last while it is alive, and none otherwise, exactly when no manager is
destroyed while one that was constructed later than all others is alive. -/
theorem latest_active_iff (memory : Memory) (events : List Event) :
    Throughout step LatestActive events (start memory) ↔
      Meets step Allowed events (start memory) := by
  refine throughout_iff_meets step Allowed LatestActive (fun _ => True) ?_ ?_ events _ trivial ?_
  · rintro state (⟨this, first, size⟩ | this) _ refused
    · trivial
    · have dead : state.alive this = none := by simpa [step] using refused
      exact Or.inr (Or.inr dead)
  · rintro state (⟨this, first, size⟩ | this) next _ taken
    · simp only [step, Option.ite_none_left_eq_some, Option.some.injEq] at taken
      obtain ⟨-, rfl⟩ := taken
      exact ⟨iff_of_true (constructManager_latestActive state this first size) trivial,
        fun _ => trivial⟩
    · simp only [step, Option.ite_none_right_eq_some, Option.some.injEq] at taken
      obtain ⟨alive, rfl⟩ := taken
      exact ⟨destroyManager_latestActive_iff state this alive, fun _ => trivial⟩
  · rw [latestActive_iff]
    rfl

/-- Two heaps are made and the first is destroyed: the second is alive, and no heap is
active. -/
theorem older_heap_takes_active :
    ¬ Throughout step LatestActive
      [.construct 0x10 0x1000 64, .construct 0x20 0x2000 64, .destroy 0x10]
      (start fun _ => 0) := by
  intro throughout
  have final := ((throughout.2 _ rfl).2 _ rfl).2 _ rfl
  exact absurd final.active (by decide)

end BlueOs.ActiveHeap
