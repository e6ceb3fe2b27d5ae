import BlueOs.Library.ByteMemory
import BlueOs.TaskManager
import Mathlib.Data.List.Induction

/-!
# Registries of fixed size

Tasks, the children of a widget and drivers are registered in arrays of pointers, each
with the number of its entries in the word behind it. An entry is stored at the index of
that number, which is then incremented. Two of the three functions look at the number
before; the drivers' does not.

Memory is bytes here, so that a store past an array lands where it does, and the places
stored to are recorded.
-/

namespace BlueOs.FixedRegistries

open ByteMemory

/-- An array of pointers at an address, with its counter behind it. -/
structure Registry where
  array : Address
  capacity : Nat
  bounded : capacity < 2 ^ 28

/-- Memory, and the places of the entries stored, the earliest first. -/
structure State where
  memory : Memory
  stores : List Address

namespace Registry

variable (registry : Registry)

/-- `&array[index]` -/
def slot (index : Word) : Address := registry.array + 4 * index

def counter : Address := registry.array + 4 * BitVec.ofNat 32 registry.capacity

def count (memory : Memory) : Word := load32 memory registry.counter

/-- `array[count] = entry` -/
def store (entry : Address) (state : State) : State where
  memory := store32 state.memory (registry.slot (registry.count state.memory)) entry
  stores := state.stores ++ [registry.slot (registry.count state.memory)]

/-- `count++` -/
def increment (state : State) : State :=
  { state with
    memory := store32 state.memory registry.counter (registry.count state.memory + 1) }

/-- `array[count++] = entry` -/
def append (entry : Address) (state : State) : State :=
  registry.increment (registry.store entry state)

/-- What the constructors do: `count = 0`. The record of stores begins here. -/
def construct (memory : Memory) : State where
  memory := store32 memory registry.counter 0
  stores := []

end Registry

/-- `tasks` and `numTasks` of a `TaskManager` -/
def taskRegistry (this : Address) : Registry := ⟨this, 256, by decide⟩

def addTask (this task : Address) (state : State) : Bool × State :=
  if ((taskRegistry this).count state.memory).slt 256 then
    (true, (taskRegistry this).append task state)
  else (false, state)

/-- `children` and `numChildren` of a `CompositeWidget`, by the address of `children` -/
def childRegistry (children : Address) : Registry := ⟨children, 100, by decide⟩

def addChild (children child : Address) (state : State) : Bool × State :=
  if (100 : Word).sle ((childRegistry children).count state.memory) then (false, state)
  else (true, (childRegistry children).append child state)

/-- `drivers` and `numOfDriver` of a `DriverManager` -/
def driverRegistry (this : Address) : Registry := ⟨this, 256, by decide⟩

def addDriver (this drv : Address) (state : State) : State :=
  (driverRegistry this).append drv state

/-- A driver's `activate` changes the world outside the manager. -/
def activateAll {ω : Type} (activate : Address → ω → ω) (this : Address) (memory : Memory)
    (world : ω) : ω :=
  (List.range ((driverRegistry this).count memory).toInt.toNat).foldl (fun world i =>
    activate (load32 memory ((driverRegistry this).slot (BitVec.ofNat 32 i))) world) world

section property

variable (registry : Registry) (add : Address → State → State) (memory : Memory)

/-- Registrations in order, on a new object. -/
def run (entries : List Address) : State :=
  entries.foldl (fun state entry => add entry state) (registry.construct memory)

/-- A place of the array. -/
def Inside (place : Address) : Prop :=
  ∃ index < registry.capacity, place = registry.slot (BitVec.ofNat 32 index)

/-- What is asked of a registration: stores only inside the array, the entries registered
earlier kept, and no change when the registry is full. -/
structure Sound (earlier : List Address) (before after : State) : Prop where
  inside : ∀ place ∈ after.stores, Inside registry place
  kept : ∀ index entry, (earlier.take registry.capacity)[index]? = some entry →
    load32 after.memory (registry.slot (BitVec.ofNat 32 index)) = entry
  full : registry.capacity ≤ earlier.length → after = before

/-- Every registration of a sequence is sound. -/
def Keeps (entries : List Address) : Prop :=
  ∀ earlier entry later, entries = earlier ++ entry :: later →
    Sound registry earlier (run registry add memory earlier)
      (run registry add memory (earlier ++ [entry]))

/-- The registry holds a list. -/
structure Represents (entries : List Address) (state : State) : Prop where
  fits : entries.length ≤ registry.capacity
  counted : registry.count state.memory = BitVec.ofNat 32 entries.length
  held : ∀ index entry, entries[index]? = some entry →
    load32 state.memory (registry.slot (BitVec.ofNat 32 index)) = entry
  inside : ∀ place ∈ state.stores, Inside registry place

end property

section slots

variable (registry : Registry)

theorem counter_slot : registry.counter = registry.slot (BitVec.ofNat 32 registry.capacity) := rfl

/-- Different slots share no byte; the counter is the slot after the last one. -/
theorem slots_apart (one other : Nat) (oneFits : one ≤ registry.capacity)
    (otherFits : other ≤ registry.capacity) (different : one ≠ other) :
    4 ≤ (registry.slot (BitVec.ofNat 32 one) - registry.slot (BitVec.ofNat 32 other)).toNat := by
  have bounded := registry.bounded
  simp only [Registry.slot]
  bv_omega

theorem load32_slot_other (memory : Memory) (value : Word) (one other : Nat)
    (oneFits : one ≤ registry.capacity) (otherFits : other ≤ registry.capacity)
    (different : one ≠ other) :
    load32 (store32 memory (registry.slot (BitVec.ofNat 32 one)) value)
      (registry.slot (BitVec.ofNat 32 other)) =
      load32 memory (registry.slot (BitVec.ofNat 32 other)) := by
  apply load32_store32_apart
  · exact slots_apart registry other one otherFits oneFits (Ne.symm different)
  · exact slots_apart registry one other oneFits otherFits different

/-- The counter is not a place of the array. -/
theorem counter_outside : ¬Inside registry registry.counter := by
  rintro ⟨index, small, same⟩
  have apart := slots_apart registry registry.capacity index (Nat.le_refl _) (Nat.le_of_lt small)
    (Nat.ne_of_gt small)
  rw [← counter_slot, same] at apart
  simp at apart

end slots

section appending

variable (registry : Registry)

theorem construct_represents (memory : Memory) :
    Represents registry [] (registry.construct memory) where
  fits := Nat.zero_le _
  counted := load32_store32 _ _ _
  held := fun _ _ none => by cases none
  inside := fun _ none => by cases none

/-- The slot that an entry is stored to is the one after the entries before it. -/
theorem append_eq (entries : List Address) (state : State)
    (represents : Represents registry entries state) (entry : Address) :
    registry.append entry state =
      registry.increment
        { memory := store32 state.memory (registry.slot (BitVec.ofNat 32 entries.length)) entry
          stores := state.stores ++ [registry.slot (BitVec.ofNat 32 entries.length)] } := by
  rw [Registry.append, Registry.store, represents.counted]

/-- With room left, an entry is added. -/
theorem append_represents (entries : List Address) (state : State)
    (represents : Represents registry entries state) (room : entries.length < registry.capacity)
    (entry : Address) :
    Represents registry (entries ++ [entry]) (registry.append entry state) := by
  have counterKept := load32_slot_other registry state.memory entry entries.length registry.capacity
    (Nat.le_of_lt room) (Nat.le_refl _) (Nat.ne_of_lt room)
  rw [append_eq registry entries state represents]
  constructor
  · rw [List.length_append]
    exact room
  · rw [Registry.increment, Registry.count, load32_store32, Registry.count, counter_slot,
      counterKept, ← counter_slot, ← Registry.count, represents.counted, List.length_append]
    exact (BitVec.ofNat_add _ _).symm
  · intro index address there
    have inside : index < registry.capacity := by
      have shorter := (List.getElem?_eq_some_iff.mp there).1
      rw [List.length_append] at shorter
      exact Nat.lt_of_lt_of_le shorter room
    rw [Registry.increment, counter_slot, load32_slot_other registry _ _ _ index (Nat.le_refl _)
      (Nat.le_of_lt inside) (Nat.ne_of_gt inside)]
    rcases Nat.lt_or_ge index entries.length with earlier | last
    · rw [List.getElem?_append_left earlier] at there
      rw [load32_slot_other registry _ _ _ index (Nat.le_of_lt room) (Nat.le_of_lt inside)
        (Nat.ne_of_gt earlier)]
      exact represents.held index address there
    · rw [List.getElem?_append_right last, List.getElem?_singleton] at there
      split at there
      case isTrue zero =>
        obtain rfl := Option.some.inj there
        have same : index = entries.length := by omega
        rw [same, load32_store32]
      case isFalse => cases there
  · intro place listed
    rcases List.mem_append.mp listed with earlier | last
    · exact represents.inside place earlier
    · rw [List.mem_singleton.mp last]
      exact ⟨entries.length, room, rfl⟩

/-- Without room, the place stored to is that of the counter, and the counter becomes the
successor of the entry. -/
theorem append_overflow (entries : List Address) (state : State)
    (represents : Represents registry entries state) (full : entries.length = registry.capacity)
    (entry : Address) :
    registry.counter ∈ (registry.append entry state).stores ∧
      registry.count (registry.append entry state).memory = entry + 1 := by
  rw [append_eq registry entries state represents, full, ← counter_slot]
  constructor
  · exact List.mem_append_right _ (List.mem_singleton_self _)
  · rw [Registry.increment, Registry.count, load32_store32, Registry.count, load32_store32]

/-- An entry and the counter are stored inside the registry. -/
theorem append_other (entries : List Address) (state : State)
    (represents : Represents registry entries state) (entry tested : Address)
    (outside : 4 * registry.capacity + 4 ≤ (tested - registry.array).toNat) :
    (registry.append entry state).memory tested = state.memory tested := by
  have bounded := registry.bounded
  have beyond (index : Nat) (fits : index ≤ registry.capacity) :
      4 ≤ (tested - registry.slot (BitVec.ofNat 32 index)).toNat := by
    simp only [Registry.slot]
    bv_omega
  rw [append_eq registry entries state represents, Registry.increment, counter_slot]
  dsimp only
  rw [store32_other _ _ _ _ (beyond _ (Nat.le_refl _)),
    store32_other _ _ _ _ (beyond _ represents.fits)]

end appending

section runs

variable (registry : Registry) (add : Address → State → State) (memory : Memory)

/-- With room left, a function appends. -/
def Accepts : Prop :=
  ∀ entries state entry, Represents registry entries state → entries.length < registry.capacity →
    add entry state = registry.append entry state

/-- Without room, it changes nothing. -/
def Refuses : Prop :=
  ∀ entries state entry, Represents registry entries state → entries.length = registry.capacity →
    add entry state = state

theorem run_append (entries : List Address) (entry : Address) :
    run registry add memory (entries ++ [entry]) =
      add entry (run registry add memory entries) := by
  rw [run, List.foldl_append]
  rfl

/-- A run leaves the first entries, as many as fit. It has to refuse an entry only if
there are more. -/
theorem run_represents (accepts : Accepts registry add) (entries : List Address)
    (refuses : registry.capacity < entries.length → Refuses registry add) :
    Represents registry (entries.take registry.capacity) (run registry add memory entries) := by
  induction entries using List.reverseRecOn with
  | nil =>
    rw [List.take_nil]
    exact construct_represents registry memory
  | append_singleton entries entry inductionHypothesis =>
    rw [List.length_append] at refuses
    have held := inductionHypothesis fun more => refuses (Nat.lt_succ_of_lt more)
    rw [run_append]
    rcases Nat.lt_or_ge entries.length registry.capacity with room | full
    · rw [List.take_of_length_le (Nat.le_of_lt room)] at held
      rw [List.take_of_length_le (by rw [List.length_append]; exact room),
        accepts entries _ entry held room]
      exact append_represents registry entries _ held room entry
    · have most : (entries.take registry.capacity).length = registry.capacity := by
        rw [List.length_take, Nat.min_eq_left full]
      rw [List.take_append_of_le_length full,
        refuses (Nat.lt_succ_of_le full) _ _ entry held most]
      exact held

/-- Registrations that fit write inside the registry. -/
theorem run_other (accepts : Accepts registry add) (entries : List Address)
    (fits : entries.length ≤ registry.capacity) (tested : Address)
    (outside : 4 * registry.capacity + 4 ≤ (tested - registry.array).toNat) :
    (run registry add memory entries).memory tested = memory tested := by
  induction entries using List.reverseRecOn with
  | nil =>
    have bounded := registry.bounded
    apply store32_other
    simp only [Registry.counter]
    bv_omega
  | append_singleton entries entry inductionHypothesis =>
    rw [List.length_append, List.length_singleton] at fits
    have held := run_represents registry add memory accepts entries fun more => by omega
    rw [List.take_of_length_le (by omega)] at held
    rw [run_append, accepts entries _ entry held (by omega), append_other registry entries _ held
      entry tested outside]
    exact inductionHypothesis (by omega)

/-- Such a function keeps what is registered. -/
theorem keeps_of_accepts (accepts : Accepts registry add) (entries : List Address)
    (refuses : registry.capacity < entries.length → Refuses registry add) :
    Keeps registry add memory entries := by
  rintro earlier entry later rfl
  have length : (earlier ++ entry :: later).length = earlier.length + (later.length + 1) := by
    rw [List.length_append, List.length_cons]
  have before := run_represents registry add memory accepts earlier
    fun more => refuses (by omega)
  have after := run_represents registry add memory accepts (earlier ++ [entry])
    fun more => refuses (by rw [List.length_append, List.length_singleton] at more; omega)
  constructor
  · exact after.inside
  · intro index address there
    apply after.held index address
    rw [List.take_append, List.getElem?_append_left (List.getElem?_eq_some_iff.mp there).1]
    exact there
  · intro full
    have most : (earlier.take registry.capacity).length = registry.capacity := by
      rw [List.length_take, Nat.min_eq_left full]
    rw [run_append]
    exact refuses (by omega) _ _ entry before most

/-- The number of entries of a registry that holds a list, as a signed number. -/
theorem Represents.count_toInt {registry : Registry} {entries : List Address} {state : State}
    (represents : Represents registry entries state) :
    (registry.count state.memory).toInt = entries.length := by
  have bounded := registry.bounded
  have fits := represents.fits
  rw [represents.counted, BitVec.toInt_eq_toNat_of_lt]
  · rw [BitVec.toNat_ofNat, Nat.mod_eq_of_lt (by omega)]
  · rw [BitVec.toNat_ofNat]
    omega

end runs

section functions

theorem addTask_accepts (this : Address) :
    Accepts (taskRegistry this) (fun task state => (addTask this task state).2) := by
  intro entries state entry represents room
  have below : ((taskRegistry this).count state.memory).slt 256 = true := by
    rw [BitVec.slt_iff_toInt_lt, represents.count_toInt]
    exact Int.ofNat_lt.mpr room
  simp only [addTask, if_pos below]

theorem addTask_refuses (this : Address) :
    Refuses (taskRegistry this) (fun task state => (addTask this task state).2) := by
  intro entries state entry represents full
  have most : ¬((taskRegistry this).count state.memory).slt 256 = true := by
    rw [BitVec.slt_iff_toInt_lt, represents.count_toInt, full]
    exact Int.lt_irrefl 256
  simp only [addTask, if_neg most]

theorem addChild_accepts (children : Address) :
    Accepts (childRegistry children) (fun child state => (addChild children child state).2) := by
  intro entries state entry represents room
  have below : ¬(100 : Word).sle ((childRegistry children).count state.memory) = true := by
    rw [BitVec.sle_iff_toInt_le, represents.count_toInt]
    exact Int.not_le.mpr (Int.ofNat_lt.mpr room)
  simp only [addChild, if_neg below]

theorem addChild_refuses (children : Address) :
    Refuses (childRegistry children) (fun child state => (addChild children child state).2) := by
  intro entries state entry represents full
  have most : (100 : Word).sle ((childRegistry children).count state.memory) = true := by
    rw [BitVec.sle_iff_toInt_le, represents.count_toInt, full]
    exact Int.le_refl 100
  simp only [addChild, if_pos most]

theorem addDriver_accepts (this : Address) : Accepts (driverRegistry this) (addDriver this) :=
  fun _ _ _ _ _ => rfl

/-- A driver too many is stored over the counter. -/
theorem addDriver_overflows (this : Address) (memory : Memory) (earlier : List Address)
    (full : earlier.length = 256) (drv : Address) :
    (driverRegistry this).counter ∈
        (run (driverRegistry this) (addDriver this) memory (earlier ++ [drv])).stores ∧
      (driverRegistry this).count
        (run (driverRegistry this) (addDriver this) memory (earlier ++ [drv])).memory =
          drv + 1 := by
  have held := run_represents (driverRegistry this) (addDriver this) memory
    (addDriver_accepts this) earlier fun more => absurd more (Nat.not_lt.mpr (Nat.le_of_eq full))
  have whole : earlier.take (driverRegistry this).capacity = earlier :=
    List.take_of_length_le (Nat.le_of_eq full)
  rw [whole] at held
  rw [run_append]
  exact append_overflow (driverRegistry this) earlier _ held full drv

/-- Drivers are kept exactly as long as they fit. -/
theorem addDriver_keeps_iff (this : Address) (memory : Memory) (drivers : List Address) :
    Keeps (driverRegistry this) (addDriver this) memory drivers ↔ drivers.length ≤ 256 := by
  constructor
  · intro keeps
    by_contra many
    rw [Nat.not_le] at many
    have split : drivers = drivers.take 256 ++ drivers[256] :: drivers.drop 257 := by
      rw [List.getElem_cons_drop, List.take_append_drop]
    have sound := keeps _ _ _ split
    have overflow := addDriver_overflows this memory (drivers.take 256)
      (List.length_take_of_le (Nat.le_of_lt many)) drivers[256]
    exact counter_outside (driverRegistry this) (sound.inside _ overflow.1)
  · intro fit
    exact keeps_of_accepts _ _ memory (addDriver_accepts this) drivers
      fun more => absurd more (Nat.not_lt.mpr fit)

/-- Every driver that is held is activated, in order. -/
theorem activateAll_eq {ω : Type} (activate : Address → ω → ω) (this : Address)
    (drivers : List Address) (state : State)
    (represents : Represents (driverRegistry this) drivers state) (world : ω) :
    activateAll activate this state.memory world =
      drivers.foldl (fun world driver => activate driver world) world := by
  have slots : (List.range drivers.length).map (fun i =>
      load32 state.memory ((driverRegistry this).slot (BitVec.ofNat 32 i))) = drivers := by
    apply List.ext_getElem
    · rw [List.length_map, List.length_range]
    · intro index inside member
      rw [List.getElem_map, List.getElem_range]
      exact represents.held index _ (List.getElem?_eq_getElem member)
  have count : ((driverRegistry this).count state.memory).toInt.toNat = drivers.length := by
    rw [represents.count_toInt]
    exact Int.toNat_natCast _
  conv_rhs => rw [← slots]
  rw [activateAll, count, List.foldl_map]

/-- On a table that is held, `addTask` does what the task manager does with its list. -/
theorem addTask_refines (this : Address) (manager : TaskManager.Manager) (state : State)
    (represents : Represents (taskRegistry this) manager.tasks state) (task : Address) :
    (addTask this task state).1 = (manager.addTask task).1 ∧
      Represents (taskRegistry this) (manager.addTask task).2.tasks
        (addTask this task state).2 := by
  have numTasks : manager.numTasks = (manager.tasks.length : Int) := rfl
  have compared : ((taskRegistry this).count state.memory).slt 256 = true ↔
      manager.numTasks < 256 := by
    rw [BitVec.slt_iff_toInt_lt, represents.count_toInt, numTasks]
    rfl
  rw [addTask, TaskManager.Manager.addTask]
  by_cases room : manager.numTasks < 256
  · rw [if_pos room, if_pos (compared.mpr room)]
    rw [numTasks] at room
    exact ⟨rfl, append_represents _ _ state represents (Int.ofNat_lt.mp room) task⟩
  · rw [if_neg room, if_neg (mt compared.mp room)]
    exact ⟨rfl, represents⟩

end functions

/-- What is asked of the three registries and of the activation of all drivers. -/
structure RegistriesHold (manager children driverManager : Address) (memory : Memory)
    (tasks widgets drivers : List Address) : Prop where
  tasksKept : Keeps (taskRegistry manager) (fun task state => (addTask manager task state).2)
    memory tasks
  childrenKept : Keeps (childRegistry children)
    (fun child state => (addChild children child state).2) memory widgets
  driversKept : Keeps (driverRegistry driverManager) (addDriver driverManager) memory drivers
  activated : ∀ (ω : Type) (activate : Address → ω → ω) (world : ω),
    activateAll activate driverManager
        (run (driverRegistry driverManager) (addDriver driverManager) memory drivers).memory world =
      drivers.foldl (fun world driver => activate driver world) world

/-- For any sequences of registrations: the task table and the children never overflow,
and all of it holds exactly if at most 256 drivers are registered. -/
theorem registries_hold_iff (manager children driverManager : Address) (memory : Memory)
    (tasks widgets drivers : List Address) :
    (Keeps (taskRegistry manager) (fun task state => (addTask manager task state).2) memory tasks ∧
      Keeps (childRegistry children) (fun child state => (addChild children child state).2) memory
        widgets) ∧
      (RegistriesHold manager children driverManager memory tasks widgets drivers ↔
        drivers.length ≤ 256) := by
  have tasksKept := keeps_of_accepts _ _ memory (addTask_accepts manager) tasks
    fun _ => addTask_refuses manager
  have childrenKept := keeps_of_accepts _ _ memory (addChild_accepts children) widgets
    fun _ => addChild_refuses children
  refine ⟨⟨tasksKept, childrenKept⟩, ?_⟩
  constructor
  · intro hold
    exact (addDriver_keeps_iff driverManager memory drivers).mp hold.driversKept
  · intro fit
    refine ⟨tasksKept, childrenKept, (addDriver_keeps_iff driverManager memory drivers).mpr fit, ?_⟩
    intro ω activate world
    have held := run_represents (driverRegistry driverManager) (addDriver driverManager) memory
      (addDriver_accepts driverManager) drivers fun more => absurd more (Nat.not_lt.mpr fit)
    have whole : drivers.take (driverRegistry driverManager).capacity = drivers :=
      List.take_of_length_le fit
    rw [whole] at held
    exact activateAll_eq activate driverManager drivers _ held world

/-- The driver after the 256th is stored over the number of drivers, which becomes the
successor of its address. -/
theorem drivers_overflow :
    ¬RegistriesHold 0x100000 0x180000 0x200000 (fun _ => 0) [] []
        (List.replicate 256 0x300000 ++ [0x300000]) ∧
      (driverRegistry 0x200000).count (run (driverRegistry 0x200000) (addDriver 0x200000)
        (fun _ => 0) (List.replicate 256 0x300000 ++ [0x300000])).memory = 0x300001 := by
  have full : (List.replicate 256 (0x300000 : Address)).length = 256 := List.length_replicate
  constructor
  · intro hold
    have fit := (addDriver_keeps_iff _ _ _).mp hold.driversKept
    rw [List.length_append, full] at fit
    exact absurd fit (by decide)
  · exact (addDriver_overflows 0x200000 (fun _ => 0) _ full 0x300000).2

end BlueOs.FixedRegistries
