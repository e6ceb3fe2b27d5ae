import BlueOs.Library.ByteMemory
import BlueOs.Library.FuelledLoop

/-!
# The kernel heap allocator

`MemoryManager` keeps one pointer, the head of a doubly linked list of chunks
laid in raw memory. A chunk is a packed header of thirteen bytes followed by its
payload. `kmalloc` searches the list and carves the chunk it found; `kfree` marks
a chunk free and joins it with its free neighbours.

The definitions follow the statements of the source in order, each assignment
being one store to memory. Pointer and size arithmetic is modulo 2^32. The search
loop is given fuel; nothing else can fail to end.

The frame laws say that an assignment to a field of one chunk changes that field
and no header thirteen or more bytes away in both directions.
-/

namespace BlueOs.MemoryManager

open ByteMemory FuelledLoop

/-- The packed header: two pointers, one byte, one size. -/
structure MemoryChunk where
  next : Address
  prev : Address
  allocated : Bool
  size : Word
deriving DecidableEq

/-- `sizeof(MemoryChunk)`, with no padding. -/
def sizeofMemoryChunk : Word := 13

/-- The header found at an address: `next` at offset 0, `prev` at 4, `allocated`
at 8 and `size` at 9. -/
def chunkAt (memory : Memory) (chunk : Address) : MemoryChunk where
  next := load32 memory chunk
  prev := load32 memory (chunk + 4)
  allocated := memory (chunk + 8) != 0
  size := load32 memory (chunk + 9)

/-- `chunk->next = value` -/
def setNext (memory : Memory) (chunk value : Address) : Memory := store32 memory chunk value

/-- `chunk->prev = value` -/
def setPrev (memory : Memory) (chunk value : Address) : Memory := store32 memory (chunk + 4) value

/-- `chunk->allocated = value` -/
def setAllocated (memory : Memory) (chunk : Address) (value : Bool) : Memory :=
  store8 memory (chunk + 8) (if value then 1 else 0)

/-- `chunk->size = value` -/
def setSize (memory : Memory) (chunk : Address) (value : Word) : Memory :=
  store32 memory (chunk + 9) value

/-- The list head is the only member the functions below use. -/
structure Manager where
  head : Address
deriving DecidableEq

/-- The constructor writes one free chunk over the whole arena, or none when the
arena cannot hold a header. -/
def construct (first size : Word) (memory : Memory) : Manager × Memory :=
  if size < sizeofMemoryChunk then (⟨0⟩, memory)
  else
    let head := first
    let memory := setAllocated memory head false
    let memory := setNext memory head 0
    let memory := setPrev memory head 0
    (⟨head⟩, setSize memory head (size - sizeofMemoryChunk))

/-- The locals of the search loop in `kmalloc`. -/
structure Search where
  chunk : Address
  result : Address
deriving DecidableEq

/-- `chunk != 0 && result != 0` -/
def searchGuard (search : Search) : Bool := search.chunk != 0 && search.result != 0

/-- The loop body followed by `chunk = chunk->next`. -/
def searchBody (memory : Memory) (size : Word) (search : Search) : Search where
  chunk := (chunkAt memory search.chunk).next
  result :=
    let chunk := chunkAt memory search.chunk
    if !chunk.allocated && size < chunk.size then search.chunk else search.result

/-- Split the found chunk when its size leaves room for another header, then mark
it allocated. This is `kmalloc` after its search. -/
def carve (result : Address) (size : Word) (memory : Memory) : Memory :=
  let memory :=
    if size + sizeofMemoryChunk < (chunkAt memory result).size then
      let newChunk := result + size + sizeofMemoryChunk
      let memory := setAllocated memory newChunk false
      let memory := setNext memory newChunk (chunkAt memory result).next
      let memory := setPrev memory newChunk result
      let memory := setSize memory newChunk
        ((chunkAt memory result).size - size - sizeofMemoryChunk)
      let memory := setNext memory result newChunk
      let memory := setSize memory result size
      if (chunkAt memory newChunk).next ≠ 0 then
        setPrev memory (chunkAt memory newChunk).next newChunk
      else memory
    else memory
  setAllocated memory result true

/-- `kmalloc` returns the payload address and the memory it leaves. No result is
returned only when the search loop is still running. -/
def kmalloc (fuel : Nat) (manager : Manager) (size : Word) (memory : Memory) :
    Option (Address × Memory) :=
  match run searchGuard (searchBody memory size) fuel ⟨manager.head, 0⟩ with
  | .interrupted _ => none
  | .finished search =>
    if search.result = 0 then some (0, memory)
    else some (sizeofMemoryChunk + search.result, carve search.result size memory)

/-- The first merge of `kfree`: absorb a free next chunk. -/
def mergeNext (chunk : Address) (memory : Memory) : Memory :=
  let next := (chunkAt memory chunk).next
  if next ≠ 0 ∧ (chunkAt memory next).allocated = false then
    let memory := setSize memory chunk
      ((chunkAt memory chunk).size + (sizeofMemoryChunk + (chunkAt memory next).size))
    let memory := setNext memory chunk (chunkAt memory (chunkAt memory chunk).next).next
    if (chunkAt memory chunk).next ≠ 0 then setPrev memory (chunkAt memory chunk).next chunk
    else memory
  else memory

/-- The second merge of `kfree`: let a free previous chunk absorb this one. The
source assigns the previous chunk's size and does not add to it. -/
def mergePrev (chunk : Address) (memory : Memory) : Memory :=
  let prev := (chunkAt memory chunk).prev
  if prev ≠ 0 ∧ (chunkAt memory prev).allocated = false then
    let memory := setSize memory prev (sizeofMemoryChunk + (chunkAt memory chunk).size)
    let memory := setNext memory (chunkAt memory chunk).prev (chunkAt memory chunk).next
    if (chunkAt memory chunk).next ≠ 0 then
      setPrev memory (chunkAt memory chunk).next (chunkAt memory chunk).prev
    else memory
  else memory

def kfree (ptr : Address) (memory : Memory) : Memory :=
  if ptr = 0 then memory
  else
    let chunk := ptr - sizeofMemoryChunk
    mergePrev chunk (mergeNext chunk (setAllocated memory chunk false))

/-- Two headers share no byte. -/
def Apart (left right : Address) : Prop :=
  13 ≤ (right - left).toNat ∧ 13 ≤ (left - right).toNat

theorem Apart.symm (left right : Address) (apart : Apart left right) : Apart right left :=
  ⟨apart.2, apart.1⟩

/-- Memory outside one header is unchanged. -/
def WritesWithin (chunk : Address) (before after : Memory) : Prop :=
  ∀ tested, 13 ≤ (tested - chunk).toNat → after tested = before tested

theorem setNext_within (memory : Memory) (chunk value : Address) :
    WritesWithin chunk memory (setNext memory chunk value) := by
  intro tested outside
  exact store32_other memory chunk tested value (by omega)

theorem setPrev_within (memory : Memory) (chunk value : Address) :
    WritesWithin chunk memory (setPrev memory chunk value) := by
  intro tested outside
  exact store32_other memory (chunk + 4) tested value (by bv_omega)

theorem setAllocated_within (memory : Memory) (chunk : Address) (value : Bool) :
    WritesWithin chunk memory (setAllocated memory chunk value) := by
  intro tested outside
  apply store8_other
  rintro rfl
  bv_omega

theorem setSize_within (memory : Memory) (chunk : Address) (value : Word) :
    WritesWithin chunk memory (setSize memory chunk value) := by
  intro tested outside
  exact store32_other memory (chunk + 9) tested value (by bv_omega)

/-- Writes within one header leave every header apart from it. -/
theorem chunkAt_frame (chunk other : Address) (before after : Memory)
    (within : WritesWithin chunk before after) (apart : Apart chunk other) :
    chunkAt after other = chunkAt before other := by
  obtain ⟨ahead, behind⟩ := apart
  have next : load32 after other = load32 before other := by
    apply load32_congr
    intro position inside
    exact within position (by bv_omega)
  have prev : load32 after (other + 4) = load32 before (other + 4) := by
    apply load32_congr
    intro position inside
    exact within position (by bv_omega)
  have size : load32 after (other + 9) = load32 before (other + 9) := by
    apply load32_congr
    intro position inside
    exact within position (by bv_omega)
  have allocated : after (other + 8) = before (other + 8) := within (other + 8) (by bv_omega)
  simp only [chunkAt, next, prev, size, allocated]

@[simp] theorem chunkAt_setNext (memory : Memory) (chunk value : Address) :
    chunkAt (setNext memory chunk value) chunk = { chunkAt memory chunk with next := value } := by
  have prev : load32 (store32 memory chunk value) (chunk + 4) = load32 memory (chunk + 4) :=
    load32_store32_apart memory chunk (chunk + 4) value (by bv_omega) (by bv_omega)
  have size : load32 (store32 memory chunk value) (chunk + 9) = load32 memory (chunk + 9) :=
    load32_store32_apart memory chunk (chunk + 9) value (by bv_omega) (by bv_omega)
  have allocated : store32 memory chunk value (chunk + 8) = memory (chunk + 8) :=
    store32_other memory chunk (chunk + 8) value (by bv_omega)
  simp only [chunkAt, setNext, load32_store32, prev, size, allocated]

@[simp] theorem chunkAt_setPrev (memory : Memory) (chunk value : Address) :
    chunkAt (setPrev memory chunk value) chunk = { chunkAt memory chunk with prev := value } := by
  have next : load32 (store32 memory (chunk + 4) value) chunk = load32 memory chunk :=
    load32_store32_apart memory (chunk + 4) chunk value (by bv_omega) (by bv_omega)
  have size : load32 (store32 memory (chunk + 4) value) (chunk + 9) = load32 memory (chunk + 9) :=
    load32_store32_apart memory (chunk + 4) (chunk + 9) value (by bv_omega) (by bv_omega)
  have allocated : store32 memory (chunk + 4) value (chunk + 8) = memory (chunk + 8) :=
    store32_other memory (chunk + 4) (chunk + 8) value (by bv_omega)
  simp only [chunkAt, setPrev, load32_store32, next, size, allocated]

@[simp] theorem chunkAt_setAllocated (memory : Memory) (chunk : Address) (value : Bool) :
    chunkAt (setAllocated memory chunk value) chunk =
      { chunkAt memory chunk with allocated := value } := by
  have next (byte : Byte) : load32 (store8 memory (chunk + 8) byte) chunk = load32 memory chunk :=
    load32_store8_apart memory (chunk + 8) chunk byte (by bv_omega)
  have prev (byte : Byte) :
      load32 (store8 memory (chunk + 8) byte) (chunk + 4) = load32 memory (chunk + 4) :=
    load32_store8_apart memory (chunk + 8) (chunk + 4) byte (by bv_omega)
  have size (byte : Byte) :
      load32 (store8 memory (chunk + 8) byte) (chunk + 9) = load32 memory (chunk + 9) :=
    load32_store8_apart memory (chunk + 8) (chunk + 9) byte (by bv_omega)
  simp only [chunkAt, setAllocated, next, prev, size, store8_same]
  cases value <;> rfl

@[simp] theorem chunkAt_setSize (memory : Memory) (chunk : Address) (value : Word) :
    chunkAt (setSize memory chunk value) chunk = { chunkAt memory chunk with size := value } := by
  have next : load32 (store32 memory (chunk + 9) value) chunk = load32 memory chunk :=
    load32_store32_apart memory (chunk + 9) chunk value (by bv_omega) (by bv_omega)
  have prev : load32 (store32 memory (chunk + 9) value) (chunk + 4) = load32 memory (chunk + 4) :=
    load32_store32_apart memory (chunk + 9) (chunk + 4) value (by bv_omega) (by bv_omega)
  have allocated : store32 memory (chunk + 9) value (chunk + 8) = memory (chunk + 8) :=
    store32_other memory (chunk + 9) (chunk + 8) value (by bv_omega)
  simp only [chunkAt, setSize, load32_store32, next, prev, allocated]

end BlueOs.MemoryManager
