import BlueOs.Coalescing

/-!
# The heap behind the kernel

`setup_memory` lays the heap on the first page boundary at or behind the end of the
kernel. The address wraps around at the end of the memory, and so does the arena.
-/

namespace BlueOs.SetupMemory

open ByteMemory MemoryManager HeapInvariant

/-- `heap_start` -/
def heapStart (kernelEnd : Word) : Word := (kernelEnd + 0xFFF) &&& ~~~(0xFFF : Word)

/-- `heap_size`: ten mebibytes. -/
def heapSize : Word := 10 * 1024 * 1024

/-- `setup_memory`: the manager, and the memory after the two test allocations and the
one release. -/
def setupMemory (fuel : Nat) (kernelEnd : Word) (memory : Memory) : Option (Manager × Memory) := do
  let (memoryManager, memory) := construct (heapStart kernelEnd) heapSize memory
  let (a, memory) ← kmalloc fuel memoryManager 256 memory
  let (_, memory) ← kmalloc fuel memoryManager 512 memory
  some (memoryManager, kfree a memory)

/-- Clearing the low twelve bits. -/
theorem page_toNat (address : Word) :
    (address &&& ~~~(0xFFF : Word)).toNat = address.toNat / 4096 * 4096 := by
  have shifted : address &&& ~~~(0xFFF : Word) = address >>> 12 <<< 12 := by
    have mask : ∀ bit < 32, (~~~(0xFFF : Word)).getLsbD bit = decide (12 ≤ bit) := by decide
    apply BitVec.eq_of_getLsbD_eq
    intro bit inside
    rw [BitVec.getLsbD_and, mask bit inside, BitVec.getLsbD_shiftLeft, BitVec.getLsbD_ushiftRight]
    by_cases low : bit < 12
    · simp [low, Nat.not_le.mpr low]
    · simp [low, Nat.not_lt.mp low, inside]
  rw [shifted, BitVec.toNat_shiftLeft, BitVec.toNat_ushiftRight, Nat.shiftRight_eq_div_pow,
    Nat.shiftLeft_eq]
  have bound := address.isLt
  omega

/-- The allocations find nothing and the release frees nothing. -/
theorem setupMemory_eq (fuel : Nat) (kernelEnd : Word) (memory : Memory) :
    setupMemory fuel kernelEnd memory = some (construct (heapStart kernelEnd) heapSize memory) := by
  rw [setupMemory]
  simp only [Coalescing.kmalloc_null, Option.bind_eq_bind, Option.bind_some]
  rfl

/-- The constructor writes one header. -/
theorem construct_within (first size : Word) (memory : Memory) :
    WritesWithin first memory (construct first size memory).2 := by
  intro tested outside
  rw [construct]
  split
  · rfl
  · dsimp only
    rw [setSize_within _ first _ tested outside, setPrev_within _ first _ tested outside,
      setNext_within _ first _ tested outside, setAllocated_within _ first _ tested outside]

/-- Behind a kernel that leaves room for it, the heap starts on the first page boundary. -/
theorem heapStart_toNat (kernelEnd : Word) (room : kernelEnd.toNat ≤ 0xFF600000) :
    (heapStart kernelEnd).toNat = (kernelEnd.toNat + 0xFFF) / 4096 * 4096 := by
  have sum : (kernelEnd + 0xFFF).toNat = kernelEnd.toNat + 0xFFF := by bv_omega
  rw [heapStart, page_toNat, sum]

/-- For every end of the kernel the heap is set up, in the end with one header and no other
byte written. It is a well-formed heap behind the kernel exactly when the kernel does
not end at zero and leaves room for the arena; then it starts on the first page boundary
and is one free block. -/
theorem setup_behind_kernel_iff (fuel : Nat) (kernelEnd : Word) (memory : Memory) :
    ∃ manager after, setupMemory fuel kernelEnd memory = some (manager, after) ∧
      WritesWithin (heapStart kernelEnd) memory after ∧
      (WellFormed (heapStart kernelEnd) heapSize manager.head after ∧
          kernelEnd.toNat ≤ (heapStart kernelEnd).toNat ↔
        0 < kernelEnd.toNat ∧ kernelEnd.toNat ≤ 0xFF600000) ∧
      (0 < kernelEnd.toNat → kernelEnd.toNat ≤ 0xFF600000 →
        (heapStart kernelEnd).toNat = (kernelEnd.toNat + 0xFFF) / 4096 * 4096 ∧
          Represents (heapStart kernelEnd) heapSize manager.head after
            [⟨heapStart kernelEnd, heapSize - sizeofMemoryChunk, false⟩]) := by
  have size : heapSize.toNat = 0xA00000 := by decide
  have laid (positive : 0 < kernelEnd.toNat) (room : kernelEnd.toNat ≤ 0xFF600000) :
      Represents (heapStart kernelEnd) heapSize
        (construct (heapStart kernelEnd) heapSize memory).1.head
        (construct (heapStart kernelEnd) heapSize memory).2
        [⟨heapStart kernelEnd, heapSize - sizeofMemoryChunk, false⟩] := by
    have start := heapStart_toNat kernelEnd room
    apply Coalescing.construct_represents
    · omega
    · decide
    · omega
  refine ⟨_, _, setupMemory_eq fuel kernelEnd memory,
    construct_within (heapStart kernelEnd) heapSize memory, ?_,
    fun positive room => ⟨heapStart_toNat kernelEnd room, laid positive room⟩⟩
  constructor
  · rintro ⟨⟨blocks, heap⟩, behind⟩
    have positive := heap.positive
    have bounded := heap.bounded
    rw [size] at bounded
    refine ⟨?_, by omega⟩
    by_contra zero
    have none : kernelEnd = 0 := by bv_omega
    rw [none] at positive
    exact absurd positive (by decide)
  · rintro ⟨positive, room⟩
    have start := heapStart_toNat kernelEnd room
    exact ⟨⟨_, laid positive room⟩, by omega⟩

end BlueOs.SetupMemory
