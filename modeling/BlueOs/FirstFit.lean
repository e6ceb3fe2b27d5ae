import BlueOs.Coalescing

/-!
# First fit

What a first-fit allocator promises about a list of blocks: a request succeeds
exactly when some free block is larger than it, and takes the first such block.
The allocator's own search never visits a block, so it keeps this promise exactly
on the heaps in which every free block is too small.
-/

namespace BlueOs.FirstFit

open ByteMemory MemoryManager HeapInvariant

/-- The source's test of one chunk. -/
def fits (request : Word) (block : Block) : Bool := !block.allocated && request < block.size

/-- The first block in list order that passes the test. -/
def firstFit (request : Word) (blocks : List Block) : Option Block := blocks.find? (fits request)

/-- A result is the first-fit result for these blocks: null exactly when no block
fits and then without an effect, otherwise the payload of the first that fits. -/
structure Complete (request : Word) (blocks : List Block) (memory : Memory)
    (result : Address × Memory) : Prop where
  served : result.1 ≠ 0 ↔ ∃ block ∈ blocks, block.allocated = false ∧ request < block.size
  earliest : ∀ block, firstFit request blocks = some block → result.1 = block.payload
  refused : result.1 = 0 → result.2 = memory

/-- No first-fit block exists exactly when every free block is too small. -/
theorem firstFit_none_iff (request : Word) (blocks : List Block) :
    firstFit request blocks = none ↔
      ∀ block ∈ blocks, block.allocated = false → block.size ≤ request := by
  simp [firstFit, fits, BitVec.not_lt]

/-- Over every well-formed heap and request, `kmalloc` returns, and what it
returns is the first-fit result exactly when every free block is too small. -/
theorem kmalloc_complete_iff (fuel : Nat) (first size : Word) (head : Address) (memory : Memory)
    (blocks : List Block) (_heap : Represents first size head memory blocks) (request : Word) :
    ∃ result, kmalloc fuel ⟨head⟩ request memory = some result ∧
      (Complete request blocks memory result ↔
        ∀ block ∈ blocks, block.allocated = false → block.size ≤ request) := by
  refine ⟨(0, memory), Coalescing.kmalloc_null fuel ⟨head⟩ request memory, ?_⟩
  constructor
  · intro complete block member free
    by_contra large
    have larger : request < block.size := BitVec.not_le.mp large
    exact complete.served.mpr ⟨block, member, free, larger⟩ rfl
  · intro small
    refine ⟨?_, ?_, fun _ => rfl⟩
    · constructor
      · intro nonnull
        exact absurd rfl nonnull
      · rintro ⟨block, member, free, larger⟩
        exact absurd larger (BitVec.not_lt.mpr (small block member free))
    · intro block found
      rw [(firstFit_none_iff request blocks).mpr small] at found
      cases found

/-- A heap whose free block is no larger than the request is served correctly. -/
theorem kmalloc_complete_small_request :
    ∃ result, kmalloc 0 ⟨0x1000⟩ 51 (construct 0x1000 64 fun _ => 0).2 = some result ∧
      Complete 51 [⟨0x1000, 51, false⟩] (construct 0x1000 64 fun _ => 0).2 result := by
  obtain ⟨result, returned, exactly⟩ := kmalloc_complete_iff 0 0x1000 64 0x1000 _ _
    (Coalescing.construct_represents 0x1000 64 (fun _ => 0) (by decide) (by decide) (by decide)) 51
  exact ⟨result, returned, exactly.mpr (by decide)⟩

/-- A new heap with 51 free bytes refuses a request for one. -/
theorem kmalloc_refuses_fitting_request :
    Represents 0x1000 64 0x1000 (construct 0x1000 64 fun _ => 0).2 [⟨0x1000, 51, false⟩] ∧
      firstFit 1 [⟨0x1000, 51, false⟩] = some ⟨0x1000, 51, false⟩ ∧
      (kmalloc 0 ⟨0x1000⟩ 1 (construct 0x1000 64 fun _ => 0).2).map Prod.fst = some 0 :=
  ⟨Coalescing.construct_represents 0x1000 64 _ (by decide) (by decide) (by decide), by decide,
    congrArg (Option.map Prod.fst) (Coalescing.kmalloc_null 0 ⟨0x1000⟩ 1 _)⟩

end BlueOs.FirstFit
