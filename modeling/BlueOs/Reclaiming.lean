import BlueOs.Carving
import Mathlib.Data.List.Chain

/-!
# Freeing in a coalesced heap

In a heap without two adjacent free blocks, what `kfree` does to the list of blocks
is given by `release`: the freed block absorbs a free block above it and is then
absorbed by a free block below it. The size that a free block below is given is the
source's, so the list need not tile the arena; but it is linked both ways, no two
of its neighbours are free, and every other allocated block is still in it.

The block below a free block is allocated, so a chunk that is carved and freed again
is absorbed by nothing, and what it absorbs is what was split from it.
-/

namespace BlueOs.Reclaiming

open ByteMemory LinkedNodes MemoryManager HeapInvariant Coalescing Carving

/-- No two adjacent blocks are free. -/
def Coalesced (blocks : List Block) : Prop :=
  blocks.IsChain fun left right => left.allocated = true ∨ right.allocated = true

/-- What the second merge means on blocks: those before the merged block, and those
from it on. -/
def absorbPrev (before : List Block) : List Block → List Block
  | [] => before
  | merged :: rest =>
    match before.getLast? with
    | none => merged :: rest
    | some prev =>
      if prev.allocated then before ++ merged :: rest
      else before.dropLast ++ { prev with size := sizeofMemoryChunk + merged.size } :: rest

/-- What `kfree` means on blocks. -/
def release (before : List Block) (chunk : Block) (after : List Block) : List Block :=
  absorbPrev before (absorbNext { chunk with allocated := false } after)

theorem absorbPrev_busy (front rest : List Block) (prev merged : Block)
    (busy : prev.allocated = true) :
    absorbPrev (front ++ [prev]) (merged :: rest) = front ++ [prev] ++ merged :: rest := by
  simp [absorbPrev, busy]

theorem absorbPrev_free (front rest : List Block) (prev merged : Block)
    (free : prev.allocated = false) :
    absorbPrev (front ++ [prev]) (merged :: rest) =
      front ++ { prev with size := sizeofMemoryChunk + merged.size } :: rest := by
  simp [absorbPrev, free]

/-- Freeing a block of a well-formed heap leaves the released blocks linked. -/
theorem kfree_linked (first size : Word) (head : Address) (memory : Memory)
    (before after : List Block) (chunk : Block)
    (heap : Represents first size head memory (before ++ chunk :: after))
    (proper : chunk.payload ≠ 0) :
    Linked Block.address Block.header (chunkAt (kfree chunk.payload memory)) 0
      (release before chunk after) 0 := by
  have marked := mark_represents first size head memory before after chunk false heap
  have upward := mergeNext_represents first size head _ before after _ marked
  obtain ⟨merged, rest, shape, address, flag⟩ :=
    absorbNext_shape { chunk with allocated := false } after
  rw [shape] at upward
  have freed : kfree chunk.payload memory = mergePrev merged.address
      (mergeNext chunk.address (setAllocated memory chunk.address false)) := by
    simp only [kfree, proper, if_false, payload_header, address]
  have node := linked_node _ before rest merged 0 0 upward.linked
  rw [freed, release, shape]
  rcases List.eq_nil_or_concat' before with rfl | ⟨front, prev, rfl⟩
  · rw [mergePrev_unchanged _ merged.address (Or.inl (by rw [node]; rfl))]
    exact upward.linked
  · have below : (chunkAt (mergeNext chunk.address (setAllocated memory chunk.address false))
        merged.address).prev = prev.address := by
      rw [node]
      simp [Block.header, exit]
    have prevNode := linked_node _ front (merged :: rest) prev 0 0 (by simpa using upward.linked)
    by_cases busy : prev.allocated = true
    · rw [mergePrev_unchanged _ merged.address (Or.inr (by rw [below, prevNode]; exact busy)),
        absorbPrev_busy front rest prev merged busy]
      exact upward.linked
    · have free : prev.allocated = false := by simpa using busy
      rw [absorbPrev_free front rest prev merged free]
      exact mergePrev_linked _ front rest prev merged (by simpa using upward.spaced)
        (by simpa using upward.linked) free

/-- In a coalesced list the block above a free one is allocated. -/
theorem Coalesced.above {before after : List Block} {chunk : Block}
    (coalesced : Coalesced (before ++ chunk :: after)) (free : chunk.allocated = false) :
    ∀ next ∈ after.head?, next.allocated = true := by
  intro next first
  have suffix := (List.isChain_append.mp coalesced).2.1
  have adjacent := (List.isChain_cons.mp suffix).1 next first
  simpa [free] using adjacent

/-- In a coalesced list the block below a free one is allocated. -/
theorem Coalesced.below {front after : List Block} {prev chunk : Block}
    (coalesced : Coalesced (front ++ [prev] ++ chunk :: after)) (free : chunk.allocated = false) :
    prev.allocated = true := by
  have adjacent := (List.isChain_append.mp coalesced).2.2 prev (by simp) chunk rfl
  simpa [free] using adjacent

/-- Releasing the block that was carved from a chunk of a coalesced heap gives the
blocks before the carving. -/
theorem release_taken (before after : List Block) (chunk : Block) (request : Word)
    (coalesced : Coalesced (before ++ chunk :: after)) (free : chunk.allocated = false) :
    release before (taken chunk request) (spare chunk request ++ after) =
      before ++ chunk :: after := by
  have upward : absorbNext { taken chunk request with allocated := false }
      (spare chunk request ++ after) = chunk :: after := by
    obtain ⟨address, size, allocated⟩ := chunk
    cases free
    by_cases room : request + sizeofMemoryChunk < size
    · -- The sizes and the header add up to the size before the split.
      simp [taken, spare, room, absorbNext, remainder]
    · have above := coalesced.above rfl
      cases after with
      | nil => simp [taken, spare, room, absorbNext]
      | cons next rest =>
        have busy : next.allocated = true := above next rfl
        simp [taken, spare, room, absorbNext, busy]
  rw [release, upward]
  rcases List.eq_nil_or_concat' before with rfl | ⟨front, prev, rfl⟩
  · rfl
  · exact absorbPrev_busy front after prev chunk (coalesced.below free)

/-- Freeing what was carved from a free chunk of a coalesced heap restores the list
of chunks: every chunk has its address, size, flag and links again. -/
theorem kfree_undoes_allocate (first size : Word) (head : Address) (memory : Memory)
    (before after : List Block) (chunk : Block) (request : Word)
    (heap : Represents first size head memory (before ++ chunk :: after))
    (coalesced : Coalesced (before ++ chunk :: after)) (free : chunk.allocated = false)
    (fits : request < chunk.size) :
    let carved := allocate chunk.address request memory
    Represents first size head (kfree carved.1 carved.2) (before ++ chunk :: after) ∧
      ∀ block ∈ before ++ chunk :: after,
        chunkAt (kfree carved.1 carved.2) block.address = chunkAt memory block.address := by
  obtain ⟨returned, represented, address, -, -, exact⟩ :=
    carve_sound first size head memory before after chunk request heap fits
  have payload : (allocate chunk.address request memory).1 = (taken chunk request).payload := by
    rw [returned, Block.payload, Block.payload, address]
  have proper : (taken chunk request).payload ≠ 0 := by
    rw [Block.payload, address]
    intro null
    have low := exact.returned
    rw [null] at low
    change 0 = 13 + chunk.address.toNat at low
    omega
  have linked := kfree_linked first size head _ before _ (taken chunk request) represented proper
  rw [release_taken before after chunk request coalesced free, ← payload] at linked
  refine ⟨⟨heap.positive, heap.bounded, heap.entered, heap.tiled, linked⟩, ?_⟩
  intro block member
  exact linked_agree Block.address Block.header (chunkAt memory) _ _ 0 0 heap.linked linked block
    member

/-- Memory with three blocks of nineteen bytes. -/
def tripleMemory (lower middle upper : Bool) : Memory :=
  let memory := carve 0x1020 19 (carve 0x1000 19 (construct 0x1000 96 fun _ => 0).2)
  setAllocated (setAllocated (setAllocated memory 0x1000 lower) 0x1020 middle) 0x1040 upper

def tripleBlocks (lower middle upper : Bool) : List Block :=
  [⟨0x1000, 19, lower⟩, ⟨0x1020, 19, middle⟩, ⟨0x1040, 19, upper⟩]

theorem triple_represents (lower middle upper : Bool) :
    Represents 0x1000 96 0x1000 (tripleMemory lower middle upper)
      (tripleBlocks lower middle upper) := by
  refine ⟨by decide, by decide, rfl, ⟨rfl, rfl, rfl, rfl⟩, ?_, ?_, ?_, trivial⟩
  · cases lower <;> cases middle <;> cases upper <;> decide
  · cases lower <;> cases middle <;> cases upper <;> decide
  · cases lower <;> cases middle <;> cases upper <;> decide

/-- Five bytes are carved from the free one of three chunks, between two allocated ones,
and given back. -/
theorem kfree_undoes_allocate_between :
    let carved := allocate 0x1020 5 (tripleMemory true false true)
    Represents 0x1000 96 0x1000 (kfree carved.1 carved.2) (tripleBlocks true false true) ∧
      ∀ block ∈ tripleBlocks true false true,
        chunkAt (kfree carved.1 carved.2) block.address =
          chunkAt (tripleMemory true false true) block.address :=
  kfree_undoes_allocate 0x1000 96 0x1000 _ [⟨0x1000, 19, true⟩] [⟨0x1040, 19, true⟩]
    ⟨0x1020, 19, false⟩ 5 (triple_represents true false true)
    (.cons_cons (Or.inl rfl) (.cons_cons (Or.inr rfl) (.singleton _))) rfl (by decide)

/-- The allocated blocks other than the one at an address. -/
def otherAllocated (address : Address) (blocks : List Block) : List Block :=
  blocks.filter fun block => block.allocated && block.address != address

/-- What freeing the chunk between two lists of blocks leaves: a list entered at the
same head and linked both ways, without adjacent free blocks, in which the other
allocated blocks are the ones there were, in their order, and every free block was
free before or is the freed one. No allocated block is left at the address of the
chunk: it is free, or in the free block that was below it. -/
structure Reclaimed (head : Address) (memory : Memory) (before : List Block) (chunk : Block)
    (after blocks : List Block) : Prop where
  entered : head = entry Block.address blocks 0
  linked : Linked Block.address Block.header (chunkAt memory) 0 blocks 0
  coalesced : Coalesced blocks
  kept : otherAllocated chunk.address blocks = otherAllocated chunk.address (before ++ after)
  free : ∀ block ∈ blocks, block.allocated = false → block.address = chunk.address ∨
    ∃ old ∈ before ++ after, old.allocated = false ∧ old.address = block.address
  released : ∀ block ∈ blocks, block.address = chunk.address → block.allocated = false
  joined : ∃ block ∈ blocks, block.allocated = false ∧ (block.address = chunk.address ∨
    ∃ prev ∈ before.getLast?, prev.allocated = false ∧ block.address = prev.address)

/-- The freed block after the merge upward, with the blocks above it. -/
structure Merged (chunk : Block) (after : List Block) (merged : Block) (rest : List Block) :
    Prop where
  address : merged.address = chunk.address
  free : merged.allocated = false
  coalesced : Coalesced rest
  above : ∀ next ∈ rest.head?, next.allocated = true
  within : ∀ block ∈ rest, block ∈ after
  kept : otherAllocated chunk.address rest = otherAllocated chunk.address after

/-- The first merge leaves an allocated block, or none, above the freed one, and of
the blocks above it drops at most a free one. -/
theorem absorbNext_coalesced (chunk : Block) (after : List Block)
    (coalesced : Coalesced after) :
    ∃ merged rest, absorbNext { chunk with allocated := false } after = merged :: rest ∧
      Merged chunk after merged rest := by
  cases after with
  | nil =>
    refine ⟨_, [], rfl, ?_⟩
    exact ⟨rfl, rfl, coalesced, by simp, by simp, rfl⟩
  | cons next rest =>
    by_cases busy : next.allocated = true
    · refine ⟨{ chunk with allocated := false }, next :: rest,
        by simp only [absorbNext, busy, if_true], ?_⟩
      exact ⟨rfl, rfl, coalesced, by simp [busy], by simp, rfl⟩
    · have free : next.allocated = false := by simpa using busy
      refine ⟨⟨chunk.address, chunk.size + (sizeofMemoryChunk + next.size), false⟩, rest,
        by simp only [absorbNext, free, Bool.false_eq_true, if_false], ?_⟩
      constructor
      · rfl
      · rfl
      · exact List.IsChain.tail coalesced
      · exact @Coalesced.above [] rest next coalesced free
      · exact fun block member => List.mem_cons_of_mem next member
      · simp only [otherAllocated, List.filter_cons, free, Bool.false_and, Bool.false_eq_true,
          if_false]

/-- Putting a free block between two coalesced lists that meet it with allocated
blocks. -/
theorem coalesced_around (before after : List Block) (block : Block)
    (front : Coalesced before) (back : Coalesced after)
    (below : ∀ prev ∈ before.getLast?, prev.allocated = true)
    (above : ∀ next ∈ after.head?, next.allocated = true) :
    Coalesced (before ++ block :: after) := by
  refine List.isChain_append.mpr ⟨front, List.isChain_cons.mpr ⟨?_, back⟩, ?_⟩
  · intro next first
    exact Or.inr (above next first)
  · intro prev last next first
    exact Or.inl (below prev last)

section releasing

variable (head : Address) (memory : Memory) (before after rest : List Block) (chunk merged : Block)
  (result : Merged chunk after merged rest)
  (other : ∀ block ∈ before ++ after, block.address ≠ chunk.address)
include result

/-- Free blocks from the merged one on were free before, or are the freed one. -/
theorem Merged.unused (block : Block) (member : block ∈ merged :: rest)
    (free : block.allocated = false) :
    block.address = chunk.address ∨
      ∃ old ∈ before ++ after, old.allocated = false ∧ old.address = block.address := by
  rcases List.mem_cons.mp member with rfl | later
  · exact Or.inl result.address
  · exact Or.inr ⟨block, List.mem_append_right before (result.within block later), free, rfl⟩

include other in
/-- No other block is at the address of the freed one. -/
theorem Merged.only (block : Block) (member : block ∈ before ∨ block ∈ merged :: rest)
    (here : block.address = chunk.address) : block.allocated = false := by
  rcases member with earlier | later
  · exact absurd here (other block (List.mem_append_left after earlier))
  · rcases List.mem_cons.mp later with rfl | beyond
    · exact result.free
    · exact absurd here (other block (List.mem_append_right before (result.within block beyond)))

theorem Merged.others :
    otherAllocated chunk.address (merged :: rest) = otherAllocated chunk.address after := by
  rw [← result.kept]
  simp only [otherAllocated, List.filter_cons, result.free, Bool.false_and, Bool.false_eq_true,
    if_false]

include other in
/-- No free block is below. -/
theorem reclaimed_above (entered : head = entry Block.address (before ++ chunk :: after) 0)
    (coalesced : Coalesced before) (below : ∀ prev ∈ before.getLast?, prev.allocated = true)
    (linked : Linked Block.address Block.header (chunkAt memory) 0 (before ++ merged :: rest) 0) :
    Reclaimed head memory before chunk after (before ++ merged :: rest) := by
  constructor
  · simp only [entered, entry_append, entry_cons, result.address]
  · exact linked
  · exact coalesced_around before rest merged coalesced result.coalesced below result.above
  · have others := result.others
    simp only [otherAllocated, List.filter_append] at others ⊢
    rw [others]
  · intro block member free
    rcases List.mem_append.mp member with earlier | later
    · exact Or.inr ⟨block, List.mem_append_left after earlier, free, rfl⟩
    · exact result.unused before after rest chunk merged block later free
  · intro block member here
    exact result.only before after rest chunk merged other block (List.mem_append.mp member) here
  · exact ⟨merged, by simp, result.free, Or.inl result.address⟩

/-- The block below is free and takes in the merged one. -/
theorem reclaimed_absorbed (prev : Block) (free : prev.allocated = false) (size : Word)
    (other : ∀ block ∈ before ++ [prev] ++ after, block.address ≠ chunk.address)
    (entered : head = entry Block.address (before ++ [prev] ++ chunk :: after) 0)
    (coalesced : Coalesced (before ++ [prev]))
    (linked : Linked Block.address Block.header (chunkAt memory) 0
      (before ++ { prev with size := size } :: rest) 0) :
    Reclaimed head memory (before ++ [prev]) chunk after
      (before ++ { prev with size := size } :: rest) := by
  obtain ⟨deepCoalesced, -, seam⟩ := List.isChain_append.mp coalesced
  constructor
  · simp only [entered, entry_append, entry_cons]
  · exact linked
  · refine coalesced_around before rest _ deepCoalesced result.coalesced ?_ result.above
    intro block last
    simpa [free] using seam block last prev rfl
  · have others := result.kept
    simp only [otherAllocated, List.filter_append, List.filter_cons, List.filter_nil, free,
      Bool.false_and, Bool.false_eq_true, if_false, List.append_nil] at others ⊢
    rw [others]
  · intro block member hole
    rcases List.mem_append.mp member with earlier | later
    · exact Or.inr ⟨block, by simp [earlier], hole, rfl⟩
    · rcases List.mem_cons.mp later with rfl | beyond
      · exact Or.inr ⟨prev, by simp, free, rfl⟩
      · exact result.unused (before ++ [prev]) after rest chunk merged block
          (List.mem_cons_of_mem merged beyond) hole
  · intro block member here
    rcases List.mem_append.mp member with earlier | later
    · exact absurd here (other block (by simp [earlier]))
    · rcases List.mem_cons.mp later with rfl | beyond
      · exact free
      · exact absurd here (other block (by simp [result.within block beyond]))
  · exact ⟨{ prev with size := size }, by simp, free, Or.inr ⟨prev, by simp, free, rfl⟩⟩

end releasing

/-- Releasing a block of a coalesced list keeps it coalesced, keeps every other
allocated block and frees no other one. -/
theorem release_reclaimed (head : Address) (memory : Memory) (before after : List Block)
    (chunk : Block) (entered : head = entry Block.address (before ++ chunk :: after) 0)
    (coalesced : Coalesced (before ++ chunk :: after))
    (other : ∀ block ∈ before ++ after, block.address ≠ chunk.address)
    (linked : Linked Block.address Block.header (chunkAt memory) 0 (release before chunk after) 0) :
    Reclaimed head memory before chunk after (release before chunk after) := by
  obtain ⟨frontCoalesced, backCoalesced, -⟩ := List.isChain_append.mp coalesced
  obtain ⟨merged, rest, shape, result⟩ :=
    absorbNext_coalesced chunk after (List.IsChain.tail backCoalesced)
  rw [release, shape] at linked ⊢
  rcases List.eq_nil_or_concat' before with rfl | ⟨front, prev, rfl⟩
  · exact reclaimed_above head memory [] after rest chunk merged result other entered .nil
      (by simp) linked
  · by_cases busy : prev.allocated = true
    · rw [absorbPrev_busy front rest prev merged busy] at linked ⊢
      exact reclaimed_above head memory _ after rest chunk merged result other entered
        frontCoalesced (by simp [busy]) linked
    · have free : prev.allocated = false := by simpa using busy
      rw [absorbPrev_free front rest prev merged free] at linked ⊢
      exact reclaimed_absorbed head memory front after rest chunk merged result prev free _ other
        entered frontCoalesced linked

/-- No other block of a represented heap is at the address of a chunk. -/
theorem elsewhere {first size : Word} {head : Address} {memory : Memory}
    {before after : List Block} {chunk : Block}
    (heap : Represents first size head memory (before ++ chunk :: after)) :
    ∀ block ∈ before ++ after, block.address ≠ chunk.address := by
  intro block member same
  have apart := heap.spaced.around block member
  rw [same, Apart] at apart
  simp at apart

end BlueOs.Reclaiming
