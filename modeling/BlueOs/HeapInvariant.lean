import BlueOs.Library.LinkedNodes
import BlueOs.Library.Tiling
import BlueOs.MemoryManager

/-!
# The heap representation invariant

A well-formed heap is a list of blocks laid end to end over the arena, each with
its header in memory, linked in both directions. The blocks are the purpose of
the headers: what the list means without its pointers. The laws here say how a
change of one header, or of the link back from the next one, changes a linked
list; every operation of the allocator is a composition of these changes.
-/

namespace BlueOs.HeapInvariant

open ByteMemory Tiling LinkedNodes MemoryManager

/-- A chunk without its links. -/
structure Block where
  address : Address
  size : Word
  allocated : Bool
deriving DecidableEq

namespace Block

def position (block : Block) : Nat := block.address.toNat

/-- Header and payload together. -/
def extent (block : Block) : Nat := 13 + block.size.toNat

/-- The address `kmalloc` hands out for this block. -/
def payload (block : Block) : Address := sizeofMemoryChunk + block.address

/-- The header the block requires at its address. -/
def header (block : Block) (next prev : Address) : MemoryChunk where
  next := next
  prev := prev
  allocated := block.allocated
  size := block.size

end Block

/-- The blocks are exactly what is reached from the head by next, they tile the
arena `[first, first + size)`, and previous links are the inverse of next links. -/
structure Represents (first size : Word) (head : Address) (memory : Memory)
    (blocks : List Block) : Prop where
  positive : 0 < first.toNat
  bounded : first.toNat + size.toNat ≤ 2 ^ 32
  entered : head = entry Block.address blocks 0
  tiled : Tiles Block.position Block.extent first.toNat blocks (first.toNat + size.toNat)
  linked : Linked Block.address Block.header (chunkAt memory) 0 blocks 0

def WellFormed (first size : Word) (head : Address) (memory : Memory) : Prop :=
  ∃ blocks, Represents first size head memory blocks

/-- Addresses of a list of blocks whose headers share no byte and are not null. -/
structure Spaced (blocks : List Block) : Prop where
  apart : blocks.Pairwise fun left right => Apart left.address right.address
  proper : ∀ block ∈ blocks, block.address ≠ 0

/-- A tiling of an arena that avoids address zero and ends by 2^32 is spaced. -/
theorem tiling_spaced (blocks : List Block) (first stop : Nat) (positive : 0 < first)
    (bounded : stop ≤ 2 ^ 32)
    (tiled : Tiles Block.position Block.extent first blocks stop) : Spaced blocks := by
  have inside := piece_inside Block.position Block.extent blocks first stop tiled
  constructor
  · have separated := pieces_separated Block.position Block.extent blocks first stop tiled
    apply separated.imp_of_mem
    intro left right _ member order
    have room := (inside right member).2
    simp only [Block.position, Block.extent] at order room
    constructor <;> bv_omega
  · intro block member
    have above := (inside block member).1
    simp only [Block.position] at above
    bv_omega

theorem Represents.spaced {first size : Word} {head : Address} {memory : Memory}
    {blocks : List Block} (heap : Represents first size head memory blocks) : Spaced blocks :=
  tiling_spaced blocks _ _ heap.positive heap.bounded heap.tiled

/-- Headers of the blocks around one block are apart from its header. -/
theorem Spaced.around {before after : List Block} {block : Block}
    (spaced : Spaced (before ++ block :: after)) (other : Block)
    (member : other ∈ before ++ after) :
    Apart block.address other.address := by
  have pairs := List.pairwise_append.mp spaced.apart
  rcases List.mem_append.mp member with earlier | later
  · exact (pairs.2.2 other earlier block List.mem_cons_self).symm
  · exact (List.pairwise_cons.mp pairs.2.1).1 other later

theorem Spaced.tail {block : Block} {after : List Block} (spaced : Spaced (block :: after)) :
    Spaced after :=
  ⟨(List.pairwise_cons.mp spaced.apart).2,
    fun other member => spaced.proper other (List.mem_cons_of_mem block member)⟩

theorem Spaced.suffix {before after : List Block} (spaced : Spaced (before ++ after)) :
    Spaced after :=
  ⟨(List.pairwise_append.mp spaced.apart).2.1,
    fun other member => spaced.proper other (List.mem_append_right before member)⟩

/-- `if(next != 0) next->prev = prev`, which the source writes three times. -/
def relink (memory : Memory) (next prev : Address) : Memory :=
  if next ≠ 0 then setPrev memory next prev else memory

/-- Relinking the entry of a list changes no header apart from the list. -/
theorem relink_frame (memory : Memory) (after : List Block) (prev other : Address)
    (apart : ∀ block ∈ after, Apart block.address other) :
    chunkAt (relink memory (entry Block.address after 0) prev) other = chunkAt memory other := by
  cases after with
  | nil => simp [relink]
  | cons block rest =>
    by_cases null : block.address = 0
    · simp [relink, null]
    · simp only [relink, entry_cons, ne_eq, null, not_false_eq_true, if_true]
      exact chunkAt_frame block.address other memory _ (setPrev_within memory block.address prev)
        (apart block List.mem_cons_self)

/-- Relinking the entry of a linked list gives the list a new previous address. -/
theorem relink_linked (memory : Memory) (after : List Block) (old prev : Address)
    (spaced : Spaced after)
    (linked : Linked Block.address Block.header (chunkAt memory) old after 0) :
    Linked Block.address Block.header
      (chunkAt (relink memory (entry Block.address after 0) prev)) prev after 0 := by
  cases after with
  | nil => trivial
  | cons block rest =>
    obtain ⟨node, tail⟩ := linked
    have proper : block.address ≠ 0 := spaced.proper block List.mem_cons_self
    simp only [relink, entry_cons, ne_eq, proper, not_false_eq_true, if_true]
    refine ⟨by rw [chunkAt_setPrev, node, Block.header, Block.header], ?_⟩
    refine linked_congr Block.address Block.header (chunkAt memory) _ rest block.address 0 ?_ tail
    intro other member
    exact chunkAt_frame block.address other.address memory _
      (setPrev_within memory block.address prev)
      ((List.pairwise_cons.mp spaced.apart).1 other member)

/-- A change of one header to that of another block at the same address. -/
theorem linked_update (memory updated : Memory) (before after : List Block) (old new : Block)
    (prev next : Address) (same : new.address = old.address)
    (linked : Linked Block.address Block.header (chunkAt memory) prev (before ++ old :: after) next)
    (kept : ∀ other ∈ before ++ after, chunkAt updated other.address = chunkAt memory other.address)
    (node : chunkAt updated old.address =
      new.header (entry Block.address after next) (exit Block.address prev before)) :
    Linked Block.address Block.header (chunkAt updated) prev (before ++ new :: after) next := by
  have back := ((linked_append Block.address Block.header (chunkAt memory) before (old :: after)
    prev next).mp linked).2
  refine linked_replace Block.address Block.header (chunkAt memory) _ before (old :: after)
    (new :: after) prev next linked ?_ same ⟨by rw [same, node], ?_⟩
  · intro other member
    exact kept other (List.mem_append_left after member)
  · rw [same]
    refine linked_congr Block.address Block.header (chunkAt memory) _ after _ next ?_ back.2
    intro other member
    exact kept other (List.mem_append_right before member)

/-- The header of a block inside a linked list. -/
theorem linked_node (memory : Memory) (before after : List Block) (block : Block)
    (prev next : Address)
    (linked : Linked Block.address Block.header (chunkAt memory) prev
      (before ++ block :: after) next) :
    chunkAt memory block.address =
      block.header (entry Block.address after next) (exit Block.address prev before) :=
  ((linked_append Block.address Block.header (chunkAt memory) before (block :: after)
    prev next).mp linked).2.1

/-- Setting the flag of a block changes that flag and nothing else. -/
theorem mark_represents (first size : Word) (head : Address) (memory : Memory)
    (before after : List Block) (chunk : Block) (flag : Bool)
    (heap : Represents first size head memory (before ++ chunk :: after)) :
    Represents first size head (setAllocated memory chunk.address flag)
      (before ++ { chunk with allocated := flag } :: after) := by
  have around := heap.spaced.around
  have node := linked_node memory before after chunk 0 0 heap.linked
  refine ⟨heap.positive, heap.bounded, ?_, ?_, ?_⟩
  · rw [heap.entered, entry_append, entry_append]
    rfl
  · obtain ⟨seam, front, back⟩ := (tiles_append _ _ _ _ _ _).mp heap.tiled
    exact (tiles_append _ _ _ _ _ _).mpr ⟨seam, front, back⟩
  · refine linked_update memory _ before after chunk _ 0 0 rfl heap.linked ?_ ?_
    · intro other member
      exact chunkAt_frame chunk.address other.address memory _
        (setAllocated_within memory chunk.address flag) (around other member)
    · rw [chunkAt_setAllocated, node]
      rfl

end BlueOs.HeapInvariant
