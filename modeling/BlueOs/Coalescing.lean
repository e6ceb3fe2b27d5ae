import BlueOs.HeapInvariant

/-!
# Freeing and the heap invariant

`kfree` marks a block free, absorbs a free block above it and is absorbed by a
free block below it. Each step is related to an operation on blocks, and the
tiling of the arena is then a matter of adding extents.

Freeing a block below which no free block lies keeps the invariant. When the
block below is free, the source assigns its size instead of adding to it, and the
invariant survives exactly when that size was zero.
-/

namespace BlueOs.Coalescing

open ByteMemory Tiling LinkedNodes MemoryManager HeapInvariant

/-- Two adjacent blocks become one: the left header gets a size and the right
one's next address, and the block after them is linked back to the left. Both
merges of the source make these three assignments; they differ in the size. -/
def absorb (memory : Memory) (left next : Address) (size : Word) : Memory :=
  relink (setNext (setSize memory left size) left next) next left

theorem absorb_linked (memory : Memory) (before after : List Block) (left right : Block)
    (size : Word) (spaced : Spaced (before ++ left :: right :: after))
    (linked : Linked Block.address Block.header (chunkAt memory) 0
      (before ++ left :: right :: after) 0) :
    Linked Block.address Block.header
      (chunkAt (absorb memory left.address (entry Block.address after 0) size)) 0
      (before ++ { left with size := size } :: after) 0 := by
  have around := spaced.around
  have tailSpaced : Spaced after := (spaced.suffix).tail.tail
  have back := ((linked_append Block.address Block.header (chunkAt memory) before
    (left :: right :: after) 0 0).mp linked).2
  let next : Address := entry Block.address after 0
  let sized : Memory := setNext (setSize memory left.address size) left.address next
  have within : ∀ other, Apart left.address other → chunkAt sized other = chunkAt memory other := by
    intro other apart
    have second := chunkAt_frame left.address other _ sized
      (setNext_within (setSize memory left.address size) left.address next) apart
    exact second.trans (chunkAt_frame left.address other memory _
      (setSize_within memory left.address size) apart)
  have sizedTail : Linked Block.address Block.header (chunkAt sized) right.address after 0 := by
    refine linked_congr Block.address Block.header (chunkAt memory) _ after right.address 0 ?_
      back.2.2
    intro other member
    exact within other.address (around other (by simp [member]))
  have newTail : Linked Block.address Block.header
      (chunkAt (relink sized next left.address)) left.address after 0 :=
    relink_linked sized after right.address left.address tailSpaced sizedTail
  have node : chunkAt (relink sized next left.address) left.address =
      Block.header { left with size := size } next (exit Block.address 0 before) := by
    rw [relink_frame sized after left.address left.address]
    · simp only [sized, chunkAt_setNext, chunkAt_setSize, back.1, Block.header]
    · intro other member
      exact (around other (by simp [member])).symm
  refine linked_replace Block.address Block.header (chunkAt memory) _ before
    (left :: right :: after) ({ left with size := size } :: after) 0 0 linked ?_ rfl
    ⟨node, newTail⟩
  intro other member
  have first : chunkAt (relink sized next left.address) other.address =
      chunkAt sized other.address := by
    apply relink_frame
    intro block later
    have pairs := (List.pairwise_append.mp spaced.apart).2.2
    exact (pairs other member block (by simp [later])).symm
  exact first.trans (within other.address (around other (List.mem_append_left _ member)))

/-- A free next block is absorbed with the sum of the sizes. -/
theorem mergeNext_linked (memory : Memory) (before after : List Block) (chunk next : Block)
    (spaced : Spaced (before ++ chunk :: next :: after))
    (linked : Linked Block.address Block.header (chunkAt memory) 0
      (before ++ chunk :: next :: after) 0) (free : next.allocated = false) :
    Linked Block.address Block.header (chunkAt (mergeNext chunk.address memory)) 0
      (before ++ { chunk with size := chunk.size + (sizeofMemoryChunk + next.size) } :: after) 0 := by
  have node := linked_node memory before (next :: after) chunk 0 0 linked
  have nextNode : chunkAt memory next.address =
      next.header (entry Block.address after 0) chunk.address :=
    ((linked_append Block.address Block.header (chunkAt memory) before _ 0 0).mp linked).2.2.1
  have proper : next.address ≠ 0 := spaced.proper next (by simp)
  have apart : Apart chunk.address next.address := spaced.around next (by simp)
  have sized (value : Word) : chunkAt (setSize memory chunk.address value) next.address =
      chunkAt memory next.address :=
    chunkAt_frame chunk.address next.address memory _
      (setSize_within memory chunk.address value) apart
  have merged : mergeNext chunk.address memory =
      absorb memory chunk.address (entry Block.address after 0)
        (chunk.size + (sizeofMemoryChunk + next.size)) := by
    simp only [mergeNext, absorb, relink, node, nextNode, Block.header, entry_cons, ne_eq, proper,
      free, not_false_eq_true, and_self, if_true, chunkAt_setSize, chunkAt_setNext, sized]
  rw [merged]
  exact absorb_linked memory before after chunk next _ spaced linked

/-- Without a free next block the first merge does nothing. -/
theorem mergeNext_unchanged (memory : Memory) (before after : List Block) (chunk : Block)
    (linked : Linked Block.address Block.header (chunkAt memory) 0 (before ++ chunk :: after) 0)
    (busy : ∀ next ∈ after.head?, next.allocated = true) :
    mergeNext chunk.address memory = memory := by
  have node := linked_node memory before after chunk 0 0 linked
  cases after with
  | nil => simp [mergeNext, node, Block.header]
  | cons next rest =>
    have nextNode : chunkAt memory next.address =
        next.header (entry Block.address rest 0) chunk.address :=
      ((linked_append Block.address Block.header (chunkAt memory) before _ 0 0).mp linked).2.2.1
    have nextBusy : next.allocated = true := busy next (by simp)
    simp [mergeNext, node, nextNode, Block.header, nextBusy]

/-- A free previous block absorbs this one, and its size becomes this one's size
and a header: its own size is lost. -/
theorem mergePrev_linked (memory : Memory) (before after : List Block) (prev chunk : Block)
    (spaced : Spaced (before ++ prev :: chunk :: after))
    (linked : Linked Block.address Block.header (chunkAt memory) 0
      (before ++ prev :: chunk :: after) 0) (free : prev.allocated = false) :
    Linked Block.address Block.header (chunkAt (mergePrev chunk.address memory)) 0
      (before ++ { prev with size := sizeofMemoryChunk + chunk.size } :: after) 0 := by
  have prevNode := linked_node memory before (chunk :: after) prev 0 0 linked
  have node : chunkAt memory chunk.address =
      chunk.header (entry Block.address after 0) prev.address :=
    ((linked_append Block.address Block.header (chunkAt memory) before _ 0 0).mp linked).2.2.1
  have proper : prev.address ≠ 0 := spaced.proper prev (by simp)
  have apart : Apart prev.address chunk.address := spaced.around chunk (by simp)
  have sized (value : Word) : chunkAt (setSize memory prev.address value) chunk.address =
      chunkAt memory chunk.address :=
    chunkAt_frame prev.address chunk.address memory _
      (setSize_within memory prev.address value) apart
  have nexted (earlier : Memory) (value : Address) :
      chunkAt (setNext earlier prev.address value) chunk.address =
        chunkAt earlier chunk.address :=
    chunkAt_frame prev.address chunk.address earlier _
      (setNext_within earlier prev.address value) apart
  have merged : mergePrev chunk.address memory =
      absorb memory prev.address (entry Block.address after 0)
        (sizeofMemoryChunk + chunk.size) := by
    simp only [mergePrev, absorb, relink, node, prevNode, Block.header, ne_eq, proper,
      free, not_false_eq_true, and_self, if_true, sized, nexted]
  rw [merged]
  exact absorb_linked memory before after prev chunk _ spaced linked

/-- Without a free previous block the second merge does nothing. -/
theorem mergePrev_unchanged (memory : Memory) (chunk : Address)
    (busy : (chunkAt memory chunk).prev = 0 ∨
      (chunkAt memory (chunkAt memory chunk).prev).allocated = true) :
    mergePrev chunk memory = memory := by
  rcases busy with null | allocated
  · simp [mergePrev, null]
  · simp [mergePrev, allocated]

/-- Joining two adjacent blocks keeps a tiling when their extents are added. -/
theorem tiles_join (before after : List Block) (left right joined : Block) (first stop : Nat)
    (tiled : Tiles Block.position Block.extent first (before ++ left :: right :: after) stop)
    (address : joined.address = left.address)
    (added : joined.extent = left.extent + right.extent) :
    Tiles Block.position Block.extent first (before ++ joined :: after) stop := by
  obtain ⟨seam, front, starts, _, rest⟩ := (tiles_append _ _ _ _ _ _).mp tiled
  refine (tiles_append _ _ _ _ _ _).mpr ⟨seam, front, ?_, ?_⟩
  · simpa only [Block.position, address] using starts
  · rw [added, ← Nat.add_assoc]
    exact rest

/-- Two adjacent blocks of a tiling that ends by 2^32 have room for the sum of
their extents, so their sizes and one header add without wrapping. -/
theorem joined_size (before after : List Block) (left right : Block) (first stop : Nat)
    (bounded : stop ≤ 2 ^ 32)
    (tiled : Tiles Block.position Block.extent first (before ++ left :: right :: after) stop) :
    (left.size + (sizeofMemoryChunk + right.size)).toNat =
      left.size.toNat + 13 + right.size.toNat ∧
      (sizeofMemoryChunk + right.size).toNat = 13 + right.size.toNat := by
  obtain ⟨seam, front, starts, next, rest⟩ := (tiles_append _ _ _ _ _ _).mp tiled
  have ordered := tiles_ordered _ _ _ _ _ rest
  simp only [Block.extent] at ordered
  constructor <;> simp only [sizeofMemoryChunk] <;> bv_omega

/-- What the first merge means on blocks. -/
def absorbNext (chunk : Block) : List Block → List Block
  | [] => [chunk]
  | next :: rest =>
    if next.allocated then chunk :: next :: rest
    else { chunk with size := chunk.size + (sizeofMemoryChunk + next.size) } :: rest

/-- The first merge keeps the freed chunk's address and flag. -/
theorem absorbNext_shape (chunk : Block) (after : List Block) :
    ∃ merged rest, absorbNext chunk after = merged :: rest ∧
      merged.address = chunk.address ∧ merged.allocated = chunk.allocated := by
  cases after with
  | nil => exact ⟨chunk, [], rfl, rfl, rfl⟩
  | cons next rest =>
    by_cases busy : next.allocated = true
    · exact ⟨chunk, next :: rest, by simp [absorbNext, busy], rfl, rfl⟩
    · exact ⟨{ chunk with size := chunk.size + (sizeofMemoryChunk + next.size) }, rest,
        by simp [absorbNext, busy], rfl, rfl⟩

/-- The first merge keeps the invariant, whatever the next block is. -/
theorem mergeNext_represents (first size : Word) (head : Address) (memory : Memory)
    (before after : List Block) (chunk : Block)
    (heap : Represents first size head memory (before ++ chunk :: after)) :
    Represents first size head (mergeNext chunk.address memory)
      (before ++ absorbNext chunk after) := by
  cases after with
  | nil =>
    rw [mergeNext_unchanged memory before [] chunk heap.linked (by simp)]
    exact heap
  | cons next rest =>
    by_cases busy : next.allocated = true
    · rw [mergeNext_unchanged memory before (next :: rest) chunk heap.linked (by simp [busy])]
      simpa [absorbNext, busy] using heap
    · have free : next.allocated = false := by simpa using busy
      have sum := (joined_size before rest chunk next _ _ heap.bounded heap.tiled).1
      simp only [absorbNext, free, Bool.false_eq_true, if_false]
      refine ⟨heap.positive, heap.bounded, ?_, ?_, ?_⟩
      · rw [heap.entered, entry_append, entry_append]
        rfl
      · refine tiles_join before rest chunk next _ _ _ heap.tiled rfl ?_
        simp only [Block.extent, sum]
        omega
      · exact mergeNext_linked memory before rest chunk next heap.spaced heap.linked free

/-- Two lists that tile up to the same stop and are entered at the same address
start at the same coordinate. -/
theorem tiles_entered (left right : List Block) (leftFirst rightFirst stop : Nat)
    (leftProper : ∀ block ∈ left, block.address ≠ 0)
    (rightProper : ∀ block ∈ right, block.address ≠ 0)
    (leftTiled : Tiles Block.position Block.extent leftFirst left stop)
    (rightTiled : Tiles Block.position Block.extent rightFirst right stop)
    (same : entry Block.address left 0 = entry Block.address right 0) :
    leftFirst = rightFirst := by
  cases left with
  | nil =>
    cases right with
    | nil => exact leftTiled.trans rightTiled.symm
    | cons block rest => exact absurd same.symm (rightProper block List.mem_cons_self)
  | cons block rest =>
    cases right with
    | nil => exact absurd same (leftProper block List.mem_cons_self)
    | cons other tail =>
      have addresses : block.address = other.address := same
      rw [← leftTiled.1, ← rightTiled.1, Block.position, Block.position, addresses]

/-- A tiled list of blocks has one seam after a given front. -/
theorem tiles_seam (front : List Block) (first seam other : Nat)
    (left : Tiles Block.position Block.extent first front seam)
    (right : Tiles Block.position Block.extent first front other) : seam = other := by
  induction front generalizing first with
  | nil => exact left.symm.trans right
  | cons block rest inductionHypothesis => exact inductionHypothesis _ left.2 right.2

/-- A block is determined by its address and its header. -/
theorem header_determined (left right : Block) (leftNext rightNext prev : Address)
    (place : left.address = right.address)
    (headers : left.header leftNext prev = right.header rightNext prev) :
    left = right ∧ leftNext = rightNext := by
  obtain ⟨leftAddress, leftSize, leftFlag⟩ := left
  obtain ⟨rightAddress, rightSize, rightFlag⟩ := right
  simp only [Block.header, MemoryChunk.mk.injEq, true_and] at headers
  obtain ⟨rfl, rfl, rfl⟩ := headers
  obtain rfl : leftAddress = rightAddress := place
  exact ⟨rfl, rfl⟩

/-- Whatever blocks a memory stands for, they begin with the blocks that are linked from
its head on. -/
theorem represents_prefix (first size : Word) (head : Address) (memory : Memory)
    (front after blocks : List Block) (result : Represents first size head memory blocks)
    (proper : ∀ block ∈ front, block.address ≠ 0)
    (linked : Linked Block.address Block.header (chunkAt memory) 0 (front ++ after) 0)
    (entered : head = entry Block.address (front ++ after) 0) :
    ∃ rest, blocks = front ++ rest ∧
      entry Block.address rest 0 = entry Block.address after 0 := by
  have segment := (linked_append Block.address Block.header (chunkAt memory) front after 0 0).mp
    linked
  apply linked_prefix Block.address Block.header _ 0 header_determined front blocks 0 _ proper
    segment.1 result.linked
  rw [← result.entered, entered, entry_append]

/-- A block put in place of two of a tiling, with the blocks after them entered as before,
extends over both. -/
theorem joined_extent (before after rest : List Block) (left right joined : Block)
    (first stop : Nat) (proper : ∀ block ∈ after, block.address ≠ 0)
    (newProper : ∀ block ∈ rest, block.address ≠ 0)
    (tiled : Tiles Block.position Block.extent first (before ++ left :: right :: after) stop)
    (newTiled : Tiles Block.position Block.extent first (before ++ joined :: rest) stop)
    (entered : entry Block.address rest 0 = entry Block.address after 0) :
    joined.extent = left.extent + right.extent := by
  obtain ⟨seam, front, _, _, tail⟩ := (tiles_append _ _ _ _ _ _).mp tiled
  obtain ⟨newSeam, newFront, _, newTail⟩ := (tiles_append _ _ _ _ _ _).mp newTiled
  have seams := tiles_seam before first newSeam seam newFront front
  have ends := tiles_entered rest after _ _ stop newProper proper newTail tail entered
  omega

/-- When the block below is free, the second merge leaves a well-formed heap
exactly when that block's size was zero.

If the size was zero, its extent was one header, which is what the assignment
adds. Conversely the links of the result determine its blocks up to the joined
one; the blocks after it are entered where they were, so the joined extent must
be the sum of the two. -/
theorem mergePrev_represents_iff (first size : Word) (head : Address) (memory : Memory)
    (before after : List Block) (prev chunk : Block)
    (heap : Represents first size head memory (before ++ prev :: chunk :: after))
    (free : prev.allocated = false) :
    WellFormed first size head (mergePrev chunk.address memory) ↔ prev.size = 0 := by
  let joined : Block := { prev with size := sizeofMemoryChunk + chunk.size }
  have linked : Linked Block.address Block.header (chunkAt (mergePrev chunk.address memory)) 0
      (before ++ joined :: after) 0 :=
    mergePrev_linked memory before after prev chunk heap.spaced heap.linked free
  have sum := (joined_size before after prev chunk _ _ heap.bounded heap.tiled).2
  constructor
  · rintro ⟨blocks, result⟩
    have proper : ∀ block ∈ before ++ [joined], block.address ≠ 0 := by
      intro block member
      rcases List.mem_append.mp member with earlier | here
      · exact heap.spaced.proper block (List.mem_append_left _ earlier)
      · rw [List.mem_singleton.mp here]
        exact heap.spaced.proper prev (by simp)
    have begins : head = entry Block.address (before ++ [joined] ++ after) 0 := by
      rw [heap.entered, List.append_assoc, entry_append, entry_append]
      rfl
    obtain ⟨rest, rfl, entered⟩ := represents_prefix first size head _ (before ++ [joined]) after
      blocks result proper
      (by simpa only [List.append_assoc, List.singleton_append] using linked) begins
    have newTiled := result.tiled
    rw [List.append_assoc] at newTiled
    have ends : joined.extent = prev.extent + chunk.extent :=
      joined_extent before after rest prev chunk joined _ _
        (fun block member => heap.spaced.proper block (by simp [member]))
        (fun block member => result.spaced.proper block (by simp [member])) heap.tiled newTiled
        entered
    have zero : prev.size.toNat = 0 := by
      simp only [Block.extent, joined] at ends
      omega
    exact BitVec.eq_of_toNat_eq zero
  · intro zero
    refine ⟨before ++ joined :: after, heap.positive, heap.bounded, ?_, ?_, linked⟩
    · rw [heap.entered, entry_append, entry_append]
      rfl
    · apply tiles_join before after prev chunk joined _ _ heap.tiled rfl
      simp only [Block.extent, joined, sum, zero]
      rfl

/-- The states in which `kfree` assigns no previous chunk's size, or assigns one
that was zero. It reads the headers before the call. -/
def NoSizeLost (memory : Memory) (ptr : Address) : Prop :=
  ptr = 0 ∨
    let prev := (chunkAt memory (ptr - sizeofMemoryChunk)).prev
    prev = 0 ∨ (chunkAt memory prev).allocated = true ∨ (chunkAt memory prev).size = 0

instance (memory : Memory) (ptr : Address) : Decidable (NoSizeLost memory ptr) :=
  inferInstanceAs (Decidable (_ ∨ _ ∨ _ ∨ _))

/-- The header of a block is found thirteen bytes below its payload. -/
@[simp] theorem payload_header (block : Block) :
    block.payload - sizeofMemoryChunk = block.address := by
  simp only [Block.payload, sizeofMemoryChunk]
  bv_omega

/-- No size is lost below the lowest block. -/
theorem noSizeLost_bottom (memory : Memory) (after : List Block) (chunk : Block)
    (linked : Linked Block.address Block.header (chunkAt memory) 0 (chunk :: after) 0) :
    NoSizeLost memory chunk.payload := by
  have bottom : (chunkAt memory chunk.address).prev = 0 := by
    rw [linked.1]
    rfl
  simp only [NoSizeLost, payload_header, bottom, true_or, or_true]

/-- Above another block, it is none if that one is allocated or empty. -/
theorem noSizeLost_iff (memory : Memory) (front after : List Block) (prev chunk : Block)
    (null : chunk.payload ≠ 0) (proper : prev.address ≠ 0)
    (linked : Linked Block.address Block.header (chunkAt memory) 0
      (front ++ prev :: chunk :: after) 0) :
    NoSizeLost memory chunk.payload ↔ prev.allocated = true ∨ prev.size = 0 := by
  have regrouped : Linked Block.address Block.header (chunkAt memory) 0
      ((front ++ [prev]) ++ chunk :: after) 0 := by
    simpa using linked
  have node := linked_node memory (front ++ [prev]) after chunk 0 0 regrouped
  have prevNode := linked_node memory front (chunk :: after) prev 0 0 linked
  have below : (chunkAt memory chunk.address).prev = prev.address := by
    rw [node]
    simp [Block.header, exit]
  simp only [NoSizeLost, null, payload_header, below, prevNode, proper, Block.header, false_or]

/-- Freeing a block of a well-formed heap leaves a well-formed heap over the same
arena exactly when no free previous block loses its size.

The flag and the merge upward keep the invariant always. What remains is the
merge downward of the block so obtained, whose previous block is the one the
header named before the call. -/
theorem kfree_wellFormed_iff (first size : Word) (head : Address) (memory : Memory)
    (before after : List Block) (chunk : Block)
    (heap : Represents first size head memory (before ++ chunk :: after)) :
    WellFormed first size head (kfree chunk.payload memory) ↔
      NoSizeLost memory chunk.payload := by
  by_cases null : chunk.payload = 0
  · simp only [kfree, NoSizeLost, null, if_true, true_or, iff_true]
    exact ⟨_, heap⟩
  have marked := mark_represents first size head memory before after chunk false heap
  have upward := mergeNext_represents first size head _ before after _ marked
  obtain ⟨merged, rest, shape, address, flag⟩ :=
    absorbNext_shape { chunk with allocated := false } after
  rw [shape] at upward
  have freed : kfree chunk.payload memory = mergePrev merged.address
      (mergeNext chunk.address (setAllocated memory chunk.address false)) := by
    simp only [kfree, null, if_false, payload_header, address]
  have mergedNode := linked_node _ before rest merged 0 0 upward.linked
  rw [freed]
  rcases List.eq_nil_or_concat' before with rfl | ⟨front, prev, rfl⟩
  · have bottom := noSizeLost_bottom memory after chunk heap.linked
    rw [mergePrev_unchanged _ merged.address (Or.inl (by rw [mergedNode]; rfl))]
    exact iff_of_true ⟨_, upward⟩ bottom
  · rw [List.append_assoc, List.singleton_append] at heap upward
    have proper : prev.address ≠ 0 := heap.spaced.proper prev (by simp)
    rw [noSizeLost_iff memory front after prev chunk null proper heap.linked]
    by_cases busy : prev.allocated = true
    · have mergedPrev : (chunkAt (mergeNext chunk.address
          (setAllocated memory chunk.address false)) merged.address).prev = prev.address := by
        rw [mergedNode]
        simp [Block.header, exit]
      have prevNode := linked_node _ front (merged :: rest) prev 0 0 upward.linked
      rw [mergePrev_unchanged _ merged.address (Or.inr (by
        rw [mergedPrev, prevNode]
        exact busy))]
      exact iff_of_true ⟨_, upward⟩ (Or.inl busy)
    · have free : prev.allocated = false := by simpa using busy
      rw [mergePrev_represents_iff first size head _ front rest prev merged upward free]
      simp [free]

/-- The constructor lays one free block over the arena. -/
theorem construct_represents (first size : Word) (memory : Memory) (positive : 0 < first.toNat)
    (room : sizeofMemoryChunk ≤ size) (bounded : first.toNat + size.toNat ≤ 2 ^ 32) :
    Represents first size (construct first size memory).1.head (construct first size memory).2
      [⟨first, size - sizeofMemoryChunk, false⟩] := by
  have large : ¬ size < sizeofMemoryChunk := BitVec.not_lt.mpr room
  simp only [sizeofMemoryChunk] at room
  refine ⟨positive, bounded, ?_, ⟨rfl, ?_⟩, ?_, trivial⟩
  · simp [construct, large]
  · simp only [Block.extent, sizeofMemoryChunk, Tiles]
    bv_omega
  · simp only [construct, large, if_false, chunkAt_setSize, chunkAt_setPrev, chunkAt_setNext,
      chunkAt_setAllocated]
    rfl

/-- The search loop of `kmalloc` requires a result before its first iteration, so
it ends at once without one: every request returns null and leaves memory alone. -/
theorem kmalloc_null (fuel : Nat) (manager : Manager) (size : Word) (memory : Memory) :
    kmalloc fuel manager size memory = some (0, memory) := by
  have stops : searchGuard ⟨manager.head, 0⟩ = false := by simp [searchGuard]
  simp only [kmalloc, FuelledLoop.run_done _ _ _ _ stops, if_true]

/-- The invariant under every operation. Construction and allocation keep it
always. Freeing null or the payload of an allocated block keeps it exactly when
no free previous block loses its size. -/
theorem invariant_exact (first size : Word) (memory : Memory) :
    (0 < first.toNat → sizeofMemoryChunk ≤ size → first.toNat + size.toNat ≤ 2 ^ 32 →
      WellFormed first size (construct first size memory).1.head
        (construct first size memory).2) ∧
    ∀ (head : Address) (blocks : List Block), Represents first size head memory blocks →
      (∀ (fuel : Nat) (request : Word), ∃ result,
        kmalloc fuel ⟨head⟩ request memory = some result ∧
          WellFormed first size head result.2) ∧
      ∀ ptr : Address,
        (ptr = 0 ∨ ∃ block ∈ blocks, block.allocated = true ∧ ptr = block.payload) →
          (WellFormed first size head (kfree ptr memory) ↔ NoSizeLost memory ptr) := by
  constructor
  · intro positive room bounded
    exact ⟨_, construct_represents first size memory positive room bounded⟩
  · intro head blocks heap
    constructor
    · intro fuel request
      exact ⟨(0, memory), kmalloc_null fuel ⟨head⟩ request memory, blocks, heap⟩
    · rintro ptr (rfl | ⟨block, member, _, rfl⟩)
      · simp only [kfree, NoSizeLost, if_true, true_or, iff_true]
        exact ⟨blocks, heap⟩
      · obtain ⟨before, after, rfl⟩ := List.append_of_mem member
        exact kfree_wellFormed_iff first size head memory before after block heap

/-- Two adjacent blocks with payloads of nineteen bytes, given their flags. -/
def pairMemory (lower upper : Bool) : Memory :=
  let memory := carve 0x1000 19 (construct 0x1000 64 fun _ => 0).2
  setAllocated (setAllocated memory 0x1000 lower) 0x1020 upper

def pairBlocks (lower upper : Bool) : List Block :=
  [⟨0x1000, 19, lower⟩, ⟨0x1020, 19, upper⟩]

theorem pair_represents (lower upper : Bool) :
    Represents 0x1000 64 0x1000 (pairMemory lower upper) (pairBlocks lower upper) := by
  refine ⟨by decide, by decide, rfl, ⟨rfl, rfl, rfl⟩, ?_, ?_, trivial⟩
  · cases lower <;> cases upper <;> decide
  · cases lower <;> cases upper <;> decide

/-- Freeing the upper of two allocated blocks keeps the heap well formed, and so
does building and allocating from a heap of the same arena. -/
theorem invariant_exact_allocated_pair :
    WellFormed 0x1000 64 (construct 0x1000 64 fun _ => 0).1.head
        (construct 0x1000 64 fun _ => 0).2 ∧
      WellFormed 0x1000 64 0x1000 (kfree 0x102d (pairMemory true true)) :=
  ⟨(invariant_exact 0x1000 64 _).1 (by decide) (by decide) (by decide),
    (((invariant_exact 0x1000 64 _).2 _ _ (pair_represents true true)).2 0x102d
      (Or.inr ⟨⟨0x1020, 19, true⟩, by decide, rfl, by decide⟩)).mpr (by decide)⟩

/-- Freeing the upper block when the lower one is free with a payload loses the
lower payload: the result is not a heap over the arena. -/
theorem kfree_loses_payload :
    Represents 0x1000 64 0x1000 (pairMemory false true) (pairBlocks false true) ∧
      ¬ WellFormed 0x1000 64 0x1000 (kfree 0x102d (pairMemory false true)) := by
  refine ⟨pair_represents false true, ?_⟩
  have exactly := kfree_wellFormed_iff 0x1000 64 0x1000 (pairMemory false true)
    [⟨0x1000, 19, false⟩] [] ⟨0x1020, 19, true⟩ (pair_represents false true)
  have payload : Block.payload ⟨0x1020, 19, true⟩ = 0x102d := by decide
  rw [payload] at exactly
  intro kept
  have safe : NoSizeLost (pairMemory false true) 0x102d := exactly.mp kept
  exact absurd safe (by decide)

end BlueOs.Coalescing
