import BlueOs.Coalescing

/-!
# Carving a block

What `kmalloc` does with the chunk its search found: it splits off the rest of a
chunk that has room for another header, and marks the chunk allocated. On blocks,
one block becomes one or two with the same extent together, so the tiling of the
arena is kept; in memory, one new header is written inside the old payload and the
block above is linked back to it.

Freeing a block that was carved from a heap without adjacent free blocks absorbs
exactly the rest that was split off, and restores the list of blocks.
-/

namespace BlueOs.Carving

open ByteMemory Tiling LinkedNodes MemoryManager HeapInvariant Coalescing

/-- `kmalloc` after its search. -/
def allocate (result : Address) (size : Word) (memory : Memory) : Address × Memory :=
  if result = 0 then (0, memory) else (sizeofMemoryChunk + result, carve result size memory)

/-- The allocator is its search followed by this part. -/
theorem kmalloc_allocate (fuel : Nat) (manager : Manager) (size : Word) (memory : Memory) :
    kmalloc fuel manager size memory =
      match FuelledLoop.run searchGuard (searchBody memory size) fuel ⟨manager.head, 0⟩ with
      | .interrupted _ => none
      | .finished search => some (allocate search.result size memory) := by
  rw [kmalloc]
  cases FuelledLoop.run searchGuard (searchBody memory size) fuel ⟨manager.head, 0⟩ with
  | interrupted search => rfl
  | finished search =>
    simp only [allocate]
    split <;> rfl

/-- The rest of a block after a request and a header of its own. -/
def remainder (chunk : Block) (request : Word) : Block where
  address := chunk.address + request + sizeofMemoryChunk
  size := chunk.size - request - sizeofMemoryChunk
  allocated := false

/-- The block handed out for a request. -/
def taken (chunk : Block) (request : Word) : Block :=
  if request + sizeofMemoryChunk < chunk.size then
    { chunk with size := request, allocated := true }
  else { chunk with allocated := true }

/-- The block split off, if any. -/
def spare (chunk : Block) (request : Word) : List Block :=
  if request + sizeofMemoryChunk < chunk.size then [remainder chunk request] else []

/-- The additions and subtractions of the carving do not wrap. -/
structure Unwrapped (chunk : Block) (request : Word) : Prop where
  needed : (request + sizeofMemoryChunk).toNat = request.toNat + 13
  returned : (sizeofMemoryChunk + chunk.address).toNat = 13 + chunk.address.toNat
  skipped : (chunk.address + request).toNat = chunk.address.toNat + request.toNat
  address : (chunk.address + request + sizeofMemoryChunk).toNat =
    chunk.address.toNat + request.toNat + 13
  left : (chunk.size - request).toNat + request.toNat = chunk.size.toNat
  size : request + sizeofMemoryChunk < chunk.size →
    (chunk.size - request - sizeofMemoryChunk).toNat + 13 = (chunk.size - request).toNat

/-- A block of an arena that ends by 2^32 bounds every intermediate value. -/
theorem unwrapped (first size : Word) (head : Address) (memory : Memory)
    (before after : List Block) (chunk : Block) (request : Word)
    (heap : Represents first size head memory (before ++ chunk :: after))
    (fits : request < chunk.size) : Unwrapped chunk request := by
  have inside := (piece_inside Block.position Block.extent _ _ _ heap.tiled chunk (by simp)).2
  have bounded := heap.bounded
  have positive := (piece_inside Block.position Block.extent _ _ _ heap.tiled chunk (by simp)).1
  have above := heap.positive
  have header : sizeofMemoryChunk = 13#32 := rfl
  simp only [Block.position, Block.extent] at inside positive
  constructor
  case size =>
    intro room
    bv_omega
  all_goals bv_omega

/-- Splitting one block of a tiling into two adjacent ones of the same extent. -/
theorem tiles_split (before after : List Block) (chunk left right : Block) (first stop : Nat)
    (tiled : Tiles Block.position Block.extent first (before ++ chunk :: after) stop)
    (address : left.address = chunk.address)
    (adjacent : right.position = left.position + left.extent)
    (added : left.extent + right.extent = chunk.extent) :
    Tiles Block.position Block.extent first (before ++ left :: right :: after) stop := by
  obtain ⟨seam, front, starts, rest⟩ := (tiles_append _ _ _ _ _ _).mp tiled
  have position : left.position = seam := by
    rw [← starts, Block.position, Block.position, address]
  refine (tiles_append _ _ _ _ _ _).mpr ⟨seam, front, position, ?_, ?_⟩
  · rw [adjacent, position]
  · rw [Nat.add_assoc, added]
    exact rest

/-- The four assignments to the header of a new chunk. -/
def writeHeader (memory : Memory) (chunk next prev : Address) (size : Word) : Memory :=
  setSize (setPrev (setNext (setAllocated memory chunk false) chunk next) chunk prev) chunk size

theorem chunkAt_writeHeader (memory : Memory) (chunk next prev : Address) (size : Word) :
    chunkAt (writeHeader memory chunk next prev size) chunk = ⟨next, prev, false, size⟩ := by
  simp only [writeHeader, chunkAt_setSize, chunkAt_setPrev, chunkAt_setNext, chunkAt_setAllocated]

theorem writeHeader_within (memory : Memory) (chunk next prev : Address) (size : Word) :
    WritesWithin chunk memory (writeHeader memory chunk next prev size) := by
  intro tested outside
  rw [writeHeader, setSize_within _ chunk size tested outside,
    setPrev_within _ chunk prev tested outside, setNext_within _ chunk next tested outside,
    setAllocated_within memory chunk false tested outside]

/-- The new size and next address of the chunk that is split. -/
def shorten (memory : Memory) (chunk next : Address) (size : Word) : Memory :=
  setSize (setNext memory chunk next) chunk size

theorem shorten_within (memory : Memory) (chunk next : Address) (size : Word) :
    WritesWithin chunk memory (shorten memory chunk next size) := by
  intro tested outside
  rw [shorten, setSize_within _ chunk size tested outside,
    setNext_within memory chunk next tested outside]

/-- The two headers that a split writes, before the block above is linked back. -/
theorem split_headers (memory : Memory) (chunk rest : Block) (next old prev : Address)
    (request : Word) (free : rest.allocated = false) (apart : Apart chunk.address rest.address)
    (node : chunkAt memory chunk.address = chunk.header old prev) :
    chunkAt (shorten (writeHeader memory rest.address next chunk.address rest.size) chunk.address
        rest.address request) chunk.address =
      Block.header { chunk with size := request } rest.address prev ∧
    chunkAt (shorten (writeHeader memory rest.address next chunk.address rest.size) chunk.address
        rest.address request) rest.address = rest.header next chunk.address := by
  have writes := writeHeader_within memory rest.address next chunk.address rest.size
  have shortens := shorten_within
    (writeHeader memory rest.address next chunk.address rest.size) chunk.address rest.address request
  constructor
  · have kept := chunkAt_frame rest.address chunk.address _ _ writes apart.symm
    simp only [shorten, chunkAt_setSize, chunkAt_setNext, kept, node, Block.header]
  · have kept := chunkAt_frame chunk.address rest.address _ _ shortens apart
    rw [kept]
    simp only [chunkAt_writeHeader, Block.header, free]

/-- Every other block keeps its header. -/
theorem split_frame (memory : Memory) (chunk rest : Block) (next other : Address) (request : Word)
    (chunkApart : Apart chunk.address other) (restApart : Apart rest.address other) :
    chunkAt (shorten (writeHeader memory rest.address next chunk.address rest.size) chunk.address
        rest.address request) other = chunkAt memory other := by
  have writes := writeHeader_within memory rest.address next chunk.address rest.size
  have shortens := shorten_within
    (writeHeader memory rest.address next chunk.address rest.size) chunk.address rest.address request
  exact (chunkAt_frame chunk.address other _ _ shortens chunkApart).trans
    (chunkAt_frame rest.address other _ _ writes restApart)

/-- Headers of the blocks around two adjacent ones are apart from both. -/
theorem around_two (before after : List Block) (lower upper : Block)
    (spaced : Spaced (before ++ lower :: upper :: after)) (other : Block)
    (member : other ∈ before ++ after) :
    Apart lower.address other.address ∧ Apart upper.address other.address := by
  have regrouped : Spaced ((before ++ [lower]) ++ upper :: after) := by
    simpa using spaced
  constructor
  · apply spaced.around other
    rcases List.mem_append.mp member with earlier | later
    · exact List.mem_append_left _ earlier
    · exact List.mem_append_right before (List.mem_cons_of_mem upper later)
  · apply regrouped.around other
    rcases List.mem_append.mp member with earlier | later
    · exact List.mem_append_left _ (List.mem_append_left _ earlier)
    · exact List.mem_append_right _ later

/-- The split in memory: a header for the rest, a shorter header for the chunk, and
the block above linked back to the rest. -/
theorem split_linked (memory : Memory) (before after : List Block) (chunk rest : Block)
    (request : Word) (free : rest.allocated = false)
    (spaced : Spaced (before ++ { chunk with size := request } :: rest :: after))
    (linked : Linked Block.address Block.header (chunkAt memory) 0 (before ++ chunk :: after) 0) :
    Linked Block.address Block.header
      (chunkAt (relink (shorten
          (writeHeader memory rest.address (entry Block.address after 0) chunk.address rest.size)
          chunk.address rest.address request)
        (entry Block.address after 0) rest.address)) 0
      (before ++ { chunk with size := request } :: rest :: after) 0 := by
  let next : Address := entry Block.address after 0
  let shortened : Memory := shorten
    (writeHeader memory rest.address next chunk.address rest.size) chunk.address rest.address request
  have around (other : Block) (member : other ∈ before ++ after) :
      Apart chunk.address other.address ∧ Apart rest.address other.address :=
    around_two before after { chunk with size := request } rest spaced other member
  have adjacent : Apart chunk.address rest.address := spaced.around rest (by simp)
  have back := ((linked_append Block.address Block.header (chunkAt memory) before
    (chunk :: after) 0 0).mp linked).2
  obtain ⟨chunkNode, restNode⟩ := split_headers memory chunk rest next _ _ request free
    adjacent back.1
  have elsewhere : ∀ other ∈ before ++ after,
      chunkAt shortened other.address = chunkAt memory other.address := by
    intro other member
    obtain ⟨chunkApart, restApart⟩ := around other member
    exact split_frame memory chunk rest next other.address request chunkApart restApart
  have tail : Linked Block.address Block.header (chunkAt shortened) chunk.address after 0 := by
    refine linked_congr Block.address Block.header (chunkAt memory) _ after chunk.address 0 ?_
      back.2
    intro other member
    exact elsewhere other (List.mem_append_right before member)
  have relinked : Linked Block.address Block.header
      (chunkAt (relink shortened next rest.address)) rest.address after 0 :=
    relink_linked shortened after chunk.address rest.address (spaced.suffix).tail.tail tail
  -- The block above is the only one whose link back changes.
  have unlinked (other : Address) (apart : ∀ block ∈ after, Apart block.address other) :
      chunkAt (relink shortened next rest.address) other = chunkAt shortened other :=
    relink_frame shortened after rest.address other apart
  refine linked_replace Block.address Block.header (chunkAt memory) _ before (chunk :: after)
    ({ chunk with size := request } :: rest :: after) 0 0 linked ?_ rfl ⟨?_, ?_, relinked⟩
  · intro other member
    rw [unlinked]
    · exact elsewhere other (List.mem_append_left after member)
    · intro block later
      have pairs := (List.pairwise_append.mp spaced.apart).2.2
      exact (pairs other member block (by simp [later])).symm
  · rw [unlinked]
    · exact chunkNode
    · intro block later
      exact (around block (List.mem_append_right before later)).1.symm
  · rw [unlinked]
    · exact restNode
    · intro block later
      exact (around block (List.mem_append_right before later)).2.symm

/-- The carving of a chunk with room for another header. -/
theorem carve_split (memory : Memory) (chunk : Block) (next prev : Address) (request : Word)
    (apart : Apart chunk.address (remainder chunk request).address)
    (room : request + sizeofMemoryChunk < chunk.size)
    (node : chunkAt memory chunk.address = chunk.header next prev) :
    carve chunk.address request memory =
      setAllocated (relink (shorten
          (writeHeader memory (remainder chunk request).address next chunk.address
            (remainder chunk request).size)
          chunk.address (remainder chunk request).address request)
        next (remainder chunk request).address) chunk.address true := by
  let rest : Address := (remainder chunk request).address
  have flagged : chunkAt (setAllocated memory rest false) chunk.address = chunk.header next prev :=
    (chunkAt_frame rest chunk.address memory _ (setAllocated_within memory rest false)
      apart.symm).trans node
  have nexted (value : Address) :
      chunkAt (setNext (setAllocated memory rest false) rest value) chunk.address =
        chunk.header next prev :=
    (chunkAt_frame rest chunk.address _ _ (setNext_within _ rest value) apart.symm).trans flagged
  have preved (value other : Address) :
      chunkAt (setPrev (setNext (setAllocated memory rest false) rest value) rest other)
        chunk.address = chunk.header next prev :=
    (chunkAt_frame rest chunk.address _ _ (setPrev_within _ rest other) apart.symm).trans
      (nexted value)
  have shortened (written : Memory) :
      chunkAt (setSize (setNext written chunk.address rest) chunk.address request) rest =
        chunkAt written rest :=
    chunkAt_frame chunk.address rest written _
      (shorten_within written chunk.address rest request) apart
  have fits : request + sizeofMemoryChunk < (chunk.header next prev).size := room
  rw [carve, node, if_pos fits]
  change setAllocated _ chunk.address true = _
  change chunkAt (setAllocated memory (chunk.address + request + sizeofMemoryChunk) false)
    chunk.address = _ at flagged
  simp only [rest, remainder] at nexted preved shortened
  simp only [flagged, preved, shortened, remainder, relink, shorten, writeHeader, chunkAt_setSize,
    chunkAt_setPrev, chunkAt_setNext, Block.header]

/-- Without that room the chunk is handed out whole. -/
theorem carve_whole (memory : Memory) (chunk : Block) (next prev : Address) (request : Word)
    (tight : ¬ request + sizeofMemoryChunk < chunk.size)
    (node : chunkAt memory chunk.address = chunk.header next prev) :
    carve chunk.address request memory = setAllocated memory chunk.address true := by
  have full : ¬ request + sizeofMemoryChunk < (chunk.header next prev).size := tight
  rw [carve, node, if_neg full]

/-- The carving of a chunk replaces its block by the one handed out and the spare
one, over the same arena. -/
theorem carve_represents (first size : Word) (head : Address) (memory : Memory)
    (before after : List Block) (chunk : Block) (request : Word)
    (heap : Represents first size head memory (before ++ chunk :: after))
    (fits : request < chunk.size) :
    Represents first size head (carve chunk.address request memory)
      (before ++ taken chunk request :: (spare chunk request ++ after)) := by
  have node := linked_node memory before after chunk 0 0 heap.linked
  by_cases room : request + sizeofMemoryChunk < chunk.size
  · have exact := unwrapped first size head memory before after chunk request heap fits
    have tiled : Tiles Block.position Block.extent first.toNat
        (before ++ { chunk with size := request } :: remainder chunk request :: after)
        (first.toNat + size.toNat) := by
      apply tiles_split before after chunk { chunk with size := request }
        (remainder chunk request) _ _ heap.tiled rfl
      · simp only [Block.position, Block.extent, remainder, exact.address]
        omega
      · have whole := exact.left
        have kept := exact.size room
        simp only [Block.extent, remainder]
        omega
    have spaced := tiling_spaced _ _ _ heap.positive heap.bounded tiled
    have apart := spaced.around (remainder chunk request) (by simp)
    rw [carve_split memory chunk _ _ request apart room node]
    simp only [taken, spare, room, if_true]
    refine mark_represents first size head _ before (remainder chunk request :: after)
      { chunk with size := request } true ⟨heap.positive, heap.bounded, ?_, tiled, ?_⟩
    · rw [heap.entered, entry_append, entry_append]
      rfl
    · exact split_linked memory before after chunk (remainder chunk request) request rfl spaced
        heap.linked
  · rw [carve_whole memory chunk _ _ request room node]
    simp only [taken, spare, room, if_false]
    exact mark_represents first size head memory before after chunk true heap

/-- Two ranges of bytes, given by their first byte and length, share no byte. -/
def Clear (start length other otherLength : Nat) : Prop :=
  start + length ≤ other ∨ other + otherLength ≤ start

/-- What the caller is promised of a payload, with the blocks around it. -/
structure Handed (first size request : Word) (block : Block) (others : List Block) : Prop where
  allocated : block.allocated = true
  enough : request ≤ block.size
  inside : first.toNat ≤ block.payload.toNat ∧
    block.payload.toNat + block.size.toNat ≤ first.toNat + size.toNat
  headers : ∀ other ∈ block :: others,
    Clear block.payload.toNat block.size.toNat other.position sizeofMemoryChunk.toNat
  payloads : ∀ other ∈ others,
    Clear block.payload.toNat block.size.toNat
      (other.position + sizeofMemoryChunk.toNat) other.size.toNat

/-- The payload of a block in a tiling is clear of everything else in it. -/
theorem represents_handed (first size : Word) (head : Address) (memory : Memory)
    (before after : List Block) (block : Block) (request : Word)
    (heap : Represents first size head memory (before ++ block :: after))
    (allocated : block.allocated = true) (enough : request ≤ block.size)
    (payload : block.payload.toNat = 13 + block.position) :
    Handed first size request block (before ++ after) := by
  have inside := piece_inside Block.position Block.extent _ _ _ heap.tiled block (by simp)
  have separated := pieces_separated Block.position Block.extent _ _ _ heap.tiled
  have pairs := List.pairwise_append.mp separated
  have header : sizeofMemoryChunk.toNat = 13 := rfl
  simp only [Block.extent] at inside
  -- Every other block ends before this one or starts after it.
  have around : ∀ other ∈ before ++ after, other.position + other.extent ≤ block.position ∨
      block.position + block.extent ≤ other.position := by
    intro other member
    rcases List.mem_append.mp member with earlier | later
    · exact Or.inl (pairs.2.2 other earlier block List.mem_cons_self)
    · exact Or.inr ((List.pairwise_cons.mp pairs.2.1).1 other later)
  refine ⟨allocated, enough, ?_, ?_, ?_⟩
  · omega
  · intro other member
    rcases List.mem_cons.mp member with rfl | elsewhere
    · exact Or.inr (by omega)
    · have apart := around other elsewhere
      simp only [Block.extent] at apart
      simp only [Clear]
      omega
  · intro other member
    have apart := around other member
    simp only [Block.extent] at apart
    simp only [Clear]
    omega

/-- Carving any chunk larger than the request returns its payload and leaves a
well-formed heap over the same arena. Every other block is the one it was, the
payload is large enough and clear of every header and every other payload, and no
addition or subtraction wraps. -/
theorem carve_sound (first size : Word) (head : Address) (memory : Memory)
    (before after : List Block) (chunk : Block) (request : Word)
    (heap : Represents first size head memory (before ++ chunk :: after))
    (fits : request < chunk.size) :
    (allocate chunk.address request memory).1 = chunk.payload ∧
      Represents first size head (allocate chunk.address request memory).2
        (before ++ taken chunk request :: (spare chunk request ++ after)) ∧
      (taken chunk request).address = chunk.address ∧
      (∀ block ∈ spare chunk request, block.allocated = false) ∧
      Handed first size request (taken chunk request) (before ++ (spare chunk request ++ after)) ∧
      Unwrapped chunk request := by
  have proper : chunk.address ≠ 0 := heap.spaced.proper chunk (by simp)
  have exact := unwrapped first size head memory before after chunk request heap fits
  have carved := carve_represents first size head memory before after chunk request heap fits
  have address : (taken chunk request).address = chunk.address := by
    simp only [taken]
    split <;> rfl
  have payload : (taken chunk request).payload.toNat = 13 + (taken chunk request).position := by
    rw [Block.payload, Block.position, address]
    exact exact.returned
  have allocated : (taken chunk request).allocated = true := by
    simp only [taken]
    split <;> rfl
  have enough : request ≤ (taken chunk request).size := by
    simp only [taken]
    split
    · exact BitVec.le_refl request
    · exact BitVec.le_of_lt fits
  simp only [allocate, proper, if_false]
  refine ⟨rfl, carved, address, ?_, ?_, exact⟩
  · intro block member
    simp only [spare] at member
    split at member
    · rw [List.mem_singleton.mp member]
      rfl
    · cases member
  · exact represents_handed first size head _ before _ _ request carved allocated enough payload

/-- Carving nineteen bytes from a new heap of 64 bytes. -/
theorem carve_sound_new_heap :
    (allocate 0x1000 19 (construct 0x1000 64 fun _ => 0).2).1 = Block.payload ⟨0x1000, 51, false⟩ ∧
      Represents 0x1000 64 0x1000 (allocate 0x1000 19 (construct 0x1000 64 fun _ => 0).2).2
        [⟨0x1000, 19, true⟩, ⟨0x1020, 19, false⟩] := by
  have sound := carve_sound 0x1000 64 0x1000 _ [] [] ⟨0x1000, 51, false⟩ 19
    (construct_represents 0x1000 64 (fun _ => 0) (by decide) (by decide) (by decide)) (by decide)
  exact ⟨sound.1, sound.2.1⟩

end BlueOs.Carving
