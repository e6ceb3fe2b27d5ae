import BlueOs.Library.LatestWrites
import BlueOs.Library.Runs
import BlueOs.Reclaiming

/-!
# Payloads belong to their clients

Clients take chunks, free them and store into the payloads they hold, in any order. The
allocator writes to headers and to payloads that nobody holds. So as long as no freeing
loses the size of a block, a block that is never freed stays where it is, and every byte
of its payload is the one stored to it last.
-/

namespace BlueOs.HeapClients

open ByteMemory Tiling LinkedNodes MemoryManager HeapInvariant Coalescing Carving Reclaiming

/-- What clients do. A chunk is taken by `kmalloc` after its search. -/
inductive Event where
  | allocate (chunk : Address) (request : Word)
  | free (ptr : Address)
  | store (address : Address) (value : Byte)
deriving DecidableEq

def step (memory : Memory) : Event → Option Memory
  | .allocate chunk request => some (allocate chunk request memory).2
  | .free ptr => some (kfree ptr memory)
  | .store address value => some (store8 memory address value)

/-- A byte of the payload of a block. -/
structure Within (block : Block) (tested : Address) : Prop where
  above : 13 ≤ (tested - block.address).toNat
  below : (tested - block.address).toNat < block.extent

section arena

variable (first size : Word) (head : Address)

/-- The heap is well formed, and the block is in use in it. -/
def Live (memory : Memory) (block : Block) : Prop :=
  ∃ blocks, Represents first size head memory blocks ∧ block ∈ blocks ∧ block.allocated = true

/-- The condition on an event: a free chunk larger than the request is taken; a payload in
use is freed, and no size is lost; a byte of a payload in use is stored. -/
def Allowed (memory : Memory) : Event → Prop
  | .allocate chunk request =>
    ∃ blocks, Represents first size head memory blocks ∧
      ∃ block ∈ blocks, block.address = chunk ∧ block.allocated = false ∧ request < block.size
  | .free ptr => (∃ block, Live first size head memory block ∧ ptr = block.payload) ∧
      NoSizeLost memory ptr
  | .store address _ => ∃ block, Live first size head memory block ∧ Within block address

variable {first size head}

/-- The memory determines the blocks. -/
theorem represents_unique {memory : Memory} {blocks other : List Block}
    (heap : Represents first size head memory blocks)
    (same : Represents first size head memory other) : other = blocks := by
  have linked := heap.linked
  have entered := heap.entered
  rw [← List.append_nil blocks] at linked entered
  obtain ⟨rest, rfl, ends⟩ := represents_prefix first size head memory blocks [] other same
    heap.spaced.proper linked entered
  cases rest with
  | nil => exact List.append_nil blocks
  | cons block rest => exact absurd ends (same.spaced.proper block (by simp))

/-- A byte of a payload lies in no header. -/
theorem within_beyond {memory : Memory} {before after : List Block} {block : Block}
    (heap : Represents first size head memory (before ++ block :: after)) (tested : Address)
    (within : Within block tested) :
    ∀ other ∈ before ++ block :: after, 13 ≤ (tested - other.address).toNat := by
  have separated := pieces_separated Block.position Block.extent _ _ _ heap.tiled
  have pairs := List.pairwise_append.mp separated
  have bounded := heap.bounded
  have inside := piece_inside Block.position Block.extent _ _ _ heap.tiled
  have above := within.above
  have below := within.below
  have own := inside block (by simp)
  intro other member
  rcases List.mem_append.mp member with earlier | later
  · have order := pairs.2.2 other earlier block List.mem_cons_self
    simp only [Block.position, Block.extent] at order own below
    bv_omega
  · rcases List.mem_cons.mp later with rfl | after
    · exact above
    · have order := (List.pairwise_cons.mp pairs.2.1).1 other after
      have last := inside other member
      simp only [Block.position, Block.extent] at order own below last
      bv_omega

/-- The assignments of a merge touch two headers. -/
theorem absorb_other (memory : Memory) (left next tested : Address) (value : Word)
    (beyond : 13 ≤ (tested - left).toNat) (further : next ≠ 0 → 13 ≤ (tested - next).toNat) :
    absorb memory left next value tested = memory tested := by
  have sized := setSize_within memory left value tested beyond
  have nexted := setNext_within (setSize memory left value) left next tested beyond
  rw [absorb, relink]
  split
  case isTrue proper =>
    rw [setPrev_within _ next left tested (further proper), nexted, sized]
  case isFalse => rw [nexted, sized]

/-- The entry of a list of blocks is beyond whatever all of them are. -/
theorem entry_beyond (blocks : List Block) (tested : Address)
    (beyond : ∀ block ∈ blocks, 13 ≤ (tested - block.address).toNat)
    (proper : entry Block.address blocks 0 ≠ 0) :
    13 ≤ (tested - entry Block.address blocks 0).toNat := by
  cases blocks with
  | nil => exact absurd rfl proper
  | cons block rest => exact beyond block List.mem_cons_self

/-- The first merge writes to headers. -/
theorem mergeNext_other {memory : Memory} {before after : List Block} {chunk : Block}
    (heap : Represents first size head memory (before ++ chunk :: after)) (tested : Address)
    (beyond : ∀ block ∈ before ++ chunk :: after, 13 ≤ (tested - block.address).toNat) :
    mergeNext chunk.address memory tested = memory tested := by
  cases after with
  | nil => rw [mergeNext_unchanged memory before [] chunk heap.linked (by simp)]
  | cons next rest =>
    by_cases busy : next.allocated = true
    · rw [mergeNext_unchanged memory before (next :: rest) chunk heap.linked (by simp [busy])]
    · have free : next.allocated = false := by simpa using busy
      have node := linked_node memory before (next :: rest) chunk 0 0 heap.linked
      have nextNode : chunkAt memory next.address =
          next.header (entry Block.address rest 0) chunk.address :=
        ((linked_append Block.address Block.header (chunkAt memory) before _ 0 0).mp
          heap.linked).2.2.1
      have proper : next.address ≠ 0 := heap.spaced.proper next (by simp)
      have apart : Apart chunk.address next.address := heap.spaced.around next (by simp)
      have sized (value : Word) : chunkAt (setSize memory chunk.address value) next.address =
          chunkAt memory next.address :=
        chunkAt_frame chunk.address next.address memory _
          (setSize_within memory chunk.address value) apart
      have merged : mergeNext chunk.address memory =
          absorb memory chunk.address (entry Block.address rest 0)
            (chunk.size + (sizeofMemoryChunk + next.size)) := by
        simp only [mergeNext, absorb, relink, node, nextNode, Block.header, entry_cons, ne_eq,
          proper, free, not_false_eq_true, and_self, if_true, chunkAt_setSize, chunkAt_setNext,
          sized]
      rw [merged]
      exact absorb_other _ _ _ _ _ (beyond chunk (by simp))
        (entry_beyond rest tested fun block member => beyond block (by simp [member]))

/-- The second merge writes to headers. -/
theorem mergePrev_other {memory : Memory} {before after : List Block} {chunk : Block}
    (heap : Represents first size head memory (before ++ chunk :: after)) (tested : Address)
    (beyond : ∀ block ∈ before ++ chunk :: after, 13 ≤ (tested - block.address).toNat) :
    mergePrev chunk.address memory tested = memory tested := by
  have node := linked_node memory before after chunk 0 0 heap.linked
  rcases List.eq_nil_or_concat' before with rfl | ⟨front, prev, rfl⟩
  · rw [mergePrev_unchanged _ chunk.address (Or.inl (by rw [node]; rfl))]
  · have below : (chunkAt memory chunk.address).prev = prev.address := by
      rw [node]
      simp [Block.header, exit]
    rw [List.append_assoc, List.singleton_append] at heap beyond
    have prevNode := linked_node memory front (chunk :: after) prev 0 0 heap.linked
    by_cases busy : prev.allocated = true
    · rw [mergePrev_unchanged _ chunk.address (Or.inr (by rw [below, prevNode]; exact busy))]
    · have free : prev.allocated = false := by simpa using busy
      have proper : prev.address ≠ 0 := heap.spaced.proper prev (by simp)
      have apart : Apart prev.address chunk.address := heap.spaced.around chunk (by simp)
      have nextNode : (chunkAt memory chunk.address).next = entry Block.address after 0 := by
        rw [node]
        rfl
      have sized (value : Word) : chunkAt (setSize memory prev.address value) chunk.address =
          chunkAt memory chunk.address :=
        chunkAt_frame prev.address chunk.address memory _
          (setSize_within memory prev.address value) apart
      have nexted (earlier : Memory) (value : Address) :
          chunkAt (setNext earlier prev.address value) chunk.address =
            chunkAt earlier chunk.address :=
        chunkAt_frame prev.address chunk.address earlier _
          (setNext_within earlier prev.address value) apart
      have merged : mergePrev chunk.address memory =
          absorb memory prev.address (entry Block.address after 0)
            (sizeofMemoryChunk + (chunkAt memory chunk.address).size) := by
        simp only [mergePrev, absorb, relink, below, nextNode, prevNode, Block.header, ne_eq,
          proper, free, not_false_eq_true, and_self, if_true, sized, nexted]
      rw [merged]
      exact absorb_other _ _ _ _ _ (beyond prev (by simp))
        (entry_beyond after tested fun block member => beyond block (by simp [member]))

/-- The first merge adds no header and loses no block in use. -/
theorem absorbNext_member (chunk : Block) (after : List Block) :
    (∀ block ∈ absorbNext chunk after, ∃ old ∈ chunk :: after, old.address = block.address) ∧
      ∀ block ∈ after, block.allocated = true → block ∈ absorbNext chunk after := by
  cases after with
  | nil => exact ⟨fun block member => ⟨block, member, rfl⟩, fun block none => by cases none⟩
  | cons next rest =>
    by_cases busy : next.allocated = true
    · simp only [absorbNext, busy, if_true]
      exact ⟨fun block member => ⟨block, member, rfl⟩,
        fun block member _ => List.mem_cons_of_mem chunk member⟩
    · simp only [absorbNext, busy, Bool.false_eq_true, if_false]
      constructor
      · intro block member
        rcases List.mem_cons.mp member with rfl | later
        · exact ⟨chunk, List.mem_cons_self, rfl⟩
        · exact ⟨block, by simp [later], rfl⟩
      · intro block member used
        rcases List.mem_cons.mp member with rfl | later
        · exact absurd used busy
        · exact List.mem_cons_of_mem _ later

/-- A block in use that is not freed is still there afterwards. -/
theorem release_member (before after : List Block) (chunk block : Block)
    (member : block ∈ before ++ after) (used : block.allocated = true) :
    block ∈ release before chunk after := by
  obtain ⟨merged, rest, shape, -, flag⟩ :=
    absorbNext_shape { chunk with allocated := false } after
  have kept := (absorbNext_member { chunk with allocated := false } after).2 block
  rw [shape] at kept
  have above (later : block ∈ after) : block ∈ rest := by
    rcases List.mem_cons.mp (kept later used) with rfl | there
    · rw [flag] at used
      cases used
    · exact there
  rw [release, shape]
  rcases List.eq_nil_or_concat' before with rfl | ⟨front, prev, rfl⟩
  · exact List.mem_cons_of_mem merged (above (by simpa using member))
  · by_cases busy : prev.allocated = true
    · rw [absorbPrev_busy front rest prev merged busy]
      rcases List.mem_append.mp member with earlier | later
      · exact List.mem_append_left _ earlier
      · exact List.mem_append_right _ (List.mem_cons_of_mem merged (above later))
    · rw [absorbPrev_free front rest prev merged (by simpa using busy)]
      rcases List.mem_append.mp member with earlier | later
      · rcases List.mem_append.mp earlier with among | last
        · exact List.mem_append_left _ among
        · rw [List.mem_singleton.mp last] at used
          exact absurd used busy
      · exact List.mem_append_right _ (List.mem_cons_of_mem _ (above later))

/-- If no size is lost, the released blocks are what the memory stands for. -/
theorem release_represents {memory : Memory} {before after : List Block} {chunk : Block}
    (heap : Represents first size head memory (before ++ chunk :: after))
    (proper : chunk.payload ≠ 0) (safe : NoSizeLost memory chunk.payload) :
    Represents first size head (kfree chunk.payload memory) (release before chunk after) := by
  have linked := kfree_linked first size head memory before after chunk heap proper
  have marked := mark_represents first size head memory before after chunk false heap
  have upward := mergeNext_represents first size head _ before after _ marked
  obtain ⟨merged, rest, shape, address, -⟩ := absorbNext_shape { chunk with allocated := false } after
  rw [release, shape] at linked ⊢
  rw [shape] at upward
  rcases List.eq_nil_or_concat' before with rfl | ⟨front, prev, rfl⟩
  · exact ⟨heap.positive, heap.bounded, upward.entered, upward.tiled, linked⟩
  · rw [List.append_assoc, List.singleton_append] at heap
    have placed : prev.address ≠ 0 := heap.spaced.proper prev (by simp)
    by_cases busy : prev.allocated = true
    · rw [absorbPrev_busy front rest prev merged busy] at linked ⊢
      exact ⟨heap.positive, heap.bounded, upward.entered, upward.tiled, linked⟩
    · rw [absorbPrev_free front rest prev merged (by simpa using busy)] at linked ⊢
      have empty : prev.size = 0 :=
        ((noSizeLost_iff memory front after prev chunk proper placed heap.linked).mp
          safe).resolve_left busy
      rw [List.append_assoc, List.singleton_append] at upward
      have sum := (joined_size front rest prev merged _ _ upward.bounded upward.tiled).2
      refine ⟨heap.positive, heap.bounded, ?_, ?_, linked⟩
      · rw [upward.entered, entry_append, entry_append]
        rfl
      · refine tiles_join front rest prev merged _ _ _ upward.tiled rfl ?_
        simp only [Block.extent, sum, empty]
        rfl

/-- Freeing writes to headers. -/
theorem kfree_other {memory : Memory} {before after : List Block} {chunk : Block}
    (heap : Represents first size head memory (before ++ chunk :: after)) (tested : Address)
    (beyond : ∀ block ∈ before ++ chunk :: after, 13 ≤ (tested - block.address).toNat) :
    kfree chunk.payload memory tested = memory tested := by
  by_cases null : chunk.payload = 0
  · rw [kfree, if_pos null]
  · have marked := mark_represents first size head memory before after chunk false heap
    have upward := mergeNext_represents first size head _ before after _ marked
    obtain ⟨merged, rest, shape, address, -⟩ :=
      absorbNext_shape { chunk with allocated := false } after
    have headers := (absorbNext_member { chunk with allocated := false } after).1
    rw [shape] at upward headers
    have markedBeyond : ∀ block ∈ before ++ { chunk with allocated := false } :: after,
        13 ≤ (tested - block.address).toNat := by
      intro block member
      rcases List.mem_append.mp member with earlier | later
      · exact beyond block (List.mem_append_left _ earlier)
      · rcases List.mem_cons.mp later with rfl | after
        · exact beyond chunk (by simp)
        · exact beyond block (by simp [after])
    have upwardBeyond : ∀ block ∈ before ++ merged :: rest, 13 ≤ (tested - block.address).toNat := by
      intro block member
      rcases List.mem_append.mp member with earlier | later
      · exact beyond block (List.mem_append_left _ earlier)
      · obtain ⟨old, among, same⟩ := headers block later
        rw [← same]
        exact markedBeyond old (List.mem_append_right _ among)
    have last := mergePrev_other upward tested upwardBeyond
    rw [address] at last
    rw [kfree, if_neg null, payload_header, last]
    have middle := mergeNext_other marked tested markedBeyond
    exact middle.trans (setAllocated_within memory chunk.address false tested
      (beyond chunk (by simp)))

/-- Taking a chunk writes to the headers of the blocks it leaves. -/
theorem carve_other {memory : Memory} {before after : List Block} {chunk : Block} {request : Word}
    (heap : Represents first size head memory (before ++ chunk :: after))
    (fits : request < chunk.size) (tested : Address)
    (beyond : ∀ block ∈ before ++ taken chunk request :: (spare chunk request ++ after),
      13 ≤ (tested - block.address).toNat) :
    carve chunk.address request memory tested = memory tested := by
  have node := linked_node memory before after chunk 0 0 heap.linked
  have carved := carve_represents first size head memory before after chunk request heap fits
  have own : (taken chunk request).address = chunk.address := by
    rw [taken]
    split
    · rfl
    · rfl
  have first := beyond (taken chunk request) (by simp)
  rw [own] at first
  by_cases room : request + sizeofMemoryChunk < chunk.size
  · have rest : remainder chunk request ∈ spare chunk request := by simp [spare, room]
    have apart := carved.spaced.around (remainder chunk request) (by simp [rest])
    have second := beyond (remainder chunk request) (by simp [rest])
    rw [own] at apart
    rw [carve_split memory chunk _ _ request apart room node,
      setAllocated_within _ chunk.address true tested first, relink]
    have shortened := shorten_within (writeHeader memory (remainder chunk request).address
      (entry Block.address after 0) chunk.address (remainder chunk request).size) chunk.address
      (remainder chunk request).address request tested first
    have written := writeHeader_within memory (remainder chunk request).address
      (entry Block.address after 0) chunk.address (remainder chunk request).size tested second
    split
    case isTrue proper =>
      have third := entry_beyond after tested
        (fun block member => beyond block (by simp [member])) proper
      rw [setPrev_within _ _ _ tested third, shortened, written]
    case isFalse => rw [shortened, written]
  · rw [carve_whole memory chunk _ _ request room node]
    exact setAllocated_within memory chunk.address true tested first

/-- Storing into a payload changes no header. -/
theorem store8_represents {memory : Memory} {blocks : List Block}
    (heap : Represents first size head memory blocks) (address : Address) (value : Byte)
    (beyond : ∀ block ∈ blocks, 13 ≤ (address - block.address).toNat) :
    Represents first size head (store8 memory address value) blocks := by
  refine ⟨heap.positive, heap.bounded, heap.entered, heap.tiled, ?_⟩
  refine linked_congr Block.address Block.header (chunkAt memory) _ blocks 0 0 ?_ heap.linked
  intro block member
  have away := beyond block member
  have other (offset : Word) (inside : offset.toNat < 13) :
      store8 memory address value (block.address + offset) = memory (block.address + offset) := by
    apply store8_other
    rintro rfl
    bv_omega
  have field (offset : Word) (inside : offset.toNat + 3 < 13) :
      load32 (store8 memory address value) (block.address + offset) =
        load32 memory (block.address + offset) := by
    apply load32_store8_apart
    bv_omega
  have next := field 0 (by decide)
  rw [BitVec.ofNat_eq_ofNat, BitVec.add_zero] at next
  simp only [chunkAt, next, field 4 (by decide), other 8 (by decide), field 9 (by decide)]

/-- What an event stores for a client. -/
def Event.stored : Event → Option (Address × Byte)
  | .store address value => some (address, value)
  | _ => none

/-- The memory with nothing but the client's store. -/
def Event.onlyStored (event : Event) (memory : Memory) : Memory :=
  match event.stored with
  | some write => Function.update memory write.1 write.2
  | none => memory

theorem store8_eq_update (memory : Memory) (address : Address) (value : Byte) :
    store8 memory address value = Function.update memory address value := by
  funext tested
  rw [store8, Function.update_apply]

theorem allocate_kept {memory : Memory} {block : Block} (chunk : Address) (request : Word)
    (allowed : Allowed first size head memory (.allocate chunk request))
    (live : Live first size head memory block) :
    Live first size head (allocate chunk request memory).2 block ∧
      ∀ tested, Within block tested → (allocate chunk request memory).2 tested = memory tested := by
  obtain ⟨blocks, heap, member, used⟩ := live
  obtain ⟨other, same, found, among, rfl, free, fits⟩ := allowed
  obtain rfl := represents_unique heap same
  obtain ⟨before, above, rfl⟩ := List.append_of_mem among
  have proper : found.address ≠ 0 := heap.spaced.proper found (by simp)
  have carved := carve_represents first size head memory before above found request heap fits
  have elsewhere : block ≠ found := by
    rintro rfl
    rw [used] at free
    cases free
  have kept : block ∈ before ++ taken found request :: (spare found request ++ above) := by
    simp only [List.mem_append, List.mem_cons] at member ⊢
    tauto
  simp only [allocate, proper, if_false]
  refine ⟨⟨_, carved, kept, used⟩, fun tested within => ?_⟩
  apply carve_other heap fits tested
  obtain ⟨front, rear, split⟩ := List.append_of_mem kept
  rw [split] at carved ⊢
  exact within_beyond carved tested within

theorem kfree_kept {memory : Memory} {block : Block} (ptr : Address)
    (allowed : Allowed first size head memory (.free ptr))
    (live : Live first size head memory block) (kept : ptr ≠ block.payload) :
    Live first size head (kfree ptr memory) block ∧
      ∀ tested, Within block tested → kfree ptr memory tested = memory tested := by
  obtain ⟨blocks, heap, member, used⟩ := live
  obtain ⟨⟨chunk, ⟨other, same, among, -⟩, rfl⟩, safe⟩ := allowed
  obtain rfl := represents_unique heap same
  obtain ⟨before, above, rfl⟩ := List.append_of_mem among
  have elsewhere : block ≠ chunk := fun equal => kept (congrArg Block.payload equal.symm)
  have beside : block ∈ before ++ above := by
    simp only [List.mem_append, List.mem_cons] at member ⊢
    tauto
  refine ⟨?_, fun tested within => ?_⟩
  · by_cases null : chunk.payload = 0
    · rw [kfree, if_pos null]
      exact ⟨_, heap, member, used⟩
    · exact ⟨_, release_represents heap null safe,
        release_member before above chunk block beside used, used⟩
  · apply kfree_other heap tested
    obtain ⟨front, rear, split⟩ := List.append_of_mem member
    rw [split] at heap ⊢
    exact within_beyond heap tested within

/-- Every allowed event but its own freeing keeps a block, and leaves its payload to its
client. -/
theorem step_kept (memory : Memory) (event : Event) (block : Block)
    (allowed : Allowed first size head memory event) (live : Live first size head memory block)
    (kept : event ≠ .free block.payload) :
    ∃ next, step memory event = some next ∧ Live first size head next block ∧
      ∀ tested, Within block tested → next tested = event.onlyStored memory tested := by
  cases event with
  | allocate chunk request =>
    obtain ⟨still, same⟩ := allocate_kept chunk request allowed live
    exact ⟨_, rfl, still, same⟩
  | free ptr =>
    obtain ⟨still, same⟩ := kfree_kept ptr allowed live fun equal => kept (by rw [equal])
    exact ⟨_, rfl, still, same⟩
  | store address value =>
    obtain ⟨blocks, heap, member, used⟩ := live
    obtain ⟨owner, ⟨other, same, among, -⟩, inside⟩ := allowed
    obtain rfl := represents_unique heap same
    obtain ⟨front, rear, rfl⟩ := List.append_of_mem among
    have stored := store8_represents heap address value (within_beyond heap address inside)
    exact ⟨_, rfl, ⟨_, stored, member, used⟩,
      fun tested _ => congrFun (store8_eq_update memory address value) tested⟩

/-- A byte outside the arena. -/
def Outside (first size : Word) (tested : Address) : Prop :=
  tested.toNat < first.toNat ∨ first.toNat + size.toNat ≤ tested.toNat

/-- A byte outside the arena lies in no header. -/
theorem outside_beyond {memory : Memory} {blocks : List Block}
    (heap : Represents first size head memory blocks) (tested : Address)
    (outside : Outside first size tested) :
    ∀ block ∈ blocks, 13 ≤ (tested - block.address).toNat := by
  have bounded := heap.bounded
  intro block member
  have inside := piece_inside Block.position Block.extent _ _ _ heap.tiled block member
  simp only [Block.position, Block.extent] at inside
  rcases outside with below | above
  · bv_omega
  · bv_omega

/-- A byte of a payload lies in the arena. -/
theorem within_inside {memory : Memory} {blocks : List Block} {block : Block}
    (heap : Represents first size head memory blocks) (member : block ∈ blocks)
    (address : Address) (within : Within block address) : ¬ Outside first size address := by
  have bounded := heap.bounded
  have inside := piece_inside Block.position Block.extent _ _ _ heap.tiled block member
  have below := within.below
  simp only [Block.position, Block.extent, Outside] at inside below ⊢
  bv_omega

/-- Every allowed event keeps the heap well formed and writes inside the arena. -/
theorem step_confined (memory : Memory) (event : Event)
    (wellFormed : WellFormed first size head memory)
    (allowed : Allowed first size head memory event) :
    ∃ next, step memory event = some next ∧ WellFormed first size head next ∧
      ∀ tested, Outside first size tested → next tested = memory tested := by
  cases event with
  | allocate chunk request =>
    obtain ⟨blocks, heap, found, among, rfl, -, fits⟩ := allowed
    refine ⟨_, rfl, ?_⟩
    obtain ⟨before, after, rfl⟩ := List.append_of_mem among
    have proper : found.address ≠ 0 := heap.spaced.proper found (by simp)
    have carved := carve_represents first size head memory before after found request heap fits
    simp only [allocate, proper, if_false]
    exact ⟨⟨_, carved⟩, fun tested outside =>
      carve_other heap fits tested (outside_beyond carved tested outside)⟩
  | free ptr =>
    obtain ⟨⟨chunk, ⟨blocks, heap, among, -⟩, rfl⟩, safe⟩ := allowed
    obtain ⟨before, after, rfl⟩ := List.append_of_mem among
    refine ⟨_, rfl, ?_, fun tested outside =>
      kfree_other heap tested (outside_beyond heap tested outside)⟩
    by_cases null : chunk.payload = 0
    · rw [kfree, if_pos null]
      exact wellFormed
    · exact ⟨_, release_represents heap null safe⟩
  | store address value =>
    obtain ⟨owner, ⟨blocks, heap, among, -⟩, within⟩ := allowed
    have inside := within_inside heap among address within
    obtain ⟨front, rear, rfl⟩ := List.append_of_mem among
    have stored := store8_represents heap address value (within_beyond heap address within)
    refine ⟨_, rfl, ⟨_, stored⟩, fun tested outside => store8_other memory address tested value ?_⟩
    rintro rfl
    exact inside outside

end arena

/-- In every run of clients from a well-formed heap that takes free chunks, frees payloads
in use without a size being lost, and stores into payloads in use, a block that is never
freed keeps its place and its size, and each byte of its payload is the latest stored to
it, or what it was before if there is none. -/
theorem payload_kept (first size : Word) (head : Address) (events : List Event)
    (memory : Memory) (block : Block) (live : Live first size head memory block)
    (meets : Runs.Meets step (Allowed first size head) events memory)
    (kept : ∀ event ∈ events, event ≠ .free block.payload) :
    ∃ final, Runs.run step events memory = some final ∧ Live first size head final block ∧
      ∀ tested, Within block tested → final tested =
        ((LatestWrites.latest Prod.fst (events.filterMap Event.stored) tested).map Prod.snd).getD
          (memory tested) := by
  induction events generalizing memory with
  | nil => exact ⟨memory, rfl, live, fun tested _ => rfl⟩
  | cons event rest inductionHypothesis =>
    rw [List.forall_mem_cons] at kept
    obtain ⟨next, taken, still, same⟩ := step_kept memory event block meets.1 live kept.1
    obtain ⟨final, completed, last, bytes⟩ :=
      inductionHypothesis next still (meets.2 next taken) kept.2
    refine ⟨final, ?_, last, fun tested within => ?_⟩
    · rw [Runs.run_cons, taken, Option.bind_some, completed]
    · rw [bytes tested within, same tested within, Event.onlyStored]
      cases stored : event.stored with
      | none => rw [List.filterMap_cons_none stored]
      | some write =>
        rw [List.filterMap_cons_some stored]
        dsimp only
        rw [← LatestWrites.write_apply Prod.fst Prod.snd, ← LatestWrites.write_apply]
        rfl

/-- In every run of clients from a well-formed heap that takes free chunks, frees payloads
in use without a size being lost, and stores into payloads in use, the heap stays well
formed over its arena and no byte outside the arena changes. -/
theorem arena_confined (first size : Word) (head : Address) (events : List Event)
    (memory : Memory) (wellFormed : WellFormed first size head memory)
    (meets : Runs.Meets step (Allowed first size head) events memory) :
    ∃ final, Runs.run step events memory = some final ∧ WellFormed first size head final ∧
      ∀ tested, Outside first size tested → final tested = memory tested := by
  induction events generalizing memory with
  | nil => exact ⟨memory, rfl, wellFormed, fun _ _ => rfl⟩
  | cons event rest inductionHypothesis =>
    obtain ⟨next, taken, again, same⟩ := step_confined memory event wellFormed meets.1
    obtain ⟨final, completed, last, kept⟩ := inductionHypothesis next again (meets.2 next taken)
    refine ⟨final, ?_, last, fun tested outside => ?_⟩
    · rw [Runs.run_cons, taken, Option.bind_some, completed]
    · rw [kept tested outside, same tested outside]

/-- One of two clients stores a byte, the other one frees its block. -/
def pairEvents : List Event := [.store 0x1010 7, .free 0x102D]

theorem pair_live (address : Address) (listed : address = 0x1000 ∨ address = 0x1020) :
    Live 0x1000 64 0x1000 (pairMemory true true) ⟨address, 19, true⟩ := by
  rcases listed with rfl | rfl
  · exact ⟨_, pair_represents true true, by decide, rfl⟩
  · exact ⟨_, pair_represents true true, by decide, rfl⟩

theorem pair_meets : Runs.Meets step (Allowed 0x1000 64 0x1000) pairEvents (pairMemory true true) := by
  have inside : Within ⟨0x1000, 19, true⟩ 0x1010 := by constructor <;> decide
  have stores : Allowed 0x1000 64 0x1000 (pairMemory true true) (.store 0x1010 7) :=
    ⟨_, pair_live _ (Or.inl rfl), inside⟩
  refine ⟨stores, fun next taken => ⟨?_, fun _ _ => trivial⟩⟩
  obtain ⟨other, same, still, -⟩ := step_kept _ _ _ stores (pair_live _ (Or.inr rfl)) (by decide)
  rw [taken] at same
  cases same
  cases taken
  exact ⟨⟨_, still, by decide⟩, by decide⟩

theorem payload_kept_pair :
    ∃ final, Runs.run step [.store 0x1010 7, .free 0x102D] (pairMemory true true) = some final ∧
      final 0x1010 = 7 := by
  have inside : Within ⟨0x1000, 19, true⟩ 0x1010 := by constructor <;> decide
  obtain ⟨final, completed, -, bytes⟩ := payload_kept 0x1000 64 0x1000 pairEvents _ _
    (pair_live _ (Or.inl rfl)) pair_meets (by decide)
  exact ⟨final, completed, bytes 0x1010 inside⟩

theorem arena_confined_pair :
    ∃ final, Runs.run step pairEvents (pairMemory true true) = some final ∧
      final 0x1040 = pairMemory true true 0x1040 := by
  obtain ⟨final, completed, -, kept⟩ := arena_confined 0x1000 64 0x1000 pairEvents _
    ⟨_, pair_represents true true⟩ pair_meets
  exact ⟨final, completed, kept 0x1040 (Or.inr (by decide))⟩

end BlueOs.HeapClients
