import BlueOs.HeapClients
import Mathlib.Algebra.BigOperators.Group.List.Basic

/-!
# What is taken and freed

Taking a chunk of a coalesced heap and freeing one keep it coalesced, as long as no size
is lost, and change the number of blocks in use by one. So a heap whose blocks were all
freed again is the one free block that it was at first: nothing leaks, and nothing stays
split.
-/

namespace BlueOs.HeapBalance

open ByteMemory Tiling LinkedNodes MemoryManager HeapInvariant Coalescing Carving Reclaiming
open HeapClients

/-- The number of blocks in use. -/
def inUse (blocks : List Block) : Nat := blocks.countP Block.allocated

/-- What an event adds to the number of blocks in use; freeing null does nothing. -/
def added : Event → Int
  | .allocate _ _ => 1
  | .free ptr => if ptr = 0 then 0 else -1
  | .store _ _ => 0

def balance (events : List Event) : Int := (events.map added).sum

@[simp] theorem inUse_append (before after : List Block) :
    inUse (before ++ after) = inUse before + inUse after :=
  List.countP_append

theorem inUse_cons_free (block : Block) (rest : List Block) (free : block.allocated = false) :
    inUse (block :: rest) = inUse rest := by
  simp [inUse, free]

theorem inUse_cons_used (block : Block) (rest : List Block) (used : block.allocated = true) :
    inUse (block :: rest) = inUse rest + 1 := by
  simp [inUse, used]

theorem taken_allocated (chunk : Block) (request : Word) :
    (taken chunk request).allocated = true := by
  rw [taken]
  split
  · rfl
  · rfl

theorem inUse_spare (chunk : Block) (request : Word) : inUse (spare chunk request) = 0 := by
  rw [spare]
  split
  · rfl
  · rfl

/-- Taking a free block uses one block more. -/
theorem inUse_carved (before after : List Block) (chunk : Block) (request : Word)
    (free : chunk.allocated = false) :
    inUse (before ++ taken chunk request :: (spare chunk request ++ after)) =
      inUse (before ++ chunk :: after) + 1 := by
  rw [inUse_append, inUse_append, inUse_cons_used _ _ (taken_allocated chunk request),
    inUse_append, inUse_spare, inUse_cons_free chunk after free]
  omega

/-- The block above a free block is allocated, so what is split off meets no free block. -/
theorem carved_coalesced (before after : List Block) (chunk : Block) (request : Word)
    (coalesced : Coalesced (before ++ chunk :: after)) (free : chunk.allocated = false) :
    Coalesced (before ++ taken chunk request :: (spare chunk request ++ after)) := by
  have used := taken_allocated chunk request
  have above := coalesced.above free
  obtain ⟨front, back, -⟩ := List.isChain_append.mp coalesced
  have rest : Coalesced (spare chunk request ++ after) := by
    rw [spare]
    split
    · exact List.isChain_cons.mpr ⟨fun next first => Or.inr (above next first), List.IsChain.tail back⟩
    · exact List.IsChain.tail back
  refine List.isChain_append.mpr ⟨front, List.isChain_cons.mpr ⟨?_, rest⟩, ?_⟩
  · exact fun _ _ => Or.inl used
  · intro prev last next first
    cases first
    exact Or.inr used

/-- The first merge drops at most a free block. -/
theorem inUse_absorbNext (chunk : Block) (after : List Block) (free : chunk.allocated = false) :
    inUse (absorbNext chunk after) = inUse after := by
  cases after with
  | nil => exact inUse_cons_free chunk [] free
  | cons next rest =>
    by_cases busy : next.allocated = true
    · simp only [absorbNext, busy, if_true]
      exact inUse_cons_free chunk (next :: rest) free
    · have hole : next.allocated = false := by simpa using busy
      simp only [absorbNext, hole, Bool.false_eq_true, if_false]
      exact (inUse_cons_free _ rest free).trans (inUse_cons_free next rest hole).symm

/-- Freeing a block in use leaves one block less in use. -/
theorem inUse_release (before after : List Block) (chunk : Block) (used : chunk.allocated = true) :
    inUse (release before chunk after) + 1 = inUse (before ++ chunk :: after) := by
  have upward := inUse_absorbNext { chunk with allocated := false } after rfl
  obtain ⟨merged, rest, shape, -, flag⟩ :=
    absorbNext_shape { chunk with allocated := false } after
  rw [shape, inUse_cons_free merged rest flag] at upward
  rw [release, shape, inUse_append, inUse_cons_used chunk after used, ← upward]
  rcases List.eq_nil_or_concat' before with rfl | ⟨front, prev, rfl⟩
  · rw [absorbPrev]
    exact congrArg (· + 1) ((inUse_cons_free merged rest flag).trans (Nat.zero_add _).symm)
  · by_cases busy : prev.allocated = true
    · rw [absorbPrev_busy front rest prev merged busy, inUse_append,
        inUse_cons_free merged rest flag]
      omega
    · have hole : prev.allocated = false := by simpa using busy
      have joined :=
        inUse_cons_free { prev with size := sizeofMemoryChunk + merged.size } rest hole
      rw [absorbPrev_free front rest prev merged hole, inUse_append, inUse_append, joined,
        inUse_cons_free prev [] hole]
      rfl

section runs

variable {first size : Word} {head : Address}

/-- A coalesced heap with a number of blocks in use. -/
def Coherent (first size : Word) (head : Address) (used : Int) (memory : Memory) : Prop :=
  ∃ blocks, Represents first size head memory blocks ∧ Coalesced blocks ∧ inUse blocks = used

theorem step_coherent (memory : Memory) (event : Event) (used : Int)
    (coherent : Coherent first size head used memory)
    (allowed : Allowed first size head memory event) :
    ∃ next, step memory event = some next ∧
      Coherent first size head (used + added event) next := by
  obtain ⟨blocks, heap, coalesced, count⟩ := coherent
  cases event with
  | allocate chunk request =>
    obtain ⟨other, same, found, among, rfl, free, fits⟩ := allowed
    obtain rfl := represents_unique heap same
    obtain ⟨before, after, rfl⟩ := List.append_of_mem among
    have proper : found.address ≠ 0 := heap.spaced.proper found (by simp)
    have carved := carve_represents first size head memory before after found request heap fits
    refine ⟨_, rfl, ?_⟩
    simp only [allocate, proper, if_false]
    refine ⟨_, carved, carved_coalesced before after found request coalesced free, ?_⟩
    rw [inUse_carved before after found request free, ← count]
    rfl
  | free ptr =>
    obtain ⟨⟨chunk, ⟨other, same, among, busy⟩, rfl⟩, safe⟩ := allowed
    obtain rfl := represents_unique heap same
    obtain ⟨before, after, rfl⟩ := List.append_of_mem among
    refine ⟨_, rfl, ?_⟩
    by_cases null : chunk.payload = 0
    · rw [kfree, if_pos null, added, if_pos null, add_zero]
      exact ⟨_, heap, coalesced, count⟩
    · have released := release_represents heap null safe
      have fewer := inUse_release before after chunk busy
      refine ⟨_, released, (release_reclaimed head _ before after chunk heap.entered coalesced
        (elsewhere heap) released.linked).coalesced, ?_⟩
      rw [added, if_neg null, ← count]
      omega
  | store address value =>
    obtain ⟨owner, ⟨other, same, among, -⟩, within⟩ := allowed
    obtain rfl := represents_unique heap same
    obtain ⟨front, rear, rfl⟩ := List.append_of_mem among
    have stored := store8_represents heap address value (within_beyond heap address within)
    exact ⟨_, rfl, _, stored, coalesced, count.trans (add_zero used).symm⟩

theorem run_coherent (events : List Event) (memory : Memory) (used : Int)
    (coherent : Coherent first size head used memory)
    (meets : Runs.Meets step (Allowed first size head) events memory) :
    ∃ final, Runs.run step events memory = some final ∧
      Coherent first size head (used + balance events) final := by
  induction events generalizing memory used with
  | nil => exact ⟨memory, rfl, by rwa [balance, List.map_nil, List.sum_nil, add_zero]⟩
  | cons event rest inductionHypothesis =>
    obtain ⟨next, taken, again⟩ := step_coherent memory event used coherent meets.1
    obtain ⟨final, completed, last⟩ := inductionHypothesis next _ again (meets.2 next taken)
    refine ⟨final, ?_, ?_⟩
    · rw [Runs.run_cons, taken, Option.bind_some, completed]
    · rwa [balance, List.map_cons, List.sum_cons, ← add_assoc]

/-- A coalesced heap without a block in use is one free block. -/
theorem unused_whole {memory : Memory} (blocks : List Block) (room : sizeofMemoryChunk ≤ size)
    (heap : Represents first size head memory blocks) (coalesced : Coalesced blocks)
    (unused : inUse blocks = 0) : blocks = [⟨first, size - sizeofMemoryChunk, false⟩] := by
  have free : ∀ block ∈ blocks, block.allocated = false := by
    simpa [inUse, List.countP_eq_zero] using unused
  have tiled := heap.tiled
  have bounded := heap.bounded
  have large : 13 ≤ size.toNat := room
  cases blocks with
  | nil =>
    simp only [Tiles] at tiled
    omega
  | cons block rest =>
    cases rest with
    | nil =>
      obtain ⟨address, length, allocated⟩ := block
      obtain rfl : allocated = false := free ⟨address, length, allocated⟩ (by simp)
      simp only [Tiles, Block.position, Block.extent] at tiled
      have placed : address = first := by bv_omega
      have filled : length = size - sizeofMemoryChunk := by
        simp only [sizeofMemoryChunk]
        bv_omega
      rw [placed, filled]
    | cons next rest =>
      have adjacent := (List.isChain_cons.mp coalesced).1 next rfl
      rw [free block (by simp), free next (by simp)] at adjacent
      simp at adjacent

end runs

/-- In every run of clients from a new heap that takes free chunks, frees payloads in use
without a size being lost, and stores into payloads in use, the heap stays coalesced and
has one block in use for every chunk that was taken and not freed. Whenever all are freed
it is again the one free block that it was at first. -/
theorem balanced_whole (first size : Word) (memory : Memory) (positive : 0 < first.toNat)
    (room : sizeofMemoryChunk ≤ size) (bounded : first.toNat + size.toNat ≤ 2 ^ 32)
    (events : List Event)
    (meets : Runs.Meets step (Allowed first size (construct first size memory).1.head) events
      (construct first size memory).2) :
    ∃ final blocks, Runs.run step events (construct first size memory).2 = some final ∧
      Represents first size (construct first size memory).1.head final blocks ∧
      Coalesced blocks ∧ inUse blocks = balance events ∧
      (balance events = 0 → blocks = [⟨first, size - sizeofMemoryChunk, false⟩]) := by
  have coherent : Coherent first size (construct first size memory).1.head 0
      (construct first size memory).2 :=
    ⟨_, construct_represents first size memory positive room bounded, .singleton _, rfl⟩
  obtain ⟨final, completed, blocks, heap, coalesced, count⟩ :=
    run_coherent events _ 0 coherent meets
  rw [zero_add] at count
  refine ⟨final, blocks, completed, heap, coalesced, count, fun all => ?_⟩
  rw [all] at count
  exact unused_whole blocks room heap coalesced (Int.ofNat_eq_zero.mp count)

/-- A chunk is taken, written to and freed. -/
theorem balanced_whole_single :
    ∃ final, Runs.run step [.allocate 0x1000 19, .store 0x100D 7, .free 0x100D]
        (construct 0x1000 64 fun _ => 0).2 = some final ∧
      Represents 0x1000 64 0x1000 final [⟨0x1000, 51, false⟩] := by
  have fresh := construct_represents 0x1000 64 (fun _ => 0) (by decide) (by decide) (by decide)
  have carved : Represents 0x1000 64 0x1000
      (allocate 0x1000 19 (construct 0x1000 64 fun _ => 0).2).2
      [⟨0x1000, 19, true⟩, ⟨0x1020, 19, false⟩] :=
    carve_represents 0x1000 64 0x1000 _ [] [] ⟨0x1000, 51, false⟩ 19 fresh (by decide)
  have inside : Within ⟨0x1000, 19, true⟩ 0x100D := by constructor <;> decide
  have beyond : ∀ block ∈ [] ++ (⟨0x1000, 19, true⟩ : Block) :: [⟨0x1020, 19, false⟩],
      13 ≤ (0x100D - block.address).toNat := within_beyond carved 0x100D inside
  have stored := store8_represents carved 0x100D 7 beyond
  have meets : Runs.Meets step (Allowed 0x1000 64 0x1000)
      [.allocate 0x1000 19, .store 0x100D 7, .free 0x100D] (construct 0x1000 64 fun _ => 0).2 := by
    refine ⟨⟨_, fresh, ⟨0x1000, 51, false⟩, by simp [sizeofMemoryChunk], rfl, rfl, by decide⟩, ?_⟩
    rintro next ⟨⟩
    refine ⟨⟨_, ⟨_, carved, List.mem_cons_self, rfl⟩, inside⟩, ?_⟩
    rintro next ⟨⟩
    refine ⟨⟨⟨_, ⟨_, stored, List.mem_cons_self, rfl⟩, rfl⟩, ?_⟩, fun _ _ => trivial⟩
    exact noSizeLost_bottom _ _ _ stored.linked
  obtain ⟨final, blocks, completed, heap, -, -, whole⟩ := balanced_whole 0x1000 64 (fun _ => 0)
    (by decide) (by decide) (by decide) _ meets
  rw [whole rfl] at heap
  exact ⟨final, completed, heap⟩

end BlueOs.HeapBalance
