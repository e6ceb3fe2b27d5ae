import BlueOs.DescriptorTables
import BlueOs.InterruptDispatch

/-!
# Segments

`init_gdt` fills the table, and `gdt_flush` has the processor use it. Every access then
goes through a segment: the one that its selector names in the table, within the limit
that was loaded with it.

All segments of the kernel start at zero and have the whole address space, so an address
is what the program computed; and the selectors that the gates, the first frames of the
tasks and `gdt_flush` itself name are selectors of such segments.
-/

namespace BlueOs.Segmentation

open DescriptorTables

/-- `sizeof(GDTEntry)` -/
def sizeofGDTEntry : Half := 8

structure GDTPtr where
  limit : Half
  base : Word

/-- The table after `init_gdt`. -/
def initGdt (gdt : GlobalDescriptorTable) : GlobalDescriptorTable :=
  let gdt := setGdtEntry gdt 0 0 0 0 0
  let gdt := setGdtEntry gdt 1 0 0xFFFFFFFF 0x9A 0xCF
  let gdt := setGdtEntry gdt 2 0 0xFFFFFFFF 0x92 0xCF
  let gdt := setGdtEntry gdt 3 0 0xFFFFFFFF 0xFA 0xCF
  setGdtEntry gdt 4 0 0xFFFFFFFF 0xF2 0xCF

/-- What `init_gdt` passes to `gdt_flush`. -/
def gdtPtr (base : Word) : GDTPtr where
  limit := sizeofGDTEntry * 5 - 1
  base := base

/-- The segment registers. -/
structure Selectors where
  cs : Half
  ds : Half
  es : Half
  fs : Half
  gs : Half
  ss : Half

/-- What `gdt_flush` leaves in the segment registers. -/
def gdtFlush : Selectors where
  cs := 0x08
  ds := 0x10
  es := 0x10
  fs := 0x10
  gs := 0x10
  ss := 0x10

/-- The segment that a selector names. Index 0 names none, and bit 2 asks for a local
table, which there is not. -/
def lookup (ptr : GDTPtr) (gdt : GlobalDescriptorTable) (selector : Half) : Option Segment :=
  if selector.getLsbD 2 then none
  else if selector >>> 3 = 0 then none
  else if (selector >>> 3).toNat * 8 + 7 ≤ ptr.limit.toNat then
    some (segment (gdt (selector >>> 3)).packed)
  else none

/-- The bytes of a segment; bit 3 of the flags counts pages. -/
def extent (found : Segment) : Nat :=
  if found.flags.getLsbD 3 then (found.limit.toNat + 1) * 4096 else found.limit.toNat + 1

/-- The linear address of an offset. -/
def linear (found : Segment) (offset : Word) : Option Word :=
  if offset.toNat < extent found then some (found.base + offset) else none

/-- A segment that is the whole address space. -/
def flat (access : Byte) : Segment where
  base := 0
  limit := 0xFFFFF
  access := access
  flags := 0xC

theorem linear_flat (access : Byte) (offset : Word) : linear (flat access) offset = some offset := by
  have whole : extent (flat access) = 2 ^ 32 := by
    have pages : (0xC : BitVec 4).getLsbD 3 = true := by decide
    have limit : (0xFFFFF : Word).toNat = 0xFFFFF := by decide
    simp only [extent, flat, pages, if_true, limit, Nat.reduceAdd, Nat.reduceMul, Nat.reducePow]
  rw [linear, whole, if_pos offset.isLt]
  exact congrArg some (BitVec.zero_add offset)

/-- `init_gdt` writes the five entries and no other. -/
theorem initGdt_other (gdt : GlobalDescriptorTable) (num : Half) (other : 5 ≤ num.toNat) :
    initGdt gdt num = gdt num := by
  have apart (written : Half) (small : written.toNat < 5) : num ≠ written := by
    rintro rfl
    omega
  simp only [initGdt, setGdtEntry_eq]
  rw [Function.update_of_ne (apart 4 (by decide)), Function.update_of_ne (apart 3 (by decide)),
    Function.update_of_ne (apart 2 (by decide)), Function.update_of_ne (apart 1 (by decide)),
    Function.update_of_ne (apart 0 (by decide))]

theorem segment_flat (access : Byte) :
    segment (descriptor 0 0xFFFFFFFF access 0xCF).packed = flat access := by
  rw [segment_descriptor]
  rfl

/-- The entries that `init_gdt` writes. -/
theorem initGdt_entries (gdt : GlobalDescriptorTable) :
    segment (initGdt gdt 1).packed = flat 0x9A ∧ segment (initGdt gdt 2).packed = flat 0x92 ∧
      segment (initGdt gdt 3).packed = flat 0xFA ∧ segment (initGdt gdt 4).packed = flat 0xF2 := by
  simp only [initGdt, setGdtEntry_eq]
  refine ⟨?_, ?_, ?_, ?_⟩
  · rw [Function.update_of_ne (by decide), Function.update_of_ne (by decide),
      Function.update_of_ne (by decide), Function.update_self, segment_flat]
  · rw [Function.update_of_ne (by decide), Function.update_of_ne (by decide),
      Function.update_self, segment_flat]
  · rw [Function.update_of_ne (by decide), Function.update_self, segment_flat]
  · rw [Function.update_self, segment_flat]

/-- The segment that a selector names, by the index in the selector: code and data of the
kernel, code and data of the user. -/
def named (index : Half) : Option Segment :=
  if index = 1 then some (flat 0x9A)
  else if index = 2 then some (flat 0x92)
  else if index = 3 then some (flat 0xFA)
  else if index = 4 then some (flat 0xF2)
  else none

theorem lookup_initGdt (gdt : GlobalDescriptorTable) (base : Word) (selector : Half) :
    lookup (gdtPtr base) (initGdt gdt) selector =
      if selector.getLsbD 2 then none else named (selector >>> 3) := by
  have limit : (gdtPtr base).limit.toNat = 39 := rfl
  obtain ⟨kernelCode, kernelData, userCode, userData⟩ := initGdt_entries gdt
  rw [lookup, limit]
  generalize selector >>> 3 = index
  split
  · rfl
  by_cases past : 5 ≤ index.toNat
  · have apart (small : Half) (inside : small.toNat < 5) : index ≠ small := by
      rintro rfl
      omega
    rw [if_neg (apart 0 (by decide)), if_neg (by omega), named, if_neg (apart 1 (by decide)),
      if_neg (apart 2 (by decide)), if_neg (apart 3 (by decide)), if_neg (apart 4 (by decide))]
  · have entry : index = 0 ∨ index = 1 ∨ index = 2 ∨ index = 3 ∨ index = 4 := by bv_omega
    rcases entry with rfl | rfl | rfl | rfl | rfl
    · rfl
    · rw [kernelCode]
      rfl
    · rw [kernelData]
      rfl
    · rw [userCode]
      rfl
    · rw [userData]
      rfl

/-- A selector names a segment only if the segment is the whole address space. -/
theorem named_flat (index : Half) (found : Segment) (name : named index = some found) :
    ∃ access, found = flat access := by
  rw [named] at name
  split at name
  · exact ⟨0x9A, (Option.some.inj name).symm⟩
  split at name
  · exact ⟨0x92, (Option.some.inj name).symm⟩
  split at name
  · exact ⟨0xFA, (Option.some.inj name).symm⟩
  split at name
  · exact ⟨0xF2, (Option.some.inj name).symm⟩
  · cases name

/-- Whatever the memory of the table was, after `init_gdt` every selector of the processor
that names a segment names one in which an offset is its own linear address; the five
entries alone are written; and the code segment of the kernel is what every gate of a
constructed interrupt manager names, and every first frame of a task, and `gdt_flush`
in the code register, whose other registers name the kernel's data segment. -/
theorem segments_flat (gdt : GlobalDescriptorTable) (base : Word) :
    (∀ selector found, lookup (gdtPtr base) (initGdt gdt) selector = some found →
        ∀ offset, linear found offset = some offset) ∧
      (∀ num : Half, 5 ≤ num.toNat → initGdt gdt num = gdt num) ∧
      (∀ link before taskManager vector,
        lookup (gdtPtr base) (initGdt gdt) (gate ((InterruptManager.construct link before
          taskManager).interruptDescriptorTable vector).packed).selector = some (flat 0x9A)) ∧
      (∀ entrypoint cs, (TaskManager.CPUState.cs, cs) ∈ TaskManager.Task.frame entrypoint →
        lookup (gdtPtr base) (initGdt gdt) (cs.setWidth 16) = some (flat 0x9A)) ∧
      lookup (gdtPtr base) (initGdt gdt) gdtFlush.cs = some (flat 0x9A) ∧
      ∀ selector ∈ [gdtFlush.ds, gdtFlush.es, gdtFlush.fs, gdtFlush.gs, gdtFlush.ss],
        lookup (gdtPtr base) (initGdt gdt) selector = some (flat 0x92) := by
  have kernelCode : lookup (gdtPtr base) (initGdt gdt) 0x08 = some (flat 0x9A) := by
    rw [lookup_initGdt]
    rfl
  have kernelData : lookup (gdtPtr base) (initGdt gdt) 0x10 = some (flat 0x92) := by
    rw [lookup_initGdt]
    rfl
  refine ⟨?_, initGdt_other gdt, ?_, ?_, kernelCode, ?_⟩
  · intro selector found loaded offset
    rw [lookup_initGdt] at loaded
    split at loaded
    · cases loaded
    · obtain ⟨access, rfl⟩ := named_flat _ found loaded
      exact linear_flat access offset
  · intro link before taskManager vector
    rw [InterruptDispatch.construct_gate, InterruptDispatch.gateOf, gate_gateDescriptor]
    exact kernelCode
  · intro entrypoint cs member
    have value : cs = 0x08 := by simpa [TaskManager.Task.frame] using member
    rw [value]
    exact kernelCode
  · intro selector member
    have value : selector = 0x10 := by simpa [gdtFlush] using member
    rw [value]
    exact kernelData

end BlueOs.Segmentation
