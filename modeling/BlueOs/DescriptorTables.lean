import BlueOs.InterruptManager
import BlueOs.Library.LatestWrites
import Mathlib.Tactic.IntervalCases

/-!
# Descriptors as the processor reads them

A segment descriptor and a gate are eight bytes whose fields the processor finds at
fixed bits. The source fills in the members of packed structures; the first member has
the lowest bytes.
-/

namespace BlueOs.DescriptorTables

open InterruptManager

abbrev Byte := BitVec 8
abbrev Half := BitVec 16
abbrev Word := BitVec 32

structure GDTEntry where
  limitLow : Half
  baseLow : Half
  baseMiddle : Byte
  access : Byte
  granularity : Byte
  baseHigh : Byte
deriving DecidableEq

/-- The entries from `gdt` on, for every index that the parameter can have. -/
abbrev GlobalDescriptorTable := Half → GDTEntry

/-- Assign members of `gdt[num]`. -/
def modify (gdt : GlobalDescriptorTable) (num : Half) (change : GDTEntry → GDTEntry) :
    GlobalDescriptorTable := Function.update gdt num (change (gdt num))

def setGdtEntry (gdt : GlobalDescriptorTable) (num : Half) (base limit : Word)
    (access granularuity : Byte) : GlobalDescriptorTable :=
  let gdt := modify gdt num fun entry => { entry with baseLow := (base &&& 0xFFFF).setWidth 16 }
  let gdt := modify gdt num fun entry =>
    { entry with baseMiddle := ((base >>> 16) &&& 0xFF).setWidth 8 }
  let gdt := modify gdt num fun entry =>
    { entry with baseHigh := ((base >>> 24) &&& 0xFF).setWidth 8 }
  let gdt := modify gdt num fun entry => { entry with limitLow := (limit &&& 0xFFFF).setWidth 16 }
  let gdt := modify gdt num fun entry =>
    { entry with granularity := ((limit >>> 16) &&& 0x0F).setWidth 8 }
  let gdt := modify gdt num fun entry =>
    { entry with granularity := entry.granularity ||| (granularuity &&& 0xF0) }
  modify gdt num fun entry => { entry with access := access }

/-- The eight bytes of an entry, the first one least significant. -/
def GDTEntry.packed (entry : GDTEntry) : BitVec 64 :=
  entry.baseHigh ++ entry.granularity ++ entry.access ++ entry.baseMiddle ++ entry.baseLow ++
    entry.limitLow

/-- A segment, as the processor finds it in a descriptor. -/
structure Segment where
  base : Word
  limit : Word
  access : Byte
  flags : BitVec 4
deriving DecidableEq

def segment (descriptor : BitVec 64) : Segment where
  base := descriptor.extractLsb' 56 8 ++ descriptor.extractLsb' 16 24
  limit := (descriptor.extractLsb' 48 4 ++ descriptor.extractLsb' 0 16).setWidth 32
  access := descriptor.extractLsb' 40 8
  flags := descriptor.extractLsb' 52 4

end BlueOs.DescriptorTables

namespace BlueOs.InterruptManager

/-- The eight bytes of a gate, the first one least significant. -/
def GateDescriptor.packed (gate : GateDescriptor) : BitVec 64 :=
  gate.handlerAddressHighBits ++ gate.access ++ gate.reserved ++ gate.gdtCodeSegmentSelector ++
    gate.handlerAddressLowerBits

end BlueOs.InterruptManager

namespace BlueOs.DescriptorTables

open InterruptManager LatestWrites

/-- A gate, as the processor finds it in a descriptor. -/
structure Gate where
  handlerAddress : Word
  selector : Half
  privilege : Byte
  type : Byte
  present : Bool
deriving DecidableEq

def gate (descriptor : BitVec 64) : Gate where
  handlerAddress := descriptor.extractLsb' 48 16 ++ descriptor.extractLsb' 0 16
  selector := descriptor.extractLsb' 16 16
  privilege := (descriptor.extractLsb' 45 2).setWidth 8
  type := (descriptor.extractLsb' 40 5).setWidth 8
  present := descriptor.getLsbD 47

/-- The entry that the assignments leave. -/
def descriptor (base limit : Word) (access granularuity : Byte) : GDTEntry where
  limitLow := (limit &&& 0xFFFF).setWidth 16
  baseLow := (base &&& 0xFFFF).setWidth 16
  baseMiddle := ((base >>> 16) &&& 0xFF).setWidth 8
  access := access
  granularity := ((limit >>> 16) &&& 0x0F).setWidth 8 ||| (granularuity &&& 0xF0)
  baseHigh := ((base >>> 24) &&& 0xFF).setWidth 8

theorem setGdtEntry_eq (gdt : GlobalDescriptorTable) (num : Half) (base limit : Word)
    (access granularuity : Byte) :
    setGdtEntry gdt num base limit access granularuity =
      Function.update gdt num (descriptor base limit access granularuity) := by
  simp only [setGdtEntry, modify, Function.update_self, Function.update_idem]
  rfl

/-- The fields of an entry, at the bits where the processor looks for them. -/
theorem packed_fields (entry : GDTEntry) :
    entry.packed.extractLsb' 0 16 = entry.limitLow ∧
      entry.packed.extractLsb' 16 24 = entry.baseMiddle ++ entry.baseLow ∧
      entry.packed.extractLsb' 40 8 = entry.access ∧
      entry.packed.extractLsb' 48 4 = entry.granularity.extractLsb' 0 4 ∧
      entry.packed.extractLsb' 52 4 = entry.granularity.extractLsb' 4 4 ∧
      entry.packed.extractLsb' 56 8 = entry.baseHigh := by
  refine ⟨?_, ?_, ?_, ?_, ?_, ?_⟩
  all_goals
    apply BitVec.eq_of_getLsbD_eq
    intro bit inside
    simp only [GDTEntry.packed, BitVec.getLsbD_extractLsb', BitVec.getLsbD_append]
    grind

/-- A part of a word that is shifted down and masked is a slice of it. -/
theorem masked_slice (word : Word) (start width : Nat) (fits : width ≤ 32) :
    ((word >>> start) &&& BitVec.ofNat 32 (2 ^ width - 1)).setWidth width =
      word.extractLsb' start width := by
  apply BitVec.eq_of_getLsbD_eq
  intro bit inside
  have wide : bit < 32 := by omega
  simp only [BitVec.getLsbD_setWidth, BitVec.getLsbD_and, BitVec.getLsbD_ushiftRight,
    BitVec.getLsbD_ofNat, BitVec.getLsbD_extractLsb', Nat.testBit_two_pow_sub_one, inside, wide,
    decide_true, Bool.true_and, Bool.and_true]

theorem low_half (word : Word) : (word &&& 0xFFFF).setWidth 16 = word.extractLsb' 0 16 :=
  masked_slice word 0 16 (by decide)

/-- The byte that the limit and the flags share, a nibble each. -/
theorem shared_nibbles (limit : Word) (granularuity : Byte) :
    (((limit >>> 16) &&& 0x0F).setWidth 8 ||| (granularuity &&& 0xF0)).extractLsb' 0 4 =
        limit.extractLsb' 16 4 ∧
      (((limit >>> 16) &&& 0x0F).setWidth 8 ||| (granularuity &&& 0xF0)).extractLsb' 4 4 =
        granularuity.extractLsb' 4 4 := by
  constructor
  all_goals
    apply BitVec.eq_of_getLsbD_eq
    intro bit inside
    interval_cases bit <;> simp

/-- Every part of a segment arrives where the processor looks for it; of the limit, the
low twenty bits. -/
theorem segment_descriptor (base limit : Word) (access granularuity : Byte) :
    segment (descriptor base limit access granularuity).packed =
      { base := base
        limit := (limit.setWidth 20).setWidth 32
        access := access
        flags := granularuity.extractLsb' 4 4 } := by
  obtain ⟨limitLow, baseLow, accessed, limitHigh, flags, baseHigh⟩ :=
    packed_fields (descriptor base limit access granularuity)
  obtain ⟨low, high⟩ := shared_nibbles limit granularuity
  have middle : ((base >>> 16) &&& 0xFF).setWidth 8 = base.extractLsb' 16 8 :=
    masked_slice base 16 8 (by decide)
  have top : ((base >>> 24) &&& 0xFF).setWidth 8 = base.extractLsb' 24 8 :=
    masked_slice base 24 8 (by decide)
  rw [segment, limitLow, baseLow, accessed, limitHigh, flags, baseHigh]
  simp only [descriptor, low_half, middle, top, low, high]
  rw [Segment.mk.injEq]
  refine ⟨?_, ?_, rfl, rfl⟩
  all_goals
    apply BitVec.eq_of_getLsbD_eq
    intro bit inside
    simp only [BitVec.getLsbD_append, BitVec.getLsbD_extractLsb', BitVec.getLsbD_setWidth]
    grind

/-- The fields of a gate, at the bits where the processor looks for them. -/
theorem gate_fields (descriptor : GateDescriptor) :
    descriptor.packed.extractLsb' 0 16 = descriptor.handlerAddressLowerBits ∧
      descriptor.packed.extractLsb' 16 16 = descriptor.gdtCodeSegmentSelector ∧
      descriptor.packed.extractLsb' 40 5 = descriptor.access.extractLsb' 0 5 ∧
      descriptor.packed.extractLsb' 45 2 = descriptor.access.extractLsb' 5 2 ∧
      descriptor.packed.getLsbD 47 = descriptor.access.getLsbD 7 ∧
      descriptor.packed.extractLsb' 48 16 = descriptor.handlerAddressHighBits := by
  refine ⟨?_, ?_, ?_, ?_, ?_, ?_⟩
  case refine_5 =>
    simp only [GateDescriptor.packed, BitVec.getLsbD_append]
    grind
  all_goals
    apply BitVec.eq_of_getLsbD_eq
    intro bit inside
    simp only [GateDescriptor.packed, BitVec.getLsbD_extractLsb', BitVec.getLsbD_append]
    grind

/-- The byte that the type, the privilege and the present bit share. -/
theorem shared_access (codeSegmentSelector : Half) (handlerAddr : Word)
    (descriptorPriviledgeLevel descriptorType : Byte) :
    let access := (gateDescriptor codeSegmentSelector handlerAddr descriptorPriviledgeLevel
      descriptorType).access
    access.extractLsb' 0 5 = descriptorType.extractLsb' 0 5 ∧
      access.extractLsb' 5 2 = descriptorPriviledgeLevel.extractLsb' 0 2 ∧
      access.getLsbD 7 = true := by
  simp only [gateDescriptor]
  refine ⟨?_, ?_, ?_⟩
  case refine_3 => simp
  all_goals
    apply BitVec.eq_of_getLsbD_eq
    intro bit inside
    interval_cases bit <;> simp

/-- Every part of a gate arrives where the processor looks for it; of the privilege and
the type, the low two and five bits. -/
theorem gate_gateDescriptor (codeSegmentSelector : Half) (handlerAddr : Word)
    (descriptorPriviledgeLevel descriptorType : Byte) :
    gate (gateDescriptor codeSegmentSelector handlerAddr descriptorPriviledgeLevel
        descriptorType).packed =
      { handlerAddress := handlerAddr
        selector := codeSegmentSelector
        privilege := (descriptorPriviledgeLevel.extractLsb' 0 2).setWidth 8
        type := (descriptorType.extractLsb' 0 5).setWidth 8
        present := true } := by
  obtain ⟨lower, selector, type, level, present, high⟩ := gate_fields (gateDescriptor
    codeSegmentSelector handlerAddr descriptorPriviledgeLevel descriptorType)
  obtain ⟨typed, privileged, presented⟩ := shared_access codeSegmentSelector handlerAddr
    descriptorPriviledgeLevel descriptorType
  have top : ((handlerAddr >>> 16) &&& 0xFFFF).setWidth 16 = handlerAddr.extractLsb' 16 16 :=
    masked_slice handlerAddr 16 16 (by decide)
  rw [gate, lower, selector, type, level, present, high, typed, privileged, presented]
  simp only [gateDescriptor, low_half, top]
  rw [Gate.mk.injEq]
  refine ⟨?_, rfl, rfl, rfl, rfl⟩
  apply BitVec.eq_of_getLsbD_eq
  intro bit inside
  simp only [BitVec.getLsbD_append, BitVec.getLsbD_extractLsb']
  grind

/-- The arguments of a call of `set_gdt_entry`. -/
structure SegmentCall where
  num : Half
  base : Word
  limit : Word
  access : Byte
  granularuity : Byte

def SegmentCall.descriptor (call : SegmentCall) : GDTEntry :=
  DescriptorTables.descriptor call.base call.limit call.access call.granularuity

/-- The segment that a call describes. -/
def SegmentCall.segment (call : SegmentCall) : Segment where
  base := call.base
  limit := call.limit
  access := call.access
  flags := call.granularuity.extractLsb' 4 4

def setSegments (gdt : GlobalDescriptorTable) (calls : List SegmentCall) : GlobalDescriptorTable :=
  calls.foldl (fun gdt call =>
    setGdtEntry gdt call.num call.base call.limit call.access call.granularuity) gdt

/-- The arguments of a call of `setInterruptDescriptorEntry`. -/
structure GateCall where
  interruptNumber : Byte
  codeSegmentSelector : Half
  handler : Word
  descriptorPriviledgeLevel : Byte
  descriptorType : Byte

def GateCall.descriptor (call : GateCall) : GateDescriptor :=
  gateDescriptor call.codeSegmentSelector call.handler call.descriptorPriviledgeLevel
    call.descriptorType

/-- The gate that a call describes. -/
def GateCall.gate (call : GateCall) : Gate where
  handlerAddress := call.handler
  selector := call.codeSegmentSelector
  privilege := call.descriptorPriviledgeLevel
  type := call.descriptorType
  present := true

def setGates (table : InterruptDescriptorTable) (calls : List GateCall) :
    InterruptDescriptorTable :=
  calls.foldl (fun table call =>
    setInterruptDescriptorEntry table call.interruptNumber call.codeSegmentSelector call.handler
      call.descriptorPriviledgeLevel call.descriptorType) table

theorem setSegments_eq (gdt : GlobalDescriptorTable) (calls : List SegmentCall) :
    setSegments gdt calls = write SegmentCall.num SegmentCall.descriptor gdt calls := by
  simp only [setSegments, setGdtEntry_eq]
  rfl

theorem setGates_eq (table : InterruptDescriptorTable) (calls : List GateCall) :
    setGates table calls = write GateCall.interruptNumber GateCall.descriptor table calls := rfl

/-- A number that fits a field is read back from it. -/
theorem setWidth_setWidth_of_lt {size : Nat} (value : BitVec size) (width : Nat)
    (small : value.toNat < 2 ^ width) : (value.setWidth width).setWidth size = value := by
  apply BitVec.eq_of_toNat_eq
  rw [BitVec.toNat_setWidth, BitVec.toNat_setWidth, Nat.mod_eq_of_lt small,
    Nat.mod_eq_of_lt value.isLt]

theorem SegmentCall.decodes (call : SegmentCall) (small : call.limit.toNat < 2 ^ 20) :
    DescriptorTables.segment call.descriptor.packed = call.segment := by
  rw [SegmentCall.descriptor, segment_descriptor, SegmentCall.segment,
    setWidth_setWidth_of_lt call.limit 20 small]

theorem GateCall.decodes (call : GateCall) (level : call.descriptorPriviledgeLevel.toNat < 4)
    (type : call.descriptorType.toNat < 32) :
    DescriptorTables.gate call.descriptor.packed = call.gate := by
  rw [GateCall.descriptor, gate_gateDescriptor, GateCall.gate,
    ← BitVec.setWidth_eq_extractLsb' (by decide), ← BitVec.setWidth_eq_extractLsb' (by decide),
    setWidth_setWidth_of_lt _ 2 level, setWidth_setWidth_of_lt _ 5 type]

/-- After any sequence of calls, an entry of either table decodes to the arguments of the
last call made for it; an entry for which none was made is unchanged. -/
theorem descriptors_decode (gdt : GlobalDescriptorTable) (segments : List SegmentCall) (num : Half)
    (table : InterruptDescriptorTable) (gates : List GateCall) (vector : Byte) :
    ((∀ call, latest SegmentCall.num segments num = some call → call.limit.toNat < 2 ^ 20 →
        segment (setSegments gdt segments num).packed = call.segment) ∧
      ((∀ call ∈ segments, call.num ≠ num) → setSegments gdt segments num = gdt num)) ∧
    (∀ call, latest GateCall.interruptNumber gates vector = some call →
        call.descriptorPriviledgeLevel.toNat < 4 → call.descriptorType.toNat < 32 →
        gate (setGates table gates vector).packed = call.gate) ∧
      ((∀ call ∈ gates, call.interruptNumber ≠ vector) →
        setGates table gates vector = table vector) := by
  rw [setSegments_eq, setGates_eq, write_apply, write_apply]
  refine ⟨⟨?_, ?_⟩, ?_, ?_⟩
  · intro call last small
    rw [last]
    exact call.decodes small
  · intro elsewhere
    rw [latest_eq_none _ segments num elsewhere]
    rfl
  · intro call last level type
    rw [last]
    exact call.decodes level type
  · intro elsewhere
    rw [latest_eq_none _ gates vector elsewhere]
    rfl

/-- A code segment written after a data segment, and a gate. -/
theorem descriptors_decode_kernel :
    segment (setSegments (fun _ => ⟨0, 0, 0, 0, 0, 0⟩)
        [⟨1, 0, 0xFFFFF, 0x92, 0xCF⟩, ⟨1, 0x12345678, 0xABCDE, 0x9A, 0xCF⟩] 1).packed =
        ⟨0x12345678, 0xABCDE, 0x9A, 0xC⟩ ∧
      gate (setGates (fun _ => ⟨0, 0, 0, 0, 0⟩) [⟨0x20, 0x08, 0x00101234, 3, 0xE⟩] 0x20).packed =
        ⟨0x00101234, 0x08, 3, 0xE, true⟩ := by
  have decoded := descriptors_decode (fun _ => ⟨0, 0, 0, 0, 0, 0⟩)
    [⟨1, 0, 0xFFFFF, 0x92, 0xCF⟩, ⟨1, 0x12345678, 0xABCDE, 0x9A, 0xCF⟩] 1
    (fun _ => ⟨0, 0, 0, 0, 0⟩) [⟨0x20, 0x08, 0x00101234, 3, 0xE⟩] 0x20
  exact ⟨decoded.1.1 _ rfl (by decide), decoded.2.1 _ rfl (by decide) (by decide)⟩

end BlueOs.DescriptorTables
