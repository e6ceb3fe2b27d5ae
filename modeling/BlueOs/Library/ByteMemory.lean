import Mathlib.Data.BitVec

/-!
# Byte-addressed memory of a 32-bit little-endian machine

A memory assigns a byte to every 32-bit address, and addresses wrap. A word
store overlays the four bytes at cyclic distance zero to three from its address;
a word load joins them with the first byte least significant. The frame laws are
stated with cyclic distances, so that they hold across the top of the address
space as well as below it.

Nothing here knows which program runs on the memory. Alignment, protection and
caching are not modelled.
-/

namespace ByteMemory

abbrev Address := BitVec 32
abbrev Byte := BitVec 8
abbrev Word := BitVec 32
abbrev Memory := Address → Byte

/-- Replace one byte. -/
def store8 (memory : Memory) (address : Address) (value : Byte) : Memory :=
  fun tested => if tested = address then value else memory tested

/-- The four bytes from an address, least significant first. -/
def load32 (memory : Memory) (address : Address) : Word :=
  memory (address + 3) ++ memory (address + 2) ++ memory (address + 1) ++ memory address

/-- The eight bytes from an address, least significant first. -/
def load64 (memory : Memory) (address : Address) : BitVec 64 :=
  load32 memory (address + 4) ++ load32 memory address

/-- Overlay the four bytes of a word at cyclic distances zero to three. -/
def store32 (memory : Memory) (address : Address) (value : Word) : Memory :=
  fun tested =>
    if (tested - address).toNat < 4 then value.extractLsb' (8 * (tested - address).toNat) 8
    else memory tested

@[simp] theorem store8_same (memory : Memory) (address : Address) (value : Byte) :
    store8 memory address value address = value := by
  simp [store8]

theorem store8_other (memory : Memory) (address tested : Address) (value : Byte)
    (distinct : tested ≠ address) : store8 memory address value tested = memory tested := by
  simp [store8, distinct]

/-- A byte outside the four written positions keeps its value. -/
theorem store32_other (memory : Memory) (address tested : Address) (value : Word)
    (outside : 4 ≤ (tested - address).toNat) :
    store32 memory address value tested = memory tested := by
  have notWritten : ¬ (tested - address).toNat < 4 := by omega
  simp only [store32, if_neg notWritten]

/-- A stored word is read back whole. -/
@[simp] theorem load32_store32 (memory : Memory) (address : Address) (value : Word) :
    load32 (store32 memory address value) address = value := by
  have first : (address + 1 - address).toNat = 1 := by bv_omega
  have second : (address + 2 - address).toNat = 2 := by bv_omega
  have third : (address + 3 - address).toNat = 3 := by bv_omega
  have start : (address - address).toNat = 0 := by simp
  simp only [load32, store32, first, second, third, start]
  ext index inside
  simp only [BitVec.getElem_append, BitVec.getElem_extractLsb', Nat.reduceLT, if_true]
  grind

/-- A word load sees only its own four bytes. -/
theorem load32_congr (left right : Memory) (address : Address)
    (same : ∀ tested, (tested - address).toNat < 4 → left tested = right tested) :
    load32 left address = load32 right address := by
  have zero := same address (by simp)
  have one := same (address + 1) (by bv_omega)
  have two := same (address + 2) (by bv_omega)
  have three := same (address + 3) (by bv_omega)
  simp only [load32, zero, one, two, three]

/-- Two words whose addresses are at least four apart in both directions do not
share a byte, so storing one leaves the other. -/
theorem load32_store32_apart (memory : Memory) (address tested : Address) (value : Word)
    (ahead : 4 ≤ (tested - address).toNat) (behind : 4 ≤ (address - tested).toNat) :
    load32 (store32 memory address value) tested = load32 memory tested := by
  apply load32_congr
  intro position within
  apply store32_other
  bv_omega

/-- A byte store outside a word leaves the word. -/
theorem load32_store8_apart (memory : Memory) (address tested : Address) (value : Byte)
    (outside : 4 ≤ (address - tested).toNat) :
    load32 (store8 memory address value) tested = load32 memory tested := by
  apply load32_congr
  intro position within
  apply store8_other
  rintro rfl
  omega

end ByteMemory
