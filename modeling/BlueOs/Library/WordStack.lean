import BlueOs.Library.ByteMemory

/-!
# A descending stack of words in byte memory

A push moves the pointer four bytes down and stores there; a pop loads and moves
it up. `wordAt` numbers the words upward from an address, which is how a frame on
the stack is read as a record. Pushing a list, last word first, lays the list out
upward from the new pointer.

Addresses wrap, so every law holds for a stack that crosses address zero; lists
are bounded by the size of the address space only.
-/

namespace WordStack

open ByteMemory

/-- The word at a position in a record of words. -/
def wordAt (memory : Memory) (address : Address) (index : Nat) : Word :=
  load32 memory (address + BitVec.ofNat 32 (4 * index))

/-- Assign one word of a record of words. -/
def storeAt (memory : Memory) (address : Address) (index : Nat) (value : Word) : Memory :=
  store32 memory (address + BitVec.ofNat 32 (4 * index)) value

structure Stack where
  pointer : Address
  memory : Memory

def push (stack : Stack) (word : Word) : Stack where
  pointer := stack.pointer - 4
  memory := store32 stack.memory (stack.pointer - 4) word

def pop (stack : Stack) : Word × Stack :=
  (wordAt stack.memory stack.pointer 0, { stack with pointer := stack.pointer + 4 })

/-- Push a list so that its first word ends at the lowest address. -/
def pushAll (stack : Stack) (words : List Word) : Stack :=
  words.foldr (fun word below => push below word) stack

/-- After a pop the words are numbered from the next one. -/
@[simp] theorem wordAt_advance (memory : Memory) (address : Address) (index : Nat) :
    wordAt memory (address + 4#32) index = wordAt memory address (index + 1) := by
  have next : address + 4#32 + BitVec.ofNat 32 (4 * index) =
      address + BitVec.ofNat 32 (4 * (index + 1)) := by
    bv_omega
  simp only [wordAt, next]

/-- A record is determined by its own bytes. -/
theorem wordAt_congr (left right : Memory) (address : Address) (count index : Nat)
    (inside : index < count) (fits : 4 * count ≤ 2 ^ 32)
    (same : ∀ tested, (tested - address).toNat < 4 * count → left tested = right tested) :
    wordAt left address index = wordAt right address index := by
  apply load32_congr
  intro tested within
  apply same
  bv_omega

/-- The word just assigned is read back. -/
@[simp] theorem wordAt_storeAt_same (memory : Memory) (address : Address) (index : Nat)
    (value : Word) : wordAt (storeAt memory address index value) address index = value := by
  simp [wordAt, storeAt]

/-- The other words of a record keep their values. -/
theorem wordAt_storeAt_other (memory : Memory) (address : Address) (index tested : Nat)
    (value : Word) (distinct : tested ≠ index) (fits : index < 2 ^ 30) (bounded : tested < 2 ^ 30) :
    wordAt (storeAt memory address index value) address tested = wordAt memory address tested := by
  apply load32_store32_apart
  · bv_omega
  · bv_omega

/-- An assignment inside a record changes no byte beyond it. -/
theorem storeAt_other (memory : Memory) (address tested : Address) (count index : Nat)
    (value : Word) (inside : index < count) (outside : 4 * count ≤ (tested - address).toNat) :
    storeAt memory address index value tested = memory tested := by
  apply store32_other
  bv_omega

@[simp] theorem pushAll_nil (stack : Stack) : pushAll stack [] = stack := rfl

@[simp] theorem pushAll_cons (stack : Stack) (word : Word) (rest : List Word) :
    pushAll stack (word :: rest) = push (pushAll stack rest) word := rfl

theorem pushAll_pointer (stack : Stack) (words : List Word) :
    (pushAll stack words).pointer = stack.pointer - BitVec.ofNat 32 (4 * words.length) := by
  induction words with
  | nil => simp
  | cons word rest inductionHypothesis =>
    simp only [pushAll_cons, push, inductionHypothesis, List.length_cons]
    bv_omega

/-- The pushed words lie upward from the pointer in the order of the list. -/
theorem pushAll_word (stack : Stack) (words : List Word) (fits : 4 * words.length ≤ 2 ^ 32)
    (index : Nat) (inside : index < words.length) :
    wordAt (pushAll stack words).memory (pushAll stack words).pointer index = words[index] := by
  induction words generalizing index with
  | nil => simp at inside
  | cons word rest inductionHypothesis =>
    simp only [List.length_cons] at fits inside
    cases index with
    | zero => simp [push, wordAt]
    | succ index =>
      have lower : wordAt (pushAll stack rest).memory (pushAll stack rest).pointer index =
          rest[index] := inductionHypothesis (by omega) index (by omega)
      have shifted : (pushAll stack rest).pointer - 4 + BitVec.ofNat 32 (4 * (index + 1)) =
          (pushAll stack rest).pointer + BitVec.ofNat 32 (4 * index) := by
        bv_omega
      simp only [pushAll_cons, push, List.getElem_cons_succ, ← lower, wordAt, shifted]
      apply load32_store32_apart
      · bv_omega
      · bv_omega

/-- Pushes change no byte outside the words they lay out. -/
theorem pushAll_other (stack : Stack) (words : List Word) (fits : 4 * words.length ≤ 2 ^ 32)
    (tested : Address)
    (outside : 4 * words.length ≤ (tested - (pushAll stack words).pointer).toNat) :
    (pushAll stack words).memory tested = stack.memory tested := by
  induction words with
  | nil => rfl
  | cons word rest inductionHypothesis =>
    simp only [pushAll_cons, push, List.length_cons] at fits outside ⊢
    rw [store32_other _ _ _ _ (by bv_omega)]
    apply inductionHypothesis (by omega)
    bv_omega

end WordStack
