import BlueOs.Library.Numerals
import BlueOs.NumberPrinting

/-!
# The digit buffer

`print_dec` once more, with the sixteen bytes of its buffer: what they hold at first is
not initialised, and an index outside them is a fault. Ten digits are enough for every
word, so there is none, and what is printed can be read back, as can the hexadecimal
digits of `print_hex` and `print_hex32`.
-/

namespace BlueOs.DigitBuffer

open NumberPrinting Numerals

/-- `char buf[16]` and `i` -/
structure Buffer where
  buf : Fin 16 → Char
  i : Nat

/-- `buf[i++] = '0' + digit` -/
def Buffer.store (buffer : Buffer) (digit : Word) : Option Buffer :=
  if inside : buffer.i < 16 then
    some
      { buf := Function.update buffer.buf ⟨buffer.i, inside⟩ (decimalDigit digit)
        i := buffer.i + 1 }
  else none

/-- The loop that divides the number. -/
def divide (num : Word) (buffer : Buffer) : Option Buffer :=
  if num = 0 then some buffer else (buffer.store (num % 10)).bind (divide (num / 10))
termination_by num.toNat
decreasing_by
  have positive : num.toNat ≠ 0 := by bv_omega
  rw [tenth_toNat]
  omega

/-- `buf[j]` -/
def Buffer.character (buffer : Buffer) (j : Nat) : Option Char :=
  if inside : j < 16 then some (buffer.buf ⟨j, inside⟩) else none

/-- The loop that prints the buffer. -/
def Buffer.text (buffer : Buffer) : Option (List Char) :=
  (List.range buffer.i).reverse.mapM buffer.character

def printDec (contents : Fin 16 → Char) (num : Word) : Option (List Char) :=
  if num = 0 then some ['0'] else (divide num ⟨contents, 0⟩).bind Buffer.text

/-- A buffer holds the digits of one without bounds. -/
structure Agrees (buffer : Buffer) (digits : Digits) : Prop where
  counted : buffer.i = digits.i
  inside : buffer.i ≤ 16
  same : ∀ index : Fin 16, index.val < buffer.i → buffer.buf index = digits.buf index.val

theorem store_agrees (buffer : Buffer) (digits : Digits) (agrees : Agrees buffer digits)
    (room : buffer.i < 16) (digit : Word) :
    ∃ after, buffer.store digit = some after ∧ Agrees after (digits.store digit) := by
  refine ⟨_, dif_pos room, ?_, room, ?_⟩
  · exact congrArg (· + 1) agrees.counted
  · intro index stored
    dsimp only [Digits.store] at stored ⊢
    rw [← agrees.counted]
    by_cases last : index.val = buffer.i
    · have here : index = ⟨buffer.i, room⟩ := Fin.ext last
      rw [last, here, Function.update_self, Function.update_self]
    · have elsewhere : index ≠ ⟨buffer.i, room⟩ := fun here => last (congrArg Fin.val here)
      rw [Function.update_of_ne elsewhere, Function.update_of_ne last]
      exact agrees.same index (by omega)

/-- The digits still to come fit into the rest of the buffer. -/
theorem divide_agrees (num : Word) (buffer : Buffer) (digits : Digits)
    (agrees : Agrees buffer digits) (fits : num.toNat < 10 ^ (16 - buffer.i)) :
    ∃ after, divide num buffer = some after ∧ Agrees after (NumberPrinting.divide num digits) := by
  induction num, digits using NumberPrinting.divide.induct generalizing buffer with
  | case1 digits =>
    rw [divide, NumberPrinting.divide, if_pos rfl, if_pos rfl]
    exact ⟨buffer, rfl, agrees⟩
  | case2 num digits positive inductionHypothesis =>
    have nonzero : num.toNat ≠ 0 := by bv_omega
    have rest := tenth_toNat num
    have inside := agrees.inside
    have room : buffer.i < 16 := by
      by_contra full
      rw [show 16 - buffer.i = 0 by omega, Nat.pow_zero] at fits
      omega
    obtain ⟨stored, storing, held⟩ := store_agrees buffer digits agrees room (num % 10)
    have next : stored.i = buffer.i + 1 := held.counted.trans
      (congrArg (· + 1) agrees.counted.symm)
    have fewer : (num / 10).toNat < 10 ^ (16 - stored.i) := by
      rw [show 16 - buffer.i = 16 - stored.i + 1 by omega, Nat.pow_succ] at fits
      omega
    rw [divide, NumberPrinting.divide, if_neg positive, if_neg positive, storing,
      Option.bind_some]
    exact inductionHypothesis stored held fewer

theorem mapM_character (buffer : Buffer) (digits : Digits) (agrees : Agrees buffer digits)
    (indices : List Nat) (stored : ∀ index ∈ indices, index < buffer.i) :
    indices.mapM buffer.character = some (indices.map digits.buf) := by
  induction indices with
  | nil => rfl
  | cons index rest inductionHypothesis =>
    have here := stored index List.mem_cons_self
    have inside := agrees.inside
    have character : buffer.character index = some (digits.buf index) := by
      rw [Buffer.character, dif_pos (by omega)]
      exact congrArg some (agrees.same ⟨index, by omega⟩ here)
    have later := inductionHypothesis fun other listed =>
      stored other (List.mem_cons_of_mem index listed)
    rw [List.mapM_cons, character, later]
    rfl

/-- The bounded buffer prints what the unbounded one does. -/
theorem printDec_eq_some (contents : Fin 16 → Char) (num : Word) :
    printDec contents num = some (Nat.toDigits 10 num.toNat) := by
  rw [← NumberPrinting.printDec_eq, printDec, NumberPrinting.printDec]
  by_cases zero : num = 0
  · rw [if_pos zero, if_pos zero]
  · have empty : Agrees ⟨contents, 0⟩ ⟨fun _ => Char.ofNat 0, 0⟩ :=
      ⟨rfl, Nat.zero_le 16, fun _ none => absurd none (Nat.not_lt_zero _)⟩
    have bound := num.isLt
    obtain ⟨after, divided, held⟩ := divide_agrees num _ _ empty
      (show num.toNat < 10 ^ 16 by omega)
    rw [if_neg zero, if_neg zero, divided, Option.bind_some, Buffer.text, Digits.text,
      mapM_character after _ held, held.counted]
    intro index listed
    rw [List.mem_reverse, List.mem_range] at listed
    exact listed

/-- The four bits of a word from a position on. -/
theorem nibble_toNat (key : Word) (position : Nat) :
    ((key >>> position) &&& 0xF).toNat = key.toNat / 2 ^ position % 16 := by
  rw [BitVec.toNat_and, BitVec.toNat_ushiftRight, Nat.shiftRight_eq_div_pow]
  exact Nat.and_two_pow_sub_one_eq_mod _ 4

theorem digitOf_hex (nibble : Word) (small : nibble.toNat < 16) :
    digitOf 16 (hex nibble) = some nibble.toNat := by
  rw [hex]
  generalize nibble.toNat = value at small ⊢
  revert value
  decide

/-- After the digits down to a position, the next one brings in four more bits. -/
theorem readDigits_hex (characters : List Char) (key : Word) (position : Nat)
    (earlier : readDigits 16 characters = some (key.toNat / 2 ^ (position + 4))) :
    readDigits 16 (characters ++ [hex ((key >>> position) &&& 0xF)]) =
      some (key.toNat / 2 ^ position) := by
  have nibble := nibble_toNat key position
  have joined : 16 * (key.toNat / 2 ^ (position + 4)) + key.toNat / 2 ^ position % 16 =
      key.toNat / 2 ^ position := by
    rw [Nat.pow_add, ← Nat.div_div_eq_div_mul]
    exact Nat.div_add_mod _ 16
  rw [readDigits_append, earlier, Option.bind_some,
    digitOf_hex _ (by rw [nibble]; exact Nat.mod_lt _ (by decide)), nibble]
  exact congrArg some joined

theorem readDigits_printHex32 (key : Word) : readDigits 16 (printHex32 key) = some key.toNat := by
  have none : readDigits 16 [] = some (key.toNat / 2 ^ 32) := by
    rw [Nat.div_eq_of_lt key.isLt]
    rfl
  have one := readDigits_hex _ key 28 none
  have two := readDigits_hex _ key 24 one
  have three := readDigits_hex _ key 20 two
  have four := readDigits_hex _ key 16 three
  have five := readDigits_hex _ key 12 four
  have six := readDigits_hex _ key 8 five
  have seven := readDigits_hex _ key 4 six
  have eight := readDigits_hex _ key 0 seven
  rw [Nat.pow_zero, Nat.div_one] at eight
  exact eight

theorem readDigits_printHex (key : Byte) : readDigits 16 (printHex key) = some key.toNat := by
  have value : (key.setWidth 32).toNat = key.toNat := BitVec.toNat_setWidth_of_le (by decide)
  have none : readDigits 16 [] = some ((key.setWidth 32).toNat / 2 ^ 8) := by
    rw [value, Nat.div_eq_of_lt key.isLt]
    rfl
  have one := readDigits_hex _ (key.setWidth 32) 4 none
  have two := readDigits_hex _ (key.setWidth 32) 0 one
  rw [Nat.pow_zero, Nat.div_one, value] at two
  exact two

/-- Every word and byte is read back from what is printed for it: `print_dec` stays in its
buffer and prints the decimal numeral, the hexadecimal functions a digit for every four
bits. -/
theorem numbers_read_back :
    (∀ contents num, ∃ characters, printDec contents num = some characters ∧
        characters = Nat.toDigits 10 num.toNat ∧ readDigits 10 characters = some num.toNat ∧
        (characters.head? = some '0' → characters = ['0'])) ∧
      (∀ key : Word, (printHex32 key).length = 8 ∧
        readDigits 16 (printHex32 key) = some key.toNat) ∧
      ∀ key : Byte, (printHex key).length = 2 ∧
        readDigits 16 (printHex key) = some key.toNat := by
  refine ⟨?_, ?_, ?_⟩
  · intro contents num
    refine ⟨_, printDec_eq_some contents num, rfl, ?_, ?_⟩
    · exact readDigits_toDigits 10 (by decide) (Nat.le_refl 10) num.toNat
    · intro zero
      rcases Nat.eq_zero_or_pos num.toNat with none | positive
      · rw [none]
        exact Nat.toDigits_zero 10
      · exact absurd zero (head_toDigits 10 (by decide) (Nat.le_refl 10) num.toNat positive)
  · exact fun key => ⟨rfl, readDigits_printHex32 key⟩
  · exact fun key => ⟨rfl, readDigits_printHex key⟩

end BlueOs.DigitBuffer
