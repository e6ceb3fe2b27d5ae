import Mathlib.Data.BitVec
import Mathlib.Logic.Function.Basic

/-!
# Printing numbers

A program's output is recorded as its calls of the print functions, and the characters
that the number printing functions hand to `print` are computed from the number. `print_dec` stores
the digits in a buffer, the last one first, and prints the buffer from its end; the
hexadecimal functions fill in a digit for every nibble.
-/

namespace BlueOs.NumberPrinting

abbrev Word := BitVec 32
abbrev Byte := BitVec 8

/-- A call of one of the print functions. -/
inductive Printed where
  | text (str : String)
  | hex (key : Byte)
  | hex32 (key : Word)
  | dec (num : Word)
deriving DecidableEq

/-- The buffer and the number of digits stored in it. -/
structure Digits where
  buf : Nat → Char
  i : Nat

/-- `'0' + digit` -/
def decimalDigit (digit : Word) : Char := Char.ofNat ('0'.toNat + digit.toNat)

def Digits.store (digits : Digits) (digit : Word) : Digits where
  buf := Function.update digits.buf digits.i (decimalDigit digit)
  i := digits.i + 1

theorem tenth_toNat (num : Word) : (num / 10).toNat = num.toNat / 10 := BitVec.toNat_udiv

/-- The loop that divides the number. -/
def divide (num : Word) (digits : Digits) : Digits :=
  if num = 0 then digits else divide (num / 10) (digits.store (num % 10))
termination_by num.toNat
decreasing_by
  have positive : num.toNat ≠ 0 := by bv_omega
  rw [tenth_toNat]
  omega

/-- The loop that prints the buffer. -/
def Digits.text (digits : Digits) : List Char := (List.range digits.i).reverse.map digits.buf

def printDec (num : Word) : List Char :=
  if num = 0 then ['0'] else (divide num ⟨fun _ => Char.ofNat 0, 0⟩).text

/-- `hex[nibble]` -/
def hex (nibble : Word) : Char := "0123456789ABCDEF".toList.getD nibble.toNat '0'

def printHex (key : Byte) : List Char :=
  let key := key.setWidth 32
  [hex ((key >>> 4) &&& 0xF), hex (key &&& 0xF)]

def printHex32 (key : Word) : List Char :=
  [hex ((key >>> 28) &&& 0xF), hex ((key >>> 24) &&& 0xF), hex ((key >>> 20) &&& 0xF),
    hex ((key >>> 16) &&& 0xF), hex ((key >>> 12) &&& 0xF), hex ((key >>> 8) &&& 0xF),
    hex ((key >>> 4) &&& 0xF), hex (key &&& 0xF)]

theorem decimalDigit_eq (digit : Word) (small : digit.toNat < 10) :
    decimalDigit digit = Nat.digitChar digit.toNat := by
  rw [decimalDigit]
  generalize digit.toNat = value at small ⊢
  revert value
  decide

theorem text_store (digits : Digits) (digit : Word) :
    (digits.store digit).text = decimalDigit digit :: digits.text := by
  have earlier : (List.range digits.i).reverse.map (digits.store digit).buf = digits.text := by
    apply List.map_congr_left
    intro index member
    rw [List.mem_reverse, List.mem_range] at member
    exact Function.update_of_ne (by omega) _ _
  rw [Digits.text, Digits.store, List.range_succ, List.reverse_append]
  change Function.update _ _ _ _ :: _ = _
  rw [Function.update_self]
  exact congrArg _ earlier

/-- The loop puts the numeral before the digits that were stored earlier. -/
theorem text_divide (num : Word) (digits : Digits) :
    (divide num digits).text =
      (if num = 0 then [] else Nat.toDigits 10 num.toNat) ++ digits.text := by
  induction num, digits using divide.induct with
  | case1 digits => rw [divide, if_pos rfl, if_pos rfl, List.nil_append]
  | case2 num digits positive inductionHypothesis =>
    have digit : (num % 10).toNat = num.toNat % 10 := BitVec.toNat_umod
    have rest := tenth_toNat num
    have nonzero : num.toNat ≠ 0 := by bv_omega
    rw [divide, if_neg positive, if_neg positive, inductionHypothesis, text_store,
      decimalDigit_eq _ (by omega), digit, rest]
    by_cases small : num.toNat < 10
    · have last : num / 10 = 0 := BitVec.eq_of_toNat_eq (rest.trans (Nat.div_eq_of_lt small))
      rw [if_pos last, Nat.toDigits_of_lt_base small, Nat.mod_eq_of_lt small]
      rfl
    · have more : num / 10 ≠ 0 := by
        intro none
        rw [none] at rest
        change 0 = num.toNat / 10 at rest
        omega
      rw [if_neg more, Nat.toDigits_of_base_le (by decide) (Nat.le_of_not_lt small),
        List.append_assoc]
      rfl

/-- The characters that a call puts on the screen. -/
def Printed.characters : Printed → List Char
  | text str => str.toList
  | hex key => printHex key
  | hex32 key => printHex32 key
  | dec num => printDec num

/-- `print_dec` prints the decimal numeral. -/
theorem printDec_eq (num : Word) : printDec num = Nat.toDigits 10 num.toNat := by
  rw [printDec]
  split
  case isTrue zero =>
    subst zero
    exact (Nat.toDigits_zero 10).symm
  case isFalse positive =>
    rw [text_divide, if_neg positive]
    exact List.append_nil _

/-- Different numbers have different numerals. -/
theorem toDigits_inj (one other : Nat) :
    Nat.toDigits 10 one = Nat.toDigits 10 other ↔ one = other := by
  constructor
  · intro same
    rw [← @Nat.ofDigitChars_ten_toDigits one, same, Nat.ofDigitChars_ten_toDigits]
  · exact congrArg _

end BlueOs.NumberPrinting
