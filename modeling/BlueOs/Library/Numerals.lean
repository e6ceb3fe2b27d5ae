import Mathlib.Algebra.Group.Nat.Defs
import Mathlib.Data.List.Basic

/-!
# Reading numerals back

A numeral is read from its first digit on, each digit adding to the base times what was
read before. Digits are those of the base, upper case from ten on; any other character
makes the numeral unreadable. Decimal numerals of positive numbers do not begin with a
zero; hexadecimal ones of a fixed length are filled up with zeros.
-/

namespace Numerals

/-- The value of a digit. -/
def digitOf (base : Nat) (character : Char) : Option Nat :=
  ("0123456789ABCDEF".toList.take base).idxOf? character

def readDigits (base : Nat) (characters : List Char) : Option Nat :=
  characters.foldlM (fun value character => (digitOf base character).map (base * value + ·)) 0

theorem digitOf_digitChar (base digit : Nat) (small : base ≤ 10) (inside : digit < base) :
    digitOf base (Nat.digitChar digit) = some digit := by
  revert digit
  revert base
  decide

theorem readDigits_append (base : Nat) (characters : List Char) (last : Char) :
    readDigits base (characters ++ [last]) =
      (readDigits base characters).bind fun value =>
        (digitOf base last).map (base * value + ·) := by
  rw [readDigits, List.foldlM_append]
  simp [readDigits]

theorem readDigits_singleton (base : Nat) (digit : Char) :
    readDigits base [digit] = digitOf base digit := by
  have first := readDigits_append base [] digit
  rw [List.nil_append] at first
  rw [first]
  simp [readDigits]

/-- The last hexadecimal digits of a number, upper case. -/
def hexadecimal (digits number : Nat) : List Char :=
  (List.range digits).reverse.map fun place => (Nat.digitChar (number / 16 ^ place % 16)).toUpper

theorem hexadecimal_two (number : Nat) :
    hexadecimal 2 number =
      [(Nat.digitChar (number / 16 % 16)).toUpper, (Nat.digitChar (number % 16)).toUpper] := by
  simp [hexadecimal, List.range_succ]

/-- Four digits are two pairs of digits. -/
theorem hexadecimal_four (number : Nat) :
    hexadecimal 4 number = hexadecimal 2 (number / 256) ++ hexadecimal 2 (number % 256) := by
  have first : number / 256 / 16 = number / 4096 := by omega
  have third : number % 256 / 16 % 16 = number / 16 % 16 := by omega
  have fourth : number % 256 % 16 = number % 16 := by omega
  rw [hexadecimal_two, hexadecimal_two, first, third, fourth]
  simp [hexadecimal, List.range_succ]

/-- The numeral of a number is read back. -/
theorem readDigits_toDigits (base : Nat) (wide : 1 < base) (small : base ≤ 10) (number : Nat) :
    readDigits base (Nat.toDigits base number) = some number := by
  induction number using Nat.strongRecOn with
  | ind number inductionHypothesis =>
    rcases Nat.lt_or_ge number base with single | more
    · rw [Nat.toDigits_of_lt_base single, readDigits_singleton]
      exact digitOf_digitChar base number small single
    · have shorter := inductionHypothesis (number / base) (Nat.div_lt_self (by omega) wide)
      have last := digitOf_digitChar base (number % base) small (Nat.mod_lt number (by omega))
      rw [Nat.toDigits_of_base_le wide more, readDigits_append, shorter, Option.bind_some, last]
      exact congrArg some (Nat.div_add_mod number base)

/-- The numeral of a positive number does not begin with a zero. -/
theorem head_toDigits (base : Nat) (wide : 1 < base) (small : base ≤ 10) (number : Nat)
    (positive : 0 < number) : (Nat.toDigits base number).head? ≠ some '0' := by
  induction number using Nat.strongRecOn with
  | ind number inductionHypothesis =>
    rcases Nat.lt_or_ge number base with single | more
    · rw [Nat.toDigits_of_lt_base single]
      intro zero
      have digit := digitOf_digitChar base number small single
      have none := digitOf_digitChar base 0 small (by omega)
      rw [Option.some.inj zero] at digit
      have same := Option.some.inj (digit.symm.trans none)
      omega
    · have earlier := inductionHypothesis (number / base) (Nat.div_lt_self positive wide)
        (Nat.div_pos more (by omega))
      rw [Nat.toDigits_of_base_le wide more,
        List.head?_append_of_ne_nil _ Nat.toDigits_ne_nil]
      exact earlier

end Numerals
