import BlueOs.DigitBuffer
import BlueOs.Library.Messages
import BlueOs.TextConsole
import Mathlib.Data.List.TakeWhile

/-!
# Printed text

A program prints a text in pieces, each a string with a NUL byte at its end. On the
console this is one print of the whole text, as long as no character is a NUL byte.

A byte and a word in hexadecimal are messages of two and eight digits, so they can be read
back from the front of a text.
-/

namespace BlueOs.PrintedText

open NumberPrinting
open TextConsole (Console print)

/-- The bytes of a string, without the NUL byte at its end. -/
def bytes (text : List Char) : List Byte := text.map fun character =>
  BitVec.ofNat 8 character.toNat

theorem bytes_append (text other : List Char) : bytes (text ++ other) = bytes text ++ bytes other :=
  List.map_append

theorem print_append (console : Console) (text other : List Byte) (proper : ∀ c ∈ text, c ≠ 0) :
    print console (text ++ other) = print (print console text) other := by
  have whole : text.takeWhile (fun c => c ≠ 0x00) = text := by
    rw [List.takeWhile_eq_self_iff]
    simpa using proper
  simp only [print]
  rw [List.takeWhile_append_of_pos (by simpa using proper), List.foldl_append, whole]

/-- What ends a string is not printed. -/
theorem print_terminated (console : Console) (text : List Byte) (proper : ∀ c ∈ text, c ≠ 0) :
    print console (text ++ [0]) = print console text := by
  rw [print_append console text [0] proper]
  rfl

theorem literal_proper (text : List Byte) (checked : (text.all fun c => c ≠ 0) = true) :
    ∀ c ∈ text, c ≠ 0 := fun c member =>
  of_decide_eq_true (List.all_eq_true.mp checked c member)

/-- The strings that a call hands to `print`; `print_dec` hands over every digit on its own. -/
def strings : Printed → List (List Char)
  | .dec num => (printDec num).map fun digit => [digit]
  | call => [call.characters]

/-- The console after calls of the print functions. -/
def printAll (console : Console) (calls : List Printed) : Console :=
  (calls.flatMap strings).foldl (fun console str => print console (bytes str ++ [0])) console

theorem printAll_append (console : Console) (calls other : List Printed) :
    printAll console (calls ++ other) = printAll (printAll console calls) other := by
  rw [printAll, List.flatMap_append, List.foldl_append]
  rfl

/-- The text of calls of the print functions. -/
def text (calls : List Printed) : List Byte := bytes (calls.flatMap Printed.characters)

theorem text_append (calls other : List Printed) :
    text (calls ++ other) = text calls ++ text other := by
  rw [text, List.flatMap_append, bytes_append]
  rfl

theorem flatten_strings (call : Printed) : (strings call).flatten = call.characters := by
  cases call with
  | text str => exact List.append_nil _
  | hex key => rfl
  | hex32 key => rfl
  | dec num =>
    rw [strings, ← List.flatMap_def]
    exact List.flatMap_singleton' _

theorem print_strings (console : Console) (strs : List (List Char))
    (proper : ∀ c ∈ bytes strs.flatten, c ≠ 0) :
    strs.foldl (fun console str => print console (bytes str ++ [0])) console =
      print console (bytes strs.flatten) := by
  induction strs generalizing console with
  | nil => rfl
  | cons str rest inductionHypothesis =>
    rw [List.flatten_cons, bytes_append] at proper ⊢
    have own : ∀ c ∈ bytes str, c ≠ 0 := fun c member =>
      proper c (List.mem_append_left _ member)
    rw [List.foldl_cons, print_terminated console _ own, print_append console _ _ own]
    exact inductionHypothesis _ fun c member => proper c (List.mem_append_right _ member)

/-- Printing in pieces is printing the text. -/
theorem printAll_eq (console : Console) (calls : List Printed)
    (proper : ∀ c ∈ text calls, c ≠ 0) : printAll console calls = print console (text calls) := by
  have whole : (calls.flatMap strings).flatten = calls.flatMap Printed.characters := by
    rw [List.flatMap_def, List.flatten_flatten, List.map_map]
    exact congrArg List.flatten (List.map_congr_left fun call _ => flatten_strings call)
  rw [printAll, text, ← whole]
  refine print_strings console _ ?_
  rw [whole]
  exact proper

/-- The hexadecimal digits. -/
def hexDigits : List Char :=
  ['0', '1', '2', '3', '4', '5', '6', '7', '8', '9', 'A', 'B', 'C', 'D', 'E', 'F']

theorem hex_mem (nibble : Word) : hex nibble ∈ hexDigits := by
  have same : "0123456789ABCDEF".toList = hexDigits := by decide
  rw [hex, same, List.getD_eq_getElem?_getD]
  cases digit : hexDigits[nibble.toNat]? with
  | none => decide
  | some found => exact List.mem_of_getElem? digit

/-- A digit is not the NUL byte, and is its byte. -/
theorem hexDigits_byte (digit : Char) (member : digit ∈ hexDigits) :
    BitVec.ofNat 8 digit.toNat ≠ 0 ∧ Char.ofNat (BitVec.ofNat 8 digit.toNat).toNat = digit := by
  have all : (hexDigits.all fun digit => BitVec.ofNat 8 digit.toNat ≠ 0 ∧
      Char.ofNat (BitVec.ofNat 8 digit.toNat).toNat = digit) = true := by
    decide
  exact of_decide_eq_true (List.all_eq_true.mp all digit member)

theorem printHex_digits (key : Byte) : ∀ digit ∈ printHex key, digit ∈ hexDigits := by
  simp [printHex, hex_mem]

theorem printHex32_digits (key : Word) : ∀ digit ∈ printHex32 key, digit ∈ hexDigits := by
  simp [printHex32, hex_mem]

/-- Hexadecimal digits have no NUL byte among them. -/
theorem digits_proper (digits : List Char) (hexadecimal : ∀ digit ∈ digits, digit ∈ hexDigits) :
    ∀ c ∈ bytes digits, c ≠ 0 := by
  intro c member
  obtain ⟨digit, inside, rfl⟩ := List.mem_map.mp member
  exact (hexDigits_byte digit (hexadecimal digit inside)).1

def readHex (digits : List Byte) : Option Nat :=
  Numerals.readDigits 16 (digits.map fun digit => Char.ofNat digit.toNat)

theorem readHex_bytes (digits : List Char) (hexadecimal : ∀ digit ∈ digits, digit ∈ hexDigits) :
    readHex (bytes digits) = Numerals.readDigits 16 digits := by
  have same : (bytes digits).map (fun digit => Char.ofNat digit.toNat) = digits := by
    rw [bytes, List.map_map]
    exact (List.map_congr_left fun digit member =>
      (hexDigits_byte digit (hexadecimal digit member)).2).trans (List.map_id _)
  rw [readHex, same]

theorem readHex_printHex (key : Byte) : readHex (bytes (printHex key)) = some key.toNat := by
  rw [readHex_bytes _ (printHex_digits key), DigitBuffer.readDigits_printHex]

theorem readHex_printHex32 (key : Word) : readHex (bytes (printHex32 key)) = some key.toNat := by
  rw [readHex_bytes _ (printHex32_digits key), DigitBuffer.readDigits_printHex32]

theorem decode_hex (digits width : Nat) (key : BitVec width) (front rest : List Byte)
    (length : front.length = digits) (read : readHex front = some key.toNat) :
    ((readHex ((front ++ rest).take digits)).map fun value =>
      (BitVec.ofNat width value, (front ++ rest).drop digits)) = some (key, rest) := by
  rw [← length, List.take_left, List.drop_left, read, Option.map_some, BitVec.ofNat_toNat,
    BitVec.setWidth_eq]

/-- What `print_hex` prints. -/
def hexByte : Messages.Format Byte Byte where
  encode key := bytes (printHex key)
  decode symbols := (readHex (symbols.take 2)).map fun value =>
    (BitVec.ofNat 8 value, symbols.drop 2)
  nonempty _ none := by cases none
  decode_encode key rest := decode_hex 2 8 key _ rest rfl (readHex_printHex key)

/-- What `print_hex32` prints. -/
def hexWord : Messages.Format Word Byte where
  encode key := bytes (printHex32 key)
  decode symbols := (readHex (symbols.take 8)).map fun value =>
    (BitVec.ofNat 32 value, symbols.drop 8)
  nonempty _ none := by cases none
  decode_encode key rest := decode_hex 8 32 key _ rest rfl (readHex_printHex32 key)

end BlueOs.PrintedText
