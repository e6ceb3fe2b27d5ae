import Mathlib.Data.List.Basic

/-!
# Streams of messages

A format writes every item as a message that is not empty, and reads the message at
the front of a stream back, whatever follows it. So a stream of messages, written
without anything between them, is read back item by item.
-/

namespace Messages

universe u v w
variable {α : Type u} {β : Type v} {γ : Type w}

structure Format (α : Type u) (β : Type v) where
  encode : α → List β
  decode : List β → Option (α × List β)
  nonempty : ∀ item, encode item ≠ []
  decode_encode : ∀ item rest, decode (encode item ++ rest) = some (item, rest)

namespace Format

variable (format : Format α β)

/-- The messages of items, in order. -/
def stream (items : List α) : List β := items.flatMap format.encode

/-- Read at most a number of messages, up to the end of the stream. -/
def readUpTo : Nat → List β → Option (List α)
  | _, [] => some []
  | 0, _ :: _ => none
  | fuel + 1, symbol :: symbols =>
    (format.decode (symbol :: symbols)).bind fun first =>
      (readUpTo fuel first.2).map (first.1 :: ·)

/-- A stream has at most as many messages as symbols. -/
def read (symbols : List β) : Option (List α) := format.readUpTo symbols.length symbols

theorem stream_cons (item : α) (items : List α) :
    format.stream (item :: items) = format.encode item ++ format.stream items := rfl

/-- The message at the front is read first. -/
theorem readUpTo_encode (fuel : Nat) (item : α) (rest : List β) :
    format.readUpTo (fuel + 1) (format.encode item ++ rest) =
      (format.readUpTo fuel rest).map (item :: ·) := by
  have first := format.decode_encode item rest
  cases message : format.encode item with
  | nil => exact absurd message (format.nonempty item)
  | cons symbol symbols =>
    rw [message, List.cons_append] at first
    rw [List.cons_append, readUpTo, first]
    rfl

theorem readUpTo_stream (items : List α) (fuel : Nat) (enough : items.length ≤ fuel) :
    format.readUpTo fuel (format.stream items) = some items := by
  induction items generalizing fuel with
  | nil => cases fuel <;> rfl
  | cons item items inductionHypothesis =>
    cases fuel with
    | zero => exact absurd enough (Nat.not_succ_le_zero _)
    | succ fuel =>
      have rest := inductionHypothesis fuel (Nat.le_of_succ_le_succ enough)
      rw [stream_cons, readUpTo_encode, rest]
      rfl

theorem length_le_stream (items : List α) : items.length ≤ (format.stream items).length := by
  induction items with
  | nil => exact Nat.le_refl 0
  | cons item items inductionHypothesis =>
    have positive := List.length_pos_iff.mpr (format.nonempty item)
    rw [stream_cons, List.length_append, List.length_cons]
    omega

/-- A stream of messages is read back. -/
theorem read_stream (items : List α) : format.read (format.stream items) = some items :=
  format.readUpTo_stream items _ (format.length_le_stream items)

theorem stream_append (items more : List α) :
    format.stream (items ++ more) = format.stream items ++ format.stream more :=
  List.flatMap_append

/-- A fixed text before every message. -/
def behind [DecidableEq β] (mark : List β) : Format α β where
  encode item := mark ++ format.encode item
  decode symbols :=
    if mark <+: symbols then format.decode (symbols.drop mark.length) else none
  nonempty item none := format.nonempty item (List.append_eq_nil_iff.mp none).2
  decode_encode item rest := by
    rw [List.append_assoc, if_pos (List.prefix_append _ _), List.drop_left, format.decode_encode]

/-- A fixed text after every message. -/
def before [DecidableEq β] (mark : List β) : Format α β where
  encode item := format.encode item ++ mark
  decode symbols := (format.decode symbols).bind fun first =>
    if mark <+: first.2 then some (first.1, first.2.drop mark.length) else none
  nonempty item none := format.nonempty item (List.append_eq_nil_iff.mp none).1
  decode_encode item rest := by
    rw [List.append_assoc, format.decode_encode, Option.bind_some,
      if_pos (List.prefix_append _ _), List.drop_left]

/-- One message after another. -/
def pair (other : Format γ β) : Format (α × γ) β where
  encode items := format.encode items.1 ++ other.encode items.2
  decode symbols := (format.decode symbols).bind fun first =>
    (other.decode first.2).map fun second => ((first.1, second.1), second.2)
  nonempty items none := format.nonempty items.1 (List.append_eq_nil_iff.mp none).1
  decode_encode items rest := by
    rw [List.append_assoc, format.decode_encode, Option.bind_some, other.decode_encode,
      Option.map_some]

/-- Items that are taken apart to be written, and put together when they are read. -/
def retract (apart : γ → α) (together : α → γ) (inverse : ∀ item, together (apart item) = item) :
    Format γ β where
  encode item := format.encode (apart item)
  decode symbols := (format.decode symbols).map fun first => (together first.1, first.2)
  nonempty item := format.nonempty (apart item)
  decode_encode item rest := by
    rw [format.decode_encode, Option.map_some, inverse]

/-- If no name begins with another, a text begins with at most one of them. -/
theorem find_name [DecidableEq β] (name : α → List β)
    (apart : ∀ one other, name one <+: name other → one = other) (all : List α) (item : α)
    (member : item ∈ all) (rest : List β) :
    (all.find? fun other => name other <+: name item ++ rest) = some item := by
  cases found : all.find? fun other => name other <+: name item ++ rest with
  | none =>
    have missed := List.find?_eq_none.mp found item member
    exact absurd (decide_eq_true (List.prefix_append _ _)) missed
  | some other =>
    have tested := List.find?_some found
    have begins : name other <+: name item ++ rest := of_decide_eq_true tested
    rcases List.prefix_or_prefix_of_prefix begins (List.prefix_append _ _) with shorter | longer
    · rw [apart other item shorter]
    · rw [apart item other longer]

/-- Names of which none begins with another. -/
def named [DecidableEq β] (name : α → List β) (all : List α) (complete : ∀ item, item ∈ all)
    (nonempty : ∀ item, name item ≠ [])
    (apart : ∀ one other, name one <+: name other → one = other) : Format α β where
  encode := name
  decode symbols := (all.find? fun item => name item <+: symbols).map fun item =>
    (item, symbols.drop (name item).length)
  nonempty := nonempty
  decode_encode item rest := by
    rw [find_name name apart all item (complete item), Option.map_some, List.drop_left]

end Format

end Messages
