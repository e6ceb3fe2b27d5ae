import Mathlib.Data.List.Basic

/-!
# Pieces laid end to end

A list of pieces tiles an interval when each starts where the one before it
ends. Positions and extents are read by functions, so the pieces may be of any
type. The laws say that a tiling splits at every seam and that its pieces lie
inside the interval in increasing order, so that none overlaps another.
-/

namespace Tiling

universe u
variable {β : Type u} (position extent : β → Nat)

/-- The pieces cover `[first, stop)` without gap or overlap. -/
def Tiles : Nat → List β → Nat → Prop
  | first, [], stop => first = stop
  | first, piece :: rest, stop =>
    position piece = first ∧ Tiles (first + extent piece) rest stop

/-- A tiling of a concatenation is a tiling of each part up to the seam. -/
theorem tiles_append (left right : List β) (first stop : Nat) :
    Tiles position extent first (left ++ right) stop ↔
      ∃ seam, Tiles position extent first left seam ∧ Tiles position extent seam right stop := by
  induction left generalizing first with
  | nil => simp [Tiles]
  | cons piece rest inductionHypothesis =>
    simp only [List.cons_append, Tiles, inductionHypothesis]
    constructor
    · rintro ⟨starts, seam, before, after⟩
      exact ⟨seam, ⟨starts, before⟩, after⟩
    · rintro ⟨seam, ⟨starts, before⟩, after⟩
      exact ⟨starts, seam, before, after⟩

/-- The interval of a tiling is not reversed. -/
theorem tiles_ordered (pieces : List β) (first stop : Nat)
    (tiled : Tiles position extent first pieces stop) : first ≤ stop := by
  induction pieces generalizing first with
  | nil => exact Nat.le_of_eq tiled
  | cons piece rest inductionHypothesis =>
    have tail : first + extent piece ≤ stop := inductionHypothesis _ tiled.2
    omega

/-- Every piece lies inside the interval. -/
theorem piece_inside (pieces : List β) (first stop : Nat)
    (tiled : Tiles position extent first pieces stop) (piece : β) (member : piece ∈ pieces) :
    first ≤ position piece ∧ position piece + extent piece ≤ stop := by
  induction pieces generalizing first with
  | nil => cases member
  | cons head rest inductionHypothesis =>
    obtain ⟨starts, tail⟩ := tiled
    rcases List.mem_cons.mp member with rfl | later
    · have ordered := tiles_ordered position extent rest _ stop tail
      omega
    · have inside := inductionHypothesis _ tail later
      omega

/-- A later piece starts no earlier than where an earlier one ends. -/
theorem pieces_separated (pieces : List β) (first stop : Nat)
    (tiled : Tiles position extent first pieces stop) :
    pieces.Pairwise (fun left right => position left + extent left ≤ position right) := by
  induction pieces generalizing first with
  | nil => exact List.Pairwise.nil
  | cons head rest inductionHypothesis =>
    obtain ⟨starts, tail⟩ := tiled
    refine List.pairwise_cons.mpr ⟨?_, inductionHypothesis _ tail⟩
    intro piece member
    have inside := piece_inside position extent rest _ stop tail piece member
    omega

end Tiling
