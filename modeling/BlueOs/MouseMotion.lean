import BlueOs.Library.Runs
import BlueOs.Mouse

/-!
# The motion of the pointer

The last two bytes of a packet are signed displacements. The driver adds one to the
column and takes the other from the row in a signed byte, and bounds the result
after that: a sum past 127 has then become negative and ends at the near edge
instead of the far one. So a packet moves the pointer by a bounded sum exactly if
neither sum is past 127; no sum is below the least signed byte.
-/

namespace BlueOs.MouseMotion

open TextConsole Mouse

/-- A number kept between zero and the last coordinate. -/
def bounded (last : Nat) (value : Int) : Int := max 0 (min value last)

/-- The second and third byte of a packet, and where they moved the pointer. -/
structure Motion where
  before : Position
  right : Byte
  up : Byte
  after : Position

/-- The machine and the motion of the last interrupt, if it completed a packet. -/
structure Traced where
  machine : Machine
  motion : Option Motion

/-- An interrupt: the status and the byte that the ports deliver. -/
structure Event where
  status : Byte
  byte : Byte

def step (traced : Traced) (event : Event) : Option Traced :=
  let machine := handleInterrupt traced.machine event.status event.byte
  some
    { machine := machine
      motion :=
        if Completes traced.machine event.status then
          some
            { before := traced.machine.mouse.position
              right := traced.machine.mouse.right
              up := event.byte
              after := machine.mouse.position }
        else none }

def start (machine : Machine) : Traced where
  machine := activate machine
  motion := none

/-- The pointer has moved by a bounded sum; so it does not move left of itself for a
displacement to the right, nor up for one down. -/
structure Motion.Follows (motion : Motion) : Prop where
  column : (motion.after.x : Int) = bounded 79 (motion.before.x + motion.right.toInt)
  row : (motion.after.y : Int) = bounded 24 (motion.before.y - motion.up.toInt)
  rightward : 0 ≤ motion.right.toInt → motion.before.x ≤ motion.after.x
  downward : motion.up.toInt ≤ 0 → motion.before.y ≤ motion.after.y

/-- The motion of the last interrupt, if there was one, is a bounded sum. -/
def Follows (traced : Traced) : Prop := ∀ motion ∈ traced.motion, motion.Follows

/-- A packet that this interrupt completes moves neither coordinate past 127. -/
def Unwrapped (traced : Traced) (event : Event) : Prop :=
  Completes traced.machine event.status →
    (traced.machine.mouse.position.x : Int) + traced.machine.mouse.right.toInt ≤ 127 ∧
      (traced.machine.mouse.position.y : Int) - event.byte.toInt ≤ 127

instance (traced : Traced) (event : Event) : Decidable (Unwrapped traced event) :=
  inferInstanceAs (Decidable (_ → _))

/-- The bounds checks on a sum that has been narrowed to a signed byte. -/
theorem clamp_narrowed (last : Nat) (small : last < 128) (value : Byte) (sum : Int)
    (narrowed : value.toInt = sum.bmod 256) (least : -128 ≤ sum) (greatest : sum < 256) :
    (clamp last value : Int) = if sum ≤ 127 then bounded last sum else 0 := by
  have wraps : sum.bmod 256 = if sum ≤ 127 then sum else sum - 256 := by
    rw [Int.bmod_def]
    split <;> split <;> omega
  rw [wraps] at narrowed
  simp only [clamp, bounded]
  split at narrowed
  case isTrue inside =>
    rw [if_pos inside]
    split
    · simp only [Fin.val_last]
      omega
    · split
      · simp only [Fin.val_zero]
        omega
      · simp only
        omega
  case isFalse past =>
    rw [if_neg past, dif_neg (by omega), dif_pos (by omega)]
    rfl

/-- The narrowed sum of a coordinate and a displacement. -/
theorem column_narrowed (x : Fin 80) (right : Byte) :
    (BitVec.ofNat 8 x.val + right).toInt = ((x.val : Int) + right.toInt).bmod 256 := by
  have inside := x.isLt
  rw [BitVec.toInt_add, coordinate_toInt x.val (by omega)]

theorem row_narrowed (y : Fin 25) (up : Byte) :
    (BitVec.ofNat 8 y.val - up).toInt = ((y.val : Int) - up.toInt).bmod 256 := by
  have inside := y.isLt
  rw [BitVec.toInt_sub, coordinate_toInt y.val (by omega)]

/-- Where the driver moves the pointer. -/
theorem moved_coordinates (position : Position) (right up : Byte) :
    ((moved position right up).x : Int) =
        (if (position.x : Int) + right.toInt ≤ 127 then bounded 79 (position.x + right.toInt)
          else 0) ∧
      ((moved position right up).y : Int) =
        if (position.y : Int) - up.toInt ≤ 127 then bounded 24 (position.y - up.toInt) else 0 := by
  have column := position.x.isLt
  have row := position.y.isLt
  have rightLeast := BitVec.le_toInt right
  have rightGreatest := right.toInt_lt
  have upLeast := BitVec.le_toInt up
  have upGreatest := up.toInt_lt
  constructor
  · exact clamp_narrowed 79 (by decide) _ _ (column_narrowed position.x right) (by omega) (by omega)
  · exact clamp_narrowed 24 (by decide) _ _ (row_narrowed position.y up) (by omega) (by omega)

/-- A packet moves the pointer by a bounded sum exactly if neither sum is past 127. -/
theorem moved_follows_iff (position : Position) (right up : Byte) :
    (Motion.mk position right up (moved position right up)).Follows ↔
      (position.x : Int) + right.toInt ≤ 127 ∧ (position.y : Int) - up.toInt ≤ 127 := by
  obtain ⟨column, row⟩ := moved_coordinates position right up
  constructor
  · intro follows
    have across := follows.column
    have down := follows.row
    simp only [bounded] at across down column row
    constructor
    · by_contra past
      rw [if_neg past] at column
      omega
    · by_contra past
      rw [if_neg past] at row
      omega
  · rintro ⟨insideColumn, insideRow⟩
    rw [if_pos insideColumn] at column
    rw [if_pos insideRow] at row
    have rightmost := position.x.isLt
    have lowest := position.y.isLt
    refine ⟨column, row, ?_, ?_⟩
    · intro rightward
      simp only [bounded] at column rightward ⊢
      rw [Fin.le_def]
      omega
    · intro downward
      simp only [bounded] at row downward ⊢
      rw [Fin.le_def]
      omega

/-- An interrupt leads to a bounded sum exactly if its packet does not wrap. -/
theorem step_follows_iff (traced : Traced) (event : Event) (next : Traced)
    (taken : step traced event = some next) : Follows next ↔ Unwrapped traced event := by
  have taken := Option.some.inj taken
  subst taken
  simp only [Follows, Unwrapped]
  by_cases complete : Completes traced.machine event.status
  · obtain ⟨-, position⟩ := handleInterrupt_complete traced.machine event.status event.byte complete
    rw [if_pos complete, position]
    simp only [Option.mem_def, Option.some.injEq, forall_eq', destination, MouseDriver.right,
      moved_follows_iff, complete, true_imp_iff]
  · simp [complete]

/-- In every run of interrupts after `activate`, each packet moves the pointer by a
bounded sum exactly if no packet moves a coordinate past 127. -/
theorem motion_follows_iff (machine : Machine) (events : List Event) :
    Runs.Throughout step Follows events (start machine) ↔
      Runs.Meets step Unwrapped events (start machine) := by
  apply Runs.throughout_iff_meets step Unwrapped Follows fun _ => True
  · intro traced event _ refused
    cases refused
  · intro traced event next _ taken
    exact ⟨step_follows_iff traced event next taken, fun _ => trivial⟩
  · trivial
  · intro motion none
    cases none

/-- An empty screen. -/
def blankScreen : Console := ⟨fun _ => 0x0720, .corner⟩

/-- A packet of 100 columns to the right takes the pointer from column 40 to column 0. -/
theorem right_motion_wraps :
    ∃ final motion, Runs.run step [⟨0x20, 0x08⟩, ⟨0x20, 0x64⟩, ⟨0x20, 0x00⟩]
        (start (boot blankScreen (fun _ => 0) 0 0)) = some final ∧
      final.motion = some motion ∧ motion.before.x = 40 ∧ motion.right.toInt = 100 ∧
      motion.after.x = 0 ∧ ¬ Follows final := by
  refine ⟨_, _, rfl, rfl, by decide, by decide, by decide, ?_⟩
  intro follows
  have rightward := (follows _ rfl).rightward (by decide)
  exact absurd rightward (by decide)

end BlueOs.MouseMotion
