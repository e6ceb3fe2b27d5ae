import BlueOs.Library.Programs
import Mathlib.Data.BitVec

/-!
# Calling the global constructors

The linker collects pointers to the constructors in a table and defines a symbol at each
end of it. The loop goes from one symbol to the other, a pointer at a time, and compares
for equality: past the end it would go on through the whole memory and around.
-/

namespace BlueOs.Constructors

open Programs

abbrev Word := BitVec 32

/-- What the constructors act on, and the loop variable. -/
structure Machine (σ : Type) where
  world : σ
  i : Word

section loop

variable {σ : Type} (read : σ → Word → Word) (invoke : Word → σ → σ)

/-- `(*i)(); i++`; a constructor may write to the table. -/
def callNext (machine : Machine σ) : Machine σ where
  world := invoke (read machine.world machine.i) machine.world
  i := machine.i + 4

def callConstructors (startCtors endCtors : Word) : Program (Machine σ) :=
  seq (step fun machine => { machine with i := startCtors }) <|
  loop (fun machine => machine.i ≠ endCtors) (callNext read invoke)

/-- Call a number of constructors in the order of the table. -/
def called (startCtors : Word) (count : Nat) (world : σ) : σ :=
  (List.range count).foldl
    (fun world index => invoke (read world (startCtors + BitVec.ofNat 32 (4 * index))) world) world

theorem called_succ (startCtors : Word) (count : Nat) (world : σ) :
    called read invoke startCtors (count + 1) world =
      invoke (read (called read invoke startCtors count world)
        (startCtors + BitVec.ofNat 32 (4 * count))) (called read invoke startCtors count world) := by
  rw [called, List.range_succ, List.foldl_append]
  rfl

theorem callNext_iterate (startCtors : Word) (world : σ) (count : Nat) :
    (callNext read invoke)^[count] ⟨world, startCtors⟩ =
      ⟨called read invoke startCtors count world, startCtors + BitVec.ofNat 32 (4 * count)⟩ := by
  induction count with
  | zero => simp [called]
  | succ count inductionHypothesis =>
    rw [Function.iterate_succ_apply', inductionHypothesis, callNext, called_succ]
    simp only [Machine.mk.injEq, true_and]
    rw [BitVec.add_assoc]
    congr 1
    have pointer : (4 : Word).toNat = 4 := rfl
    apply BitVec.eq_of_toNat_eq
    simp only [BitVec.toNat_add, BitVec.toNat_ofNat, pointer]
    omega

/-- After so many turns the loop variable is at the end symbol. -/
theorem arrived_iff (startCtors endCtors : Word) (count : Nat) :
    startCtors + BitVec.ofNat 32 (4 * count) = endCtors ↔
      4 * count % 2 ^ 32 = (endCtors - startCtors).toNat := by
  rw [← BitVec.toNat_ofNat, BitVec.toNat_inj]
  constructor
  · rintro rfl
    rw [BitVec.add_comm, BitVec.add_sub_cancel]
  · intro distance
    rw [distance, BitVec.add_comm, BitVec.sub_add_cancel]

/-- A whole number of pointers is called. -/
theorem called_returns (startCtors endCtors : Word) (machine : Machine σ)
    (whole : (endCtors - startCtors).toNat % 4 = 0) :
    Returns (callConstructors read invoke startCtors endCtors) machine
      ⟨called read invoke startCtors ((endCtors - startCtors).toNat / 4) machine.world,
        endCtors⟩ := by
  have bound := (endCtors - startCtors).isLt
  have arrived := (arrived_iff startCtors endCtors ((endCtors - startCtors).toNat / 4)).mpr
    (by omega)
  have iterated := callNext_iterate read invoke startCtors machine.world
    ((endCtors - startCtors).toNat / 4)
  rw [arrived] at iterated
  rw [← iterated]
  refine (returns_seq _ _ _ _).mpr ⟨⟨machine.world, startCtors⟩, (returns_step _ _ _).mpr rfl, ?_⟩
  apply returns_loop
  · intro earlier before
    have apart : startCtors + BitVec.ofNat 32 (4 * earlier) ≠ endCtors := by
      rw [Ne, arrived_iff]
      omega
    rw [callNext_iterate]
    exact decide_eq_true apart
  · rw [iterated]
    exact decide_eq_false (not_not_intro rfl)

/-- The loop ends only where it meets the end symbol. -/
theorem whole_of_halts (startCtors endCtors : Word) (machine : Machine σ)
    (halts : Halts (callConstructors read invoke startCtors endCtors) machine) :
    (endCtors - startCtors).toNat % 4 = 0 := by
  rw [callConstructors, halts_step_seq, halts_loop_iff] at halts
  obtain ⟨count, ended⟩ := halts
  rw [callNext_iterate] at ended
  have arrived : startCtors + BitVec.ofNat 32 (4 * count) = endCtors :=
    Decidable.of_not_not (of_decide_eq_false ended)
  rw [arrived_iff] at arrived
  omega

/-- The loop ends exactly when the table is a whole number of pointers long, and has then
called every constructor of the table once and in order, reading each pointer when
its turn comes. -/
theorem constructors_called_iff (startCtors endCtors : Word) (machine : Machine σ) :
    (Halts (callConstructors read invoke startCtors endCtors) machine ↔
        (endCtors - startCtors).toNat % 4 = 0) ∧
      ∀ last, Returns (callConstructors read invoke startCtors endCtors) machine last →
        last = ⟨called read invoke startCtors ((endCtors - startCtors).toNat / 4) machine.world,
          endCtors⟩ := by
  refine ⟨⟨whole_of_halts read invoke startCtors endCtors machine, fun whole =>
    ⟨_, called_returns read invoke startCtors endCtors machine whole⟩⟩, fun last returned => ?_⟩
  have whole := whole_of_halts read invoke startCtors endCtors machine ⟨last, returned⟩
  exact returns_unique _ _ _ _ returned
    (called_returns read invoke startCtors endCtors machine whole)

end loop

end BlueOs.Constructors
