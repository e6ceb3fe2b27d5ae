import Mathlib.Data.Nat.Find
import Mathlib.Logic.Function.Iterate

/-!
# Loops with explicit fuel

A `while` loop is a guard and a body over a state. Fuel counts completed
executions of the body; a loop whose guard is already false is finished even
with no fuel. Exhaustion is explicit and keeps the state reached, so that a
safety law can speak about loops that never end.

`terminates_iff` removes the fuel from a termination question: some fuel is
enough exactly when some number of executions of the body falsifies the guard.
The invariant law holds of finished and interrupted runs alike.
-/

namespace FuelledLoop

universe u
variable {σ : Type u}

/-- What a computation with bounded fuel leaves. -/
inductive Outcome (σ : Type u) where
  | finished : σ → Outcome σ
  | interrupted : σ → Outcome σ
deriving DecidableEq

namespace Outcome

/-- The last state, whether or not the computation ended in it. -/
def state : Outcome σ → σ
  | finished last => last
  | interrupted last => last

/-- Continue with a second computation unless the first is still running. -/
def andThen (first : Outcome σ) (next : σ → Outcome σ) : Outcome σ :=
  match first with
  | finished last => next last
  | interrupted last => interrupted last

@[simp] theorem finished_andThen (last : σ) (next : σ → Outcome σ) :
    (finished last).andThen next = next last := rfl

@[simp] theorem interrupted_andThen (last : σ) (next : σ → Outcome σ) :
    (interrupted last).andThen next = interrupted last := rfl

/-- A continuation finishes exactly when both of its parts do. -/
theorem andThen_finished_iff (first : Outcome σ) (next : σ → Outcome σ) (result : σ) :
    first.andThen next = finished result ↔
      ∃ middle, first = finished middle ∧ next middle = finished result := by
  cases first with
  | finished last => simp
  | interrupted last => simp

end Outcome

variable (guard : σ → Bool) (body : σ → σ)

/-- Execute the body while the guard holds and fuel remains. -/
def run : Nat → σ → Outcome σ
  | fuel, current =>
    if guard current then
      match fuel with
      | 0 => .interrupted current
      | remaining + 1 => run remaining (body current)
    else .finished current

/-- A false guard ends the loop at once, whatever the fuel. -/
theorem run_done (fuel : Nat) (current : σ) (done : guard current = false) :
    run guard body fuel current = .finished current := by
  cases fuel <;> simp [run, done]

/-- A true guard spends one unit of fuel on the body. -/
theorem run_step (fuel : Nat) (current : σ) (again : guard current = true) :
    run guard body (fuel + 1) current = run guard body fuel (body current) := by
  simp [run, again]

theorem run_exhausted (current : σ) (again : guard current = true) :
    run guard body 0 current = .interrupted current := by
  simp [run, again]

/-- A property kept by the body under the guard holds of the last state. -/
theorem run_invariant (invariant : σ → Prop)
    (preserved : ∀ current, invariant current → guard current = true → invariant (body current))
    (fuel : Nat) (current : σ) (initial : invariant current) :
    invariant (run guard body fuel current).state := by
  induction fuel generalizing current with
  | zero =>
    by_cases again : guard current = true
    · rw [run_exhausted guard body current again]
      exact initial
    · rw [run_done guard body 0 current (by simpa using again)]
      exact initial
  | succ fuel inductionHypothesis =>
    by_cases again : guard current = true
    · rw [run_step guard body fuel current again]
      exact inductionHypothesis (body current) (preserved current initial again)
    · rw [run_done guard body (fuel + 1) current (by simpa using again)]
      exact initial

/-- The guard is false in every finished state. -/
theorem finished_guard (fuel : Nat) (current last : σ)
    (ended : run guard body fuel current = .finished last) : guard last = false := by
  induction fuel generalizing current with
  | zero =>
    by_cases again : guard current = true
    · simp [run_exhausted guard body current again] at ended
    · rw [run_done guard body 0 current (by simpa using again)] at ended
      cases ended
      simpa using again
  | succ fuel inductionHypothesis =>
    by_cases again : guard current = true
    · rw [run_step guard body fuel current again] at ended
      exact inductionHypothesis (body current) ended
    · rw [run_done guard body (fuel + 1) current (by simpa using again)] at ended
      cases ended
      simpa using again

/-- More fuel does not change a finished run. -/
theorem run_mono (fuel more : Nat) (enough : fuel ≤ more) (current last : σ)
    (ended : run guard body fuel current = .finished last) :
    run guard body more current = .finished last := by
  induction fuel generalizing current more with
  | zero =>
    by_cases again : guard current = true
    · simp [run_exhausted guard body current again] at ended
    · rw [run_done guard body 0 current (by simpa using again)] at ended
      rw [run_done guard body more current (by simpa using again)]
      exact ended
  | succ fuel inductionHypothesis =>
    by_cases again : guard current = true
    · obtain ⟨rest, rfl⟩ : ∃ rest, more = rest + 1 := ⟨more - 1, by omega⟩
      rw [run_step guard body fuel current again] at ended
      rw [run_step guard body rest current again]
      exact inductionHypothesis rest (by omega) (body current) ended
    · rw [run_done guard body (fuel + 1) current (by simpa using again)] at ended
      rw [run_done guard body more current (by simpa using again)]
      exact ended

/-- If the guard holds before the first `count` executions of the body and is
false after them, then any fuel from `count` on finishes in that state. -/
theorem run_iterate (count fuel : Nat) (enough : count ≤ fuel) (current : σ)
    (busy : ∀ earlier < count, guard (body^[earlier] current) = true)
    (done : guard (body^[count] current) = false) :
    run guard body fuel current = .finished (body^[count] current) := by
  induction count generalizing fuel current with
  | zero => exact run_done guard body fuel current done
  | succ count inductionHypothesis =>
    obtain ⟨rest, rfl⟩ : ∃ rest, fuel = rest + 1 := ⟨fuel - 1, by omega⟩
    have again : guard current = true := busy 0 (by omega)
    rw [run_step guard body rest current again, Function.iterate_succ_apply]
    apply inductionHypothesis rest (by omega)
    · intro earlier before
      have later := busy (earlier + 1) (by omega)
      rwa [Function.iterate_succ_apply] at later
    · rwa [Function.iterate_succ_apply] at done

/-- Some fuel is enough. -/
def Terminates (current : σ) : Prop :=
  ∃ fuel last, run guard body fuel current = .finished last

/-- Some fuel is enough exactly when some iterate of the body falsifies the
guard. The least such iterate is the state in which the loop ends. -/
theorem terminates_iff (current : σ) :
    Terminates guard body current ↔ ∃ count, guard (body^[count] current) = false := by
  constructor
  · rintro ⟨fuel, last, ended⟩
    induction fuel generalizing current with
    | zero =>
      by_cases again : guard current = true
      · simp [run_exhausted guard body current again] at ended
      · exact ⟨0, by simpa using again⟩
    | succ fuel inductionHypothesis =>
      by_cases again : guard current = true
      · rw [run_step guard body fuel current again] at ended
        obtain ⟨count, done⟩ := inductionHypothesis (body current) ended
        exact ⟨count + 1, by rwa [Function.iterate_succ_apply]⟩
      · exact ⟨0, by simpa using again⟩
  · intro reaches
    refine ⟨Nat.find reaches, _, run_iterate guard body _ _ (Nat.le_refl _) current ?_
      (Nat.find_spec reaches)⟩
    intro earlier before
    simpa using Nat.find_min reaches before

end FuelledLoop
