import BlueOs.Library.Programs

/-!
# Two programs side by side

Two programs over different states run with the same fuel. From related states they end
in related states, or both run on. So either both return or neither does, and what one
returns tells what the other returns.

A relation is followed through the parts of both programs: each test has to agree on
related states, and an invariant relation carries a pair of loops.
-/

namespace Programs

open FuelledLoop

universe u v
variable {σ : Type u} {τ : Type v}

/-- Both computations finished, in related states, or both were interrupted. -/
inductive Alike (after : σ → τ → Prop) : Outcome σ → Outcome τ → Prop where
  | finished (last : σ) (image : τ) (related : after last image) :
      Alike after (.finished last) (.finished image)
  | interrupted (last : σ) (image : τ) : Alike after (.interrupted last) (.interrupted image)

theorem Alike.weaken {after weaker : σ → τ → Prop} {outcome : Outcome σ} {other : Outcome τ}
    (alike : Alike after outcome other) (implied : ∀ last image, after last image → weaker last image) :
    Alike weaker outcome other := by
  cases alike with
  | finished last image related => exact .finished last image (implied last image related)
  | interrupted last image => exact .interrupted last image

theorem Alike.swap {after : σ → τ → Prop} {outcome : Outcome σ} {other : Outcome τ}
    (alike : Alike after outcome other) :
    Alike (fun image last => after last image) other outcome := by
  cases alike with
  | finished last image related => exact .finished image last related
  | interrupted last image => exact .interrupted image last

/-- From states related by `before` two programs end alike, whatever the fuel. -/
def Pairs (before : σ → τ → Prop) (program : Program σ) (other : Program τ)
    (after : σ → τ → Prop) : Prop :=
  ∀ fuel start image, before start image → Alike after (program.run fuel start) (other.run fuel image)

section rules

variable {before middle after : σ → τ → Prop}

theorem pairs_step (compute : σ → σ) (shadow : τ → τ)
    (computed : ∀ start image, before start image → after (compute start) (shadow image)) :
    Pairs before (step compute) (step shadow) after := by
  intro fuel start image held
  exact .finished _ _ (computed start image held)

theorem pairs_weaken {program : Program σ} {other : Program τ}
    (paired : Pairs before program other after) {weaker : σ → τ → Prop}
    (implied : ∀ last image, after last image → weaker last image) :
    Pairs before program other weaker := by
  intro fuel start image held
  exact (paired fuel start image held).weaken implied

theorem pairs_strengthen {program : Program σ} {other : Program τ}
    (paired : Pairs before program other after) {stronger : σ → τ → Prop}
    (implies : ∀ start image, stronger start image → before start image) :
    Pairs stronger program other after := by
  intro fuel start image held
  exact paired fuel start image (implies start image held)

theorem pairs_swap {program : Program σ} {other : Program τ}
    (paired : Pairs before program other after) :
    Pairs (fun image start => before start image) other program
      (fun image last => after last image) := by
  intro fuel image start held
  exact (paired fuel start image held).swap

theorem pairs_seq (first second : Program σ) (one two : Program τ)
    (earlier : Pairs before first one middle) (later : Pairs middle second two after) :
    Pairs before (seq first second) (seq one two) after := by
  intro fuel start image held
  have ended := earlier fuel start image held
  simp only [seq]
  generalize first.run fuel start = left at ended ⊢
  generalize one.run fuel image = right at ended ⊢
  cases ended with
  | finished last shadow related => exact later fuel last shadow related
  | interrupted last shadow => exact .interrupted _ _

/-- Related states take the same branch. -/
theorem pairs_branch (test : σ → Bool) (check : τ → Bool) (yes no : Program σ)
    (agreed refused : Program τ)
    (agree : ∀ start image, before start image → test start = check image)
    (holds : Pairs before yes agreed after) (fails : Pairs before no refused after) :
    Pairs before (branch test yes no) (branch check agreed refused) after := by
  intro fuel start image held
  simp only [branch, agree start image held]
  split
  · exact holds fuel start image held
  · exact fails fuel start image held

/-- The invariant rule: the guards agree, and the bodies keep the relation. -/
theorem pairs_loop (guard : σ → Bool) (body : σ → σ) (test : τ → Bool) (turn : τ → τ)
    (agree : ∀ current image, before current image → guard current = test image)
    (kept : ∀ current image, before current image → before (body current) (turn image)) :
    Pairs before (loop guard body) (loop test turn) before := by
  intro fuel
  simp only [loop]
  induction fuel with
  | zero =>
    intro start image held
    have same := agree start image held
    by_cases again : guard start = true
    · rw [run_exhausted guard body start again, run_exhausted test turn image (same ▸ again)]
      exact .interrupted _ _
    · have done : guard start = false := by simpa using again
      rw [run_done guard body 0 start done, run_done test turn 0 image (same ▸ done)]
      exact .finished _ _ held
  | succ fuel inductionHypothesis =>
    intro start image held
    have same := agree start image held
    by_cases again : guard start = true
    · rw [run_step guard body fuel start again, run_step test turn fuel image (same ▸ again)]
      exact inductionHypothesis _ _ (kept start image held)
    · have done : guard start = false := by simpa using again
      rw [run_done guard body _ start done, run_done test turn _ image (same ▸ done)]
      exact .finished _ _ held

end rules

section returning

variable {before after : σ → τ → Prop} {program : Program σ} {other : Program τ}

/-- If one program returns, so does the other one, in a related state. -/
theorem pairs_returns (paired : Pairs before program other after) (start last : σ) (image : τ)
    (held : before start image) (returned : Returns program start last) :
    ∃ shadow, Returns other image shadow ∧ after last shadow := by
  obtain ⟨fuel, ended⟩ := returned
  have alike := paired fuel start image held
  rw [ended] at alike
  generalize ends : other.run fuel image = outcome at alike
  cases alike with
  | finished last shadow related => exact ⟨shadow, ⟨fuel, ends⟩, related⟩

/-- One program returns exactly when the other one does. -/
theorem pairs_halts (paired : Pairs before program other after) (start : σ) (image : τ)
    (held : before start image) : Halts program start ↔ Halts other image := by
  constructor
  · rintro ⟨last, returned⟩
    obtain ⟨shadow, ends, -⟩ := pairs_returns paired start last image held returned
    exact ⟨shadow, ends⟩
  · rintro ⟨shadow, returned⟩
    obtain ⟨last, ends, -⟩ := pairs_returns (pairs_swap paired) image shadow start held returned
    exact ⟨last, ends⟩

end returning

end Programs
