import BlueOs.Library.Runs

/-!
# Simulation of runs

A system simulates another one when each of its steps is a run of the other: an event
stands for a list of events, which may be empty. Then a run of the one is a run of the
other over the events that its own stand for.
-/

namespace Runs

universe u v
variable {σ τ : Type u} {ε η : Type v}

theorem run_append (step : σ → ε → Option σ) (earlier later : List ε) (start : σ) :
    run step (earlier ++ later) start = (run step earlier start).bind (run step later) :=
  List.foldlM_append

/-- If every allowed step is taken and is a run of the image, so is a run whose steps are
allowed. -/
theorem run_simulates (step : σ → ε → Option σ) (image : τ → η → Option τ)
    (translate : ε → List η) (related : σ → τ → Prop) (allowed : σ → ε → Prop)
    (simulates : ∀ current shadow event, related current shadow → allowed current event →
      ∃ next result, step current event = some next ∧
        run image (translate event) shadow = some result ∧ related next result)
    (events : List ε) (start : σ) (shadow : τ) (initial : related start shadow)
    (meets : Meets step allowed events start) :
    ∃ final result, run step events start = some final ∧
      run image (events.flatMap translate) shadow = some result ∧ related final result := by
  induction events generalizing start shadow with
  | nil => exact ⟨start, shadow, rfl, rfl, initial⟩
  | cons event rest inductionHypothesis =>
    obtain ⟨next, result, taken, imaged, held⟩ := simulates start shadow event initial meets.1
    obtain ⟨final, last, completed, followed, property⟩ :=
      inductionHypothesis next result held (meets.2 next taken)
    refine ⟨final, last, ?_, ?_, property⟩
    · rw [run_cons, taken, Option.bind_some, completed]
    · rw [List.flatMap_cons, run_append, imaged, Option.bind_some, followed]

end Runs
