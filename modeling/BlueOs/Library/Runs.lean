import Mathlib.Data.List.Basic

/-!
# Runs of a partial step function

A system takes one step per event and may refuse a step. A run folds a list of
events; it fails when a step is refused. `Meets` says that a condition on the
state before a step and its event holds at every step of a run, `Throughout` that
a property holds of every state the run passes, the first and last included.

The invariant rule carries a property that may mention the events still to come,
so that an assumption about the whole list of events can be consumed step by
step. `throughout_iff_meets` turns an exact condition for one step into an exact
condition for runs.
-/

namespace Runs

universe u v
variable {σ : Type u} {ε : Type v} (step : σ → ε → Option σ)

/-- Take the steps in order; a `for` loop over a list is such a run. -/
def run (events : List ε) (start : σ) : Option σ := events.foldlM step start

@[simp] theorem run_nil (start : σ) : run step [] start = some start := rfl

@[simp] theorem run_cons (event : ε) (rest : List ε) (start : σ) :
    run step (event :: rest) start = (step start event).bind (run step rest) := rfl

/-- A condition on the state before each step and the event of that step. -/
def Meets (condition : σ → ε → Prop) : List ε → σ → Prop
  | [], _ => True
  | event :: rest, current =>
    condition current event ∧ ∀ next, step current event = some next → Meets condition rest next

/-- A condition that is decided for each step is decided for runs. -/
instance decidableMeets (condition : σ → ε → Prop)
    [decided : ∀ current event, Decidable (condition current event)] :
    (events : List ε) → (start : σ) → Decidable (Meets step condition events start)
  | [], _ => isTrue trivial
  | event :: rest, current =>
    match taken : step current event with
    | none => decidable_of_iff (condition current event) (by simp [Meets, taken])
    | some next =>
      have := decidableMeets condition rest next
      decidable_of_iff (condition current event ∧ Meets step condition rest next)
        (by simp [Meets, taken])

/-- A property of every state of the run. -/
def Throughout (property : σ → Prop) : List ε → σ → Prop
  | [], current => property current
  | event :: rest, current =>
    property current ∧ ∀ next, step current event = some next → Throughout property rest next

/-- If every step that meets the condition is taken and keeps the invariant, then
every run whose steps meet the condition is completed and ends in the invariant. -/
theorem run_invariant (condition : σ → ε → Prop) (invariant : List ε → σ → Prop)
    (kept : ∀ event rest current, invariant (event :: rest) current → condition current event →
      ∃ next, step current event = some next ∧ invariant rest next)
    (events : List ε) (start : σ) (initial : invariant events start)
    (meets : Meets step condition events start) :
    ∃ final, run step events start = some final ∧ invariant [] final := by
  induction events generalizing start with
  | nil => exact ⟨start, rfl, initial⟩
  | cons event rest inductionHypothesis =>
    obtain ⟨next, taken, held⟩ := kept event rest start initial meets.1
    obtain ⟨final, completed, property⟩ := inductionHypothesis next held (meets.2 next taken)
    exact ⟨final, by simp only [run_cons, taken, Option.bind_some, completed], property⟩

/-- A condition that always holds is met by every run. -/
theorem meets_of_always (condition : σ → ε → Prop)
    (always : ∀ current event, condition current event)
    (events : List ε) (start : σ) : Meets step condition events start := by
  induction events generalizing start with
  | nil => trivial
  | cons event rest inductionHypothesis =>
    exact ⟨always start event, fun next _ => inductionHypothesis next⟩

/-- A condition that implies another one under an invariant is met by fewer runs. -/
theorem meets_of_meets (stronger condition : σ → ε → Prop) (invariant : σ → Prop)
    (implied : ∀ current event, invariant current → stronger current event →
      condition current event ∧ ∀ next, step current event = some next → invariant next)
    (events : List ε) (start : σ) (held : invariant start)
    (meets : Meets step stronger events start) : Meets step condition events start := by
  induction events generalizing start with
  | nil => trivial
  | cons event rest inductionHypothesis =>
    obtain ⟨met, kept⟩ := implied start event held meets.1
    exact ⟨met, fun next taken => inductionHypothesis next (kept next taken) (meets.2 next taken)⟩

/-- A condition on the events alone is met exactly when all events satisfy it, if
the steps that satisfy it are taken. -/
theorem meets_iff_forall (condition : ε → Prop) (invariant : σ → Prop)
    (kept : ∀ current event, invariant current →
      ∃ next, step current event = some next ∧ (condition event → invariant next))
    (events : List ε) (start : σ) (held : invariant start) :
    Meets step (fun _ => condition) events start ↔ ∀ event ∈ events, condition event := by
  induction events generalizing start with
  | nil => simp [Meets]
  | cons event rest inductionHypothesis =>
    obtain ⟨next, taken, following⟩ := kept start event held
    simp only [Meets, taken, Option.some.injEq, forall_eq', List.forall_mem_cons]
    exact and_congr_right fun satisfied => inductionHypothesis next (following satisfied)

/-- The invariant rule for steps that are taken under the invariant alone. -/
theorem run_total (invariant : List ε → σ → Prop)
    (kept : ∀ event rest current, invariant (event :: rest) current →
      ∃ next, step current event = some next ∧ invariant rest next)
    (events : List ε) (start : σ) (initial : invariant events start) :
    ∃ final, run step events start = some final ∧ invariant [] final :=
  run_invariant step (fun _ _ => True) invariant
    (fun event rest current held _ => kept event rest current held) events start initial
    (meets_of_always step _ (fun _ _ => trivial) events start)

/-- The invariant rule for a property that mentions the events so far. -/
theorem run_history (invariant : List ε → σ → Prop)
    (kept : ∀ past event current, invariant past current →
      ∃ next, step current event = some next ∧ invariant (past ++ [event]) next)
    (past events : List ε) (start : σ) (initial : invariant past start) :
    ∃ final, run step events start = some final ∧ invariant (past ++ events) final := by
  induction events generalizing past start with
  | nil => exact ⟨start, rfl, by rwa [List.append_nil]⟩
  | cons event rest inductionHypothesis =>
    obtain ⟨next, taken, held⟩ := kept past event start initial
    obtain ⟨final, completed, property⟩ := inductionHypothesis (past ++ [event]) next held
    refine ⟨final, by simp only [run_cons, taken, Option.bind_some, completed], ?_⟩
    rwa [List.append_assoc, List.singleton_append] at property

/-- An invariant that every step keeps and that implies a property gives the
property throughout. A refused step ends the run. -/
theorem throughout_of_invariant (property invariant : σ → Prop)
    (implied : ∀ current, invariant current → property current)
    (kept : ∀ current event next, invariant current → step current event = some next →
      invariant next)
    (events : List ε) (start : σ) (held : invariant start) :
    Throughout step property events start := by
  induction events generalizing start with
  | nil => exact implied start held
  | cons event rest inductionHypothesis =>
    exact ⟨implied start held, fun next taken =>
      inductionHypothesis next (kept start event next held taken)⟩

/-- A run that has a property throughout has it at its start. -/
theorem throughout_start (property : σ → Prop) (events : List ε) (start : σ)
    (always : Throughout step property events start) : property start := by
  cases events with
  | nil => exact always
  | cons event rest => exact always.1

/-- If a refused step meets the condition, and a step taken under the invariant leads
to the property exactly when it meets the condition, and then keeps the invariant,
then a run has the property throughout exactly when all its steps meet the
condition. -/
theorem throughout_iff_meets (condition : σ → ε → Prop) (property invariant : σ → Prop)
    (refused : ∀ current event, invariant current → step current event = none →
      condition current event)
    (exactly : ∀ current event next, invariant current → step current event = some next →
      (property next ↔ condition current event) ∧ (condition current event → invariant next))
    (events : List ε) (start : σ) (held : invariant start) (initial : property start) :
    Throughout step property events start ↔ Meets step condition events start := by
  induction events generalizing start with
  | nil => simp [Throughout, Meets, initial]
  | cons event rest inductionHypothesis =>
    simp only [Throughout, Meets, initial, true_and]
    cases taken : step start event with
    | none => simp [refused start event held taken]
    | some next =>
      obtain ⟨one, kept⟩ := exactly start event next held taken
      simp only [Option.some.injEq, forall_eq']
      constructor
      · intro following
        have reached := throughout_start step property rest next following
        have allowed : condition start event := one.mp reached
        exact ⟨allowed, (inductionHypothesis next (kept allowed) reached).mp following⟩
      · rintro ⟨allowed, meets⟩
        exact (inductionHypothesis next (kept allowed) (one.mpr allowed)).mpr meets

end Runs
