import BlueOs.Library.FuelledLoop

/-!
# Programs that may not end

A program runs with a bound on the executions of its loop bodies and either
finishes or is interrupted in the state it had reached. More fuel never changes a
finished run; this is a field of the structure, so every combinator keeps it.

Three questions are asked of a program. `Halts` asks whether some fuel is enough,
and the laws reduce it to the parts of a program and to the iterates of a loop
body. `Ensures` asks what holds when it finishes, and what holds of an interrupted
run, so that a safety property also covers runs that never end. `Achieves` asks for
both: the program returns, and in a given state.
-/

namespace Programs

open FuelledLoop

universe u
variable {σ : Type u}

structure Program (σ : Type u) where
  run : Nat → σ → Outcome σ
  stable : ∀ fuel more start last, fuel ≤ more →
    run fuel start = .finished last → run more start = .finished last

/-- A computation that always ends. -/
def step (compute : σ → σ) : Program σ where
  run _ start := .finished (compute start)
  stable _ _ _ _ _ ended := ended

def skip : Program σ := step id

def seq (first second : Program σ) : Program σ where
  run fuel start := (first.run fuel start).andThen (second.run fuel)
  stable fuel more start last enough ended := by
    obtain ⟨middle, before, after⟩ := (Outcome.andThen_finished_iff _ _ _).mp ended
    exact (Outcome.andThen_finished_iff _ _ _).mpr
      ⟨middle, first.stable fuel more start middle enough before,
        second.stable fuel more middle last enough after⟩

def branch (test : σ → Bool) (yes no : Program σ) : Program σ where
  run fuel start := if test start then yes.run fuel start else no.run fuel start
  stable fuel more start last enough ended := by
    split at ended
    case isTrue holds =>
      rw [if_pos holds]
      exact yes.stable fuel more start last enough ended
    case isFalse fails =>
      rw [if_neg fails]
      exact no.stable fuel more start last enough ended

def loop (guard : σ → Bool) (body : σ → σ) : Program σ where
  run := FuelledLoop.run guard body
  stable fuel more start last enough ended := run_mono guard body fuel more enough start last ended

/-- Run the programs of a list one after the other. -/
def sequence (programs : List (Program σ)) : Program σ := programs.foldr seq skip

/-- Some fuel lets the program finish in a state. -/
def Returns (program : Program σ) (start last : σ) : Prop :=
  ∃ fuel, program.run fuel start = .finished last

def Halts (program : Program σ) (start : σ) : Prop := ∃ last, Returns program start last

theorem returns_unique (program : Program σ) (start left right : σ)
    (one : Returns program start left) (other : Returns program start right) : left = right := by
  obtain ⟨fuel, ended⟩ := one
  obtain ⟨more, endedToo⟩ := other
  have same : Outcome.finished left = Outcome.finished right :=
    (program.stable fuel (max fuel more) start left (Nat.le_max_left _ _) ended).symm.trans
      (program.stable more (max fuel more) start right (Nat.le_max_right _ _) endedToo)
  cases same
  rfl

@[simp] theorem returns_step (compute : σ → σ) (start last : σ) :
    Returns (step compute) start last ↔ compute start = last := by
  simp [Returns, step]

theorem returns_seq (first second : Program σ) (start last : σ) :
    Returns (seq first second) start last ↔
      ∃ middle, Returns first start middle ∧ Returns second middle last := by
  constructor
  · rintro ⟨fuel, ended⟩
    obtain ⟨middle, before, after⟩ := (Outcome.andThen_finished_iff _ _ _).mp ended
    exact ⟨middle, ⟨fuel, before⟩, ⟨fuel, after⟩⟩
  · rintro ⟨middle, ⟨fuel, before⟩, ⟨more, after⟩⟩
    exact ⟨max fuel more, (Outcome.andThen_finished_iff _ _ _).mpr
      ⟨middle, first.stable _ _ _ _ (Nat.le_max_left _ _) before,
        second.stable _ _ _ _ (Nat.le_max_right _ _) after⟩⟩

@[simp] theorem halts_step (compute : σ → σ) (start : σ) : Halts (step compute) start := by
  simp [Halts]

@[simp] theorem halts_skip (start : σ) : Halts skip start := halts_step id start

/-- After a computation that always ends, the rest decides. -/
@[simp] theorem halts_step_seq (compute : σ → σ) (rest : Program σ) (start : σ) :
    Halts (seq (step compute) rest) start ↔ Halts rest (compute start) := by
  simp [Halts, returns_seq]

/-- After a first program that is known to return, the rest decides. -/
theorem halts_seq_of_returns (first second : Program σ) (start middle : σ)
    (returned : Returns first start middle) :
    Halts (seq first second) start ↔ Halts second middle := by
  simp only [Halts, returns_seq]
  constructor
  · rintro ⟨last, other, before, after⟩
    rw [returns_unique first start other middle before returned] at after
    exact ⟨last, after⟩
  · rintro ⟨last, after⟩
    exact ⟨last, middle, returned, after⟩

theorem halts_seq_first (first second : Program σ) (start : σ)
    (halts : Halts (seq first second) start) : Halts first start := by
  obtain ⟨last, returned⟩ := halts
  obtain ⟨middle, ends, -⟩ := (returns_seq first second start last).mp returned
  exact ⟨middle, ends⟩

/-- Before a second program that always halts, the first decides. -/
theorem halts_seq_of_total (first second : Program σ) (start : σ)
    (total : ∀ middle, Halts second middle) :
    Halts (seq first second) start ↔ Halts first start := by
  simp only [Halts, returns_seq]
  constructor
  · rintro ⟨last, middle, before, -⟩
    exact ⟨middle, before⟩
  · rintro ⟨middle, before⟩
    obtain ⟨last, after⟩ := total middle
    exact ⟨last, middle, before, after⟩

@[simp] theorem halts_branch (test : σ → Bool) (yes no : Program σ) (start : σ) :
    Halts (branch test yes no) start ↔ if test start then Halts yes start else Halts no start := by
  by_cases holds : test start = true <;> simp [Halts, Returns, branch, holds]

section loops

variable (guard : σ → Bool) (body : σ → σ)

/-- The loop ends in the first iterate of its body that falsifies the guard. -/
theorem returns_loop (count : Nat) (start : σ)
    (busy : ∀ earlier < count, guard (body^[earlier] start) = true)
    (done : guard (body^[count] start) = false) :
    Returns (loop guard body) start (body^[count] start) :=
  ⟨count, run_iterate guard body count count (Nat.le_refl _) start busy done⟩

theorem halts_loop_iff (start : σ) :
    Halts (loop guard body) start ↔ ∃ count, guard (body^[count] start) = false := by
  rw [← terminates_iff]
  exact exists_comm

theorem returns_loop_done (start : σ) (done : guard start = false) :
    Returns (loop guard body) start start :=
  returns_loop guard body 0 start (fun _ none => absurd none (Nat.not_lt_zero _)) done

/-- A loop whose guard holds is its body and then the loop. -/
theorem returns_loop_again (start last : σ) (again : guard start = true)
    (rest : Returns (loop guard body) (body start) last) :
    Returns (loop guard body) start last := by
  obtain ⟨fuel, ended⟩ := rest
  exact ⟨fuel + 1, (run_step guard body fuel start again).trans ended⟩

/-- To prove something of every state that the loop ends from, assume it of the state
after the body. -/
theorem halts_loop_induction {motive : σ → Prop}
    (done : ∀ current, guard current = false → motive current)
    (again : ∀ current, guard current = true → motive (body current) → motive current)
    (start : σ) (halts : Halts (loop guard body) start) : motive start := by
  obtain ⟨count, ended⟩ := (halts_loop_iff guard body start).mp halts
  induction count generalizing start with
  | zero => exact done start ended
  | succ count inductionHypothesis =>
    by_cases busy : guard start = true
    · apply again start busy
      rw [Function.iterate_succ_apply] at ended
      exact inductionHypothesis (body start)
        ((halts_loop_iff guard body (body start)).mpr ⟨count, ended⟩) ended
    · exact done start (by simpa using busy)

/-- A property of the state before every execution of the body. -/
def EachTurn (property : σ → Prop) (start : σ) : Prop :=
  ∀ count, (∀ earlier ≤ count, guard (body^[earlier] start) = true) →
    property (body^[count] start)

theorem eachTurn_done (property : σ → Prop) (start : σ) (done : guard start = false) :
    EachTurn guard body property start := by
  intro count busy
  rw [show guard start = true from busy 0 (Nat.zero_le count)] at done
  cases done

theorem eachTurn_again (property : σ → Prop) (start : σ) (again : guard start = true) :
    EachTurn guard body property start ↔
      property start ∧ EachTurn guard body property (body start) := by
  constructor
  · intro each
    constructor
    · apply each 0
      intro earlier first
      rw [Nat.le_zero.mp first]
      exact again
    · intro count busy
      apply each (count + 1)
      intro earlier within
      cases earlier with
      | zero => exact again
      | succ earlier => exact busy earlier (Nat.le_of_succ_le_succ within)
  · rintro ⟨first, rest⟩ count busy
    cases count with
    | zero => exact first
    | succ count =>
      exact rest count fun earlier within => busy (earlier + 1) (Nat.succ_le_succ within)

/-- What holds before a turn follows from an invariant that the turns keep. -/
theorem eachTurn_of_invariant (property invariant : σ → Prop)
    (holds : ∀ current, guard current = true → invariant current → property current)
    (kept : ∀ current, guard current = true → invariant current → invariant (body current))
    (start : σ) (initial : invariant start) : EachTurn guard body property start := by
  intro count busy
  have reached : invariant (body^[count] start) := by
    induction count with
    | zero => exact initial
    | succ count inductionHypothesis =>
      rw [Function.iterate_succ_apply']
      exact kept _ (busy count (Nat.le_succ count))
        (inductionHypothesis fun earlier within => busy earlier (Nat.le_succ_of_le within))
  exact holds _ (busy count (Nat.le_refl count)) reached

/-- What holds before every turn may be assumed when an invariant is shown to be kept. -/
theorem eachTurn_and_invariant (property invariant : σ → Prop)
    (kept : ∀ current, guard current = true → property current → invariant current →
      invariant (body current))
    (start : σ) (initial : invariant start) (each : EachTurn guard body property start) :
    EachTurn guard body (fun current => property current ∧ invariant current) start := by
  intro count busy
  induction count generalizing start with
  | zero => exact ⟨each 0 busy, initial⟩
  | succ count inductionHypothesis =>
    have again := busy 0 (Nat.zero_le _)
    obtain ⟨first, rest⟩ := (eachTurn_again guard body property start again).mp each
    exact inductionHypothesis (body start) (kept start again first initial) rest
      fun earlier within => busy (earlier + 1) (Nat.succ_le_succ within)

/-- A quantity that every turn lowers ends the loop. -/
theorem halts_loop_of_turns (measure : σ → Nat) (property : σ → Prop)
    (lowered : ∀ current, guard current = true → property current →
      measure (body current) < measure current)
    (start : σ) (each : EachTurn guard body property start) : Halts (loop guard body) start := by
  induction remaining : measure start using Nat.strongRecOn generalizing start with
  | ind bound inductionHypothesis =>
    by_cases again : guard start = true
    · obtain ⟨first, rest⟩ := (eachTurn_again guard body property start again).mp each
      obtain ⟨last, returned⟩ := inductionHypothesis (measure (body start))
        (remaining ▸ lowered start again first) (body start) rest rfl
      exact ⟨last, returns_loop_again guard body start last again returned⟩
    · exact ⟨start, returns_loop_done guard body start (by simpa using again)⟩

/-- A quantity that every execution of the body lowers ends the loop. -/
theorem halts_loop_of_measure (measure : σ → Nat)
    (lowered : ∀ current, guard current = true → measure (body current) < measure current)
    (start : σ) : Halts (loop guard body) start :=
  halts_loop_of_turns guard body measure (fun _ => True)
    (fun current again _ => lowered current again) start fun _ _ => trivial

/-- A guard that an invariant of the body keeps true never lets the loop end. -/
theorem not_halts_loop_of_invariant (invariant : σ → Prop)
    (kept : ∀ current, invariant current → invariant (body current))
    (busy : ∀ current, invariant current → guard current = true)
    (start : σ) (initial : invariant start) : ¬ Halts (loop guard body) start := by
  rw [halts_loop_iff]
  rintro ⟨count, done⟩
  have held : invariant (body^[count] start) :=
    Function.Iterate.rec invariant initial kept count
  rw [busy _ held] at done
  cases done

end loops

/-- A loop is told by what its body does where the guard holds. -/
theorem loop_congr (guard : σ → Bool) (body other : σ → σ)
    (agree : ∀ current, guard current = true → body current = other current) :
    loop guard body = loop guard other := by
  have runs : ∀ fuel current,
      FuelledLoop.run guard body fuel current = FuelledLoop.run guard other fuel current := by
    intro fuel
    induction fuel with
    | zero =>
      intro current
      rfl
    | succ fuel inductionHypothesis =>
      intro current
      by_cases again : guard current = true
      · rw [run_step guard body fuel current again, run_step guard other fuel current again,
          agree current again, inductionHypothesis]
      · have done : guard current = false := by simpa using again
        rw [run_done guard body _ current done, run_done guard other _ current done]
  simp only [loop, Program.mk.injEq]
  funext fuel current
  exact runs fuel current

/-- From every state of `before` a finished run is in `after` and an interrupted
one in `throughout`. -/
def Ensures (before : σ → Prop) (program : Program σ) (after throughout : σ → Prop) : Prop :=
  ∀ fuel start, before start →
    match program.run fuel start with
    | .finished last => after last
    | .interrupted last => throughout last

section rules

variable (before middle after throughout : σ → Prop)

theorem ensures_step (compute : σ → σ) (computed : ∀ start, before start → after (compute start)) :
    Ensures before (step compute) after throughout := by
  intro fuel start held
  exact computed start held

theorem ensures_weaken {before after throughout : σ → Prop} {program : Program σ}
    (ensured : Ensures before program after throughout) {weaker : σ → Prop}
    (implied : ∀ last, after last → weaker last) : Ensures before program weaker throughout := by
  intro fuel start held
  have ends := ensured fuel start held
  cases ended : program.run fuel start with
  | finished last =>
    rw [ended] at ends
    exact implied last ends
  | interrupted last =>
    rw [ended] at ends
    exact ends

theorem ensures_seq (first second : Program σ) (one : Ensures before first middle throughout)
    (other : Ensures middle second after throughout) :
    Ensures before (seq first second) after throughout := by
  intro fuel start held
  have firstEnds := one fuel start held
  simp only [seq]
  cases ended : first.run fuel start with
  | finished last =>
    rw [ended] at firstEnds
    exact other fuel last firstEnds
  | interrupted last =>
    rw [ended] at firstEnds
    exact firstEnds

theorem ensures_branch (test : σ → Bool) (yes no : Program σ)
    (holds : Ensures (fun start => before start ∧ test start = true) yes after throughout)
    (fails : Ensures (fun start => before start ∧ test start = false) no after throughout) :
    Ensures before (branch test yes no) after throughout := by
  intro fuel start held
  by_cases tested : test start = true
  · simp only [branch, if_pos tested]
    exact holds fuel start ⟨held, tested⟩
  · simp only [branch, if_neg tested]
    exact fails fuel start ⟨held, by simpa using tested⟩

/-- The invariant rule: it holds of every interrupted run too. -/
theorem ensures_loop (guard : σ → Bool) (body : σ → σ) (invariant : σ → Prop)
    (kept : ∀ current, invariant current → guard current = true → invariant (body current))
    (entered : ∀ start, before start → invariant start)
    (left : ∀ last, invariant last → guard last = false → after last)
    (always : ∀ last, invariant last → throughout last) :
    Ensures before (loop guard body) after throughout := by
  intro fuel start held
  have preserved := run_invariant guard body invariant kept fuel start (entered start held)
  simp only [loop]
  cases ended : FuelledLoop.run guard body fuel start with
  | finished last =>
    rw [ended] at preserved
    exact left last preserved (finished_guard guard body fuel start last ended)
  | interrupted last =>
    rw [ended] at preserved
    exact always last preserved

/-- A property that every program of a list keeps is kept by their sequence. -/
theorem ensures_sequence (programs : List (Program σ))
    (each : ∀ program ∈ programs, Ensures before program before throughout) :
    Ensures before (sequence programs) before throughout := by
  induction programs with
  | nil => exact ensures_step before before throughout id fun _ held => held
  | cons first rest inductionHypothesis =>
    refine ensures_seq before before before throughout first (sequence rest)
      (each first List.mem_cons_self) (inductionHypothesis ?_)
    intro program member
    exact each program (List.mem_cons_of_mem first member)

end rules

/-- From every state of `before` the program returns, in a state of `after`. -/
def Achieves (before : σ → Prop) (program : Program σ) (after : σ → Prop) : Prop :=
  ∀ start, before start → ∃ last, Returns program start last ∧ after last

section achieving

variable (before middle after : σ → Prop)

theorem achieves_step (compute : σ → σ) (computed : ∀ start, before start → after (compute start)) :
    Achieves before (step compute) after := by
  intro start held
  exact ⟨compute start, (returns_step compute start _).mpr rfl, computed start held⟩

theorem achieves_seq (first second : Program σ) (one : Achieves before first middle)
    (other : Achieves middle second after) : Achieves before (seq first second) after := by
  intro start held
  obtain ⟨between, returned, reached⟩ := one start held
  obtain ⟨last, following, done⟩ := other between reached
  exact ⟨last, (returns_seq first second start last).mpr ⟨between, returned, following⟩, done⟩

theorem achieves_weaken {before after : σ → Prop} {program : Program σ}
    (achieved : Achieves before program after) {weaker : σ → Prop}
    (implied : ∀ last, after last → weaker last) : Achieves before program weaker := by
  intro start held
  obtain ⟨last, returned, done⟩ := achieved start held
  exact ⟨last, returned, implied last done⟩

/-- A branch whose test fails is its second program. -/
theorem achieves_branch_no (test : σ → Bool) (yes no : Program σ)
    (fails : ∀ start, before start → test start = false) (achieved : Achieves before no after) :
    Achieves before (branch test yes no) after := by
  intro start held
  obtain ⟨last, ⟨fuel, ended⟩, done⟩ := achieved start held
  refine ⟨last, ⟨fuel, ?_⟩, done⟩
  simp only [branch, fails start held, Bool.false_eq_true, if_false]
  exact ended

theorem achieves_branch (test : σ → Bool) (yes no : Program σ)
    (holds : Achieves (fun start => before start ∧ test start = true) yes after)
    (fails : Achieves (fun start => before start ∧ test start = false) no after) :
    Achieves before (branch test yes no) after := by
  intro start held
  by_cases tested : test start = true
  · obtain ⟨last, ⟨fuel, ended⟩, done⟩ := holds start ⟨held, tested⟩
    exact ⟨last, ⟨fuel, by simpa only [branch, if_pos tested] using ended⟩, done⟩
  · obtain ⟨last, ⟨fuel, ended⟩, done⟩ := fails start ⟨held, by simpa using tested⟩
    exact ⟨last, ⟨fuel, by simpa only [branch, if_neg tested] using ended⟩, done⟩

/-- What a finished run ensures holds of the state returned. -/
theorem ensures_returns {before after throughout : σ → Prop} {program : Program σ}
    (ensured : Ensures before program after throughout) (start last : σ) (held : before start)
    (returned : Returns program start last) : after last := by
  obtain ⟨fuel, ended⟩ := returned
  have ends := ensured fuel start held
  rw [ended] at ends
  exact ends

/-- A program that halts achieves what its finished runs ensure. -/
theorem achieves_of_ensures {before after throughout : σ → Prop} {program : Program σ}
    (ensured : Ensures before program after throughout)
    (halts : ∀ start, before start → Halts program start) : Achieves before program after := by
  intro start held
  obtain ⟨last, returned⟩ := halts start held
  exact ⟨last, returned, ensures_returns ensured start last held returned⟩

/-- The counted loop: an invariant indexed by the turns keeps the guard true until
the last turn and makes it false there. -/
theorem achieves_loop (guard : σ → Bool) (body : σ → σ) (invariant : Nat → σ → Prop)
    (first last : Nat) (ordered : first ≤ last)
    (kept : ∀ turn current, first ≤ turn → turn < last → invariant turn current →
      guard current = true ∧ invariant (turn + 1) (body current))
    (ended : ∀ current, invariant last current → guard current = false) :
    Achieves (invariant first) (loop guard body) (invariant last) := by
  intro start entered
  have iterates (count : Nat) (within : first + count ≤ last) :
      invariant (first + count) (body^[count] start) := by
    induction count with
    | zero => exact entered
    | succ count inductionHypothesis =>
      rw [Function.iterate_succ_apply']
      exact (kept (first + count) _ (by omega) (by omega) (inductionHypothesis (by omega))).2
  have final : invariant last (body^[last - first] start) := by
    have reached := iterates (last - first) (by omega)
    rwa [show first + (last - first) = last by omega] at reached
  refine ⟨_, returns_loop guard body (last - first) start ?_ (ended _ final), final⟩
  intro earlier before
  exact (kept (first + earlier) _ (by omega) (by omega) (iterates earlier (by omega))).1

end achieving

end Programs
