/-! Runs of a step that may not return: properties of every state reached, and
conditions on every step taken. -/

namespace Embedded

variable {σ ι : Type} (step : σ → ι → Option σ)

/-- `holds` in every state that is reached. -/
def Throughout (holds : σ → Prop) : σ → List ι → Prop
  | state, [] => holds state
  | state, input :: rest => holds state ∧ ∀ next, step state input = some next → Throughout holds next rest

/-- `allowed` is true of every step that is taken. -/
def Along (allowed : σ → ι → Prop) : σ → List ι → Prop
  | _, [] => True
  | state, input :: rest => ∀ next, step state input = some next → allowed state input ∧ Along allowed next rest

variable {step} {invariant holds : σ → Prop} {allowed : σ → ι → Prop} {state : σ} {inputs : List ι}

theorem Throughout.start (throughout : Throughout step holds state inputs) : holds state := by
  cases inputs with
  | nil => exact throughout
  | cons input rest => exact throughout.1

/-- An invariant that just the allowed steps keep. -/
theorem throughout_iff_along (implies : ∀ state, invariant state → holds state)
    (kept : ∀ state input next, invariant state → step state input = some next → allowed state input → invariant next)
    (broken : ∀ state input next, invariant state → step state input = some next → holds next → allowed state input)
    (start : invariant state) : Throughout step holds state inputs ↔ Along step allowed state inputs := by
  induction inputs generalizing state with
  | nil => exact iff_of_true (implies state start) trivial
  | cons input rest ih =>
    constructor
    · rintro ⟨_, later⟩ next stepped
      have fine := broken state input next start stepped (later next stepped).start
      exact ⟨fine, (ih (kept state input next start stepped fine)).mp (later next stepped)⟩
    · intro along
      refine ⟨implies state start, ?_⟩
      intro next stepped
      have ⟨fine, later⟩ := along next stepped
      exact (ih (kept state input next start stepped fine)).mpr later

section Total

variable {τ : Type} (moves : σ → ι → σ → Prop) (forward : τ → ι → τ)

/-- Every step returns, and `holds` in every state that is reached. -/
def Sustained (holds : σ → Prop) : σ → List ι → Prop
  | state, [] => holds state
  | state, input :: rest =>
    holds state ∧ (∃ next, moves state input next) ∧ ∀ next, moves state input next → Sustained holds next rest

/-- `allowed` is true of every input, judged by what `forward` makes of the
inputs before it. -/
def Foreseen (allowed : τ → ι → Prop) : τ → List ι → Prop
  | _, [] => True
  | view, input :: rest => allowed view input ∧ Foreseen allowed (forward view input) rest

instance Foreseen.decide {allowed : τ → ι → Prop} [∀ view input, Decidable (allowed view input)] :
    ∀ view inputs, Decidable (Foreseen forward allowed view inputs)
  | _, [] => .isTrue trivial
  | view, input :: rest => @instDecidableAnd _ _ inferInstance (Foreseen.decide (forward view input) rest)

variable {moves} {forward} {legal fitting : τ → ι → Prop}

theorem Sustained.start (sustained : Sustained moves holds state inputs) : holds state := by
  cases inputs with
  | nil => exact sustained
  | cons input rest => exact sustained.1

/-- An invariant that just the fitting inputs keep, where a view of the state is
enough to tell which inputs fit. -/
theorem sustained_iff_foreseen (view : σ → τ) (implies : ∀ state, invariant state → holds state)
    (viewed : ∀ state input next, legal (view state) input → moves state input next →
      view next = forward (view state) input)
    (returns : ∀ state input, invariant state → legal (view state) input → fitting (view state) input →
      ∃ next, moves state input next)
    (kept : ∀ state input next, invariant state → legal (view state) input → fitting (view state) input →
      moves state input next → invariant next)
    (broken : ∀ state input next, invariant state → legal (view state) input → moves state input next → holds next →
      fitting (view state) input)
    (start : invariant state) (lawful : Foreseen forward legal (view state) inputs) :
    Sustained moves holds state inputs ↔ Foreseen forward fitting (view state) inputs := by
  induction inputs generalizing state with
  | nil => exact iff_of_true (implies state start) trivial
  | cons input rest ih =>
    obtain ⟨allowed, lawful⟩ := lawful
    constructor
    · intro ⟨_, ⟨next, moved⟩, later⟩
      have sustained := later next moved
      have fits := broken state input next start allowed moved sustained.start
      have seen := viewed state input next allowed moved
      have invariant := kept state input next start allowed fits moved
      refine ⟨fits, ?_⟩
      rw [← seen] at lawful ⊢
      exact (ih invariant lawful).mp sustained
    · intro ⟨fits, foreseen⟩
      refine ⟨implies state start, returns state input start allowed fits, ?_⟩
      intro next moved
      have seen := viewed state input next allowed moved
      rw [← seen] at lawful foreseen
      exact (ih (kept state input next start allowed fits moved) lawful).mpr foreseen

end Total

end Embedded
