/-! Machines that answer every input with a list of outputs, their runs, and
the rules that lift a fact about one step to every run. -/

namespace Embedded

structure Mealy (σ ι ο : Type) where
  step : σ → ι → σ × List ο

namespace Mealy

variable {σ τ ι ο : Type} (m : Mealy σ ι ο)

/-- The state after a list of inputs, with all outputs in order. -/
def run : σ → List ι → σ × List ο
  | state, [] => (state, [])
  | state, input :: rest =>
    let next := m.step state input
    let last := run next.1 rest
    (last.1, next.2 ++ last.2)

@[simp] theorem run_nil (state : σ) : m.run state [] = (state, []) := rfl

theorem run_cons (state : σ) (input : ι) (rest : List ι) :
    m.run state (input :: rest) =
      ((m.run (m.step state input).1 rest).1,
        (m.step state input).2 ++ (m.run (m.step state input).1 rest).2) := rfl

theorem run_append (state : σ) (first rest : List ι) :
    m.run state (first ++ rest) =
      ((m.run (m.run state first).1 rest).1,
        (m.run state first).2 ++ (m.run (m.run state first).1 rest).2) := by
  induction first generalizing state with
  | nil => simp
  | cons input first ih =>
    simp only [List.cons_append, run_cons, ih, List.append_assoc]

theorem run_concat (state : σ) (inputs : List ι) (input : ι) :
    m.run state (inputs ++ [input]) =
      ((m.step (m.run state inputs).1 input).1,
        (m.run state inputs).2 ++ (m.step (m.run state inputs).1 input).2) := by
  simp [run_append, run_cons]

/-- An invariant of one step is an invariant of every run. -/
theorem run_preserves {holds : σ → Prop}
    (preserved : ∀ state input, holds state → holds (m.step state input).1)
    {state : σ} (start : holds state) (inputs : List ι) : holds (m.run state inputs).1 := by
  induction inputs generalizing state with
  | nil => exact start
  | cons input rest ih => exact ih (preserved state input start)

/-- An invariant that only some steps break holds until the first of them. -/
theorem run_preserves_until {holds : σ → Prop} {breaks : σ → ι → Prop}
    (preserved : ∀ state input, holds state → ¬ breaks state input → holds (m.step state input).1)
    {state : σ} (start : holds state) (inputs : List ι) :
    holds (m.run state inputs).1 ∨
      ∃ before input after, inputs = before ++ input :: after ∧ breaks (m.run state before).1 input := by
  induction inputs generalizing state with
  | nil => exact .inl start
  | cons input rest ih =>
    by_cases broken : breaks state input
    · exact .inr ⟨[], input, rest, rfl, broken⟩
    · rcases ih (preserved state input start broken) with kept | ⟨before, next, after, split, later⟩
      · exact .inl kept
      · exact .inr ⟨input :: before, next, after, by rw [split]; rfl, later⟩

/-- Where every input that counts ends the work or lowers a measure, and no other
input raises it, the work ends within as many of those inputs. -/
theorem run_reaches {holds done : σ → Prop} {measure : σ → Nat} {counts : ι → Bool}
    (preserved : ∀ state input, holds state → holds (m.step state input).1)
    (positive : ∀ state, holds state → ¬ done state → 0 < measure state)
    (lowered : ∀ state input, holds state → ¬ done state → counts input = true →
      done (m.step state input).1 ∨ measure (m.step state input).1 < measure state)
    (kept : ∀ state input, counts input = false → measure (m.step state input).1 ≤ measure state)
    {state : σ} (start : holds state) {inputs : List ι} (enough : measure state ≤ (inputs.filter counts).length) :
    ∃ taken rest, inputs = taken ++ rest ∧ (taken.filter counts).length ≤ measure state ∧
      done (m.run state taken).1 := by
  induction inputs generalizing state with
  | nil =>
    refine ⟨[], [], rfl, Nat.zero_le _, ?_⟩
    apply Classical.byContradiction
    intro unfinished
    have some := positive state start unfinished
    exact absurd enough (Nat.not_le_of_lt some)
  | cons input inputs ih =>
    by_cases finished : done state
    · exact ⟨[], input :: inputs, rfl, Nat.zero_le _, finished⟩
    · have some := positive state start finished
      have next := preserved state input start
      cases counted : counts input with
      | false =>
        have above := kept state input counted
        rw [List.filter_cons_of_neg (by simp [counted])] at enough
        obtain ⟨taken, rest, split, short, reached⟩ := ih next (Nat.le_trans above enough)
        refine ⟨input :: taken, rest, by rw [split, List.cons_append], ?_, reached⟩
        rw [List.filter_cons_of_neg (by simp [counted])]
        exact Nat.le_trans short above
      | true =>
        rw [List.filter_cons_of_pos counted, List.length_cons] at enough
        rcases lowered state input start finished counted with reached | below
        · refine ⟨[input], inputs, rfl, ?_, reached⟩
          rw [List.filter_cons_of_pos counted]
          exact some
        · obtain ⟨taken, rest, split, short, reached⟩ := ih next (by omega)
          refine ⟨input :: taken, rest, by rw [split, List.cons_append], ?_, reached⟩
          rw [List.filter_cons_of_pos counted, List.length_cons]
          omega

theorem output_source {state : σ} {inputs : List ι} {output : ο}
    (produced : output ∈ (m.run state inputs).2) :
    ∃ before input after, inputs = before ++ input :: after ∧
      output ∈ (m.step (m.run state before).1 input).2 := by
  induction inputs generalizing state with
  | nil => cases produced
  | cons input rest ih =>
    rcases List.mem_append.mp produced with now | later
    · exact ⟨[], input, rest, rfl, now⟩
    · obtain ⟨before, next, after, split, made⟩ := ih later
      exact ⟨input :: before, next, after, by rw [split]; rfl, made⟩

/-- `related` ties the states of two machines that read the same inputs and
must answer alike. -/
structure Simulation (m : Mealy σ ι ο) (n : Mealy τ ι ο) (related : σ → τ → Prop) : Prop where
  state : ∀ s t input, related s t → related (m.step s input).1 (n.step t input).1
  output : ∀ s t input, related s t → (m.step s input).2 = (n.step t input).2

variable {m} {n : Mealy τ ι ο} {related : σ → τ → Prop}

theorem Simulation.run (simulation : Simulation m n related) {s : σ} {t : τ}
    (start : related s t) (inputs : List ι) :
    related (m.run s inputs).1 (n.run t inputs).1 ∧ (m.run s inputs).2 = (n.run t inputs).2 := by
  induction inputs generalizing s t with
  | nil => exact ⟨start, rfl⟩
  | cons input rest ih =>
    have next := ih (simulation.state s t input start)
    exact ⟨next.1, by rw [run_cons, run_cons, simulation.output s t input start, next.2]⟩

end Mealy

end Embedded
