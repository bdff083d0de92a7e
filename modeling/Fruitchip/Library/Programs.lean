import Mathlib.Logic.Basic

/-! Programs that can fail: what has to hold before, for a program to end without an
error and with a result of some kind. Loops that may go round forever: what they
leave, when they end and when they do not. -/

namespace Embedded

variable {ε α β σ : Type}

/-- The program ends, and its result is of this kind. -/
def Ends (program : Except ε α) (wanted : α → Prop) : Prop := ∃ value, program = .ok value ∧ wanted value

namespace Ends

@[simp] theorem pure (value : α) (wanted : α → Prop) : Ends (Pure.pure value : Except ε α) wanted ↔ wanted value := by
  constructor
  · intro ends
    obtain ⟨result, same, holds⟩ := ends
    cases same
    exact holds
  · exact fun holds => ⟨value, rfl, holds⟩

@[simp] theorem error (fault : ε) (wanted : α → Prop) : ¬ Ends (.error fault : Except ε α) wanted := by
  intro ends
  obtain ⟨result, same, _⟩ := ends
  cases same

@[simp] theorem bind (program : Except ε α) (next : α → Except ε β) (wanted : β → Prop) :
    Ends (program >>= next) wanted ↔ Ends program fun value => Ends (next value) wanted := by
  cases program with
  | error fault =>
    constructor
    · exact fun ends => absurd ends (error fault wanted)
    · exact fun ends => absurd ends (error fault _)
  | ok value =>
    constructor
    · exact fun ends => ⟨value, rfl, ends⟩
    · intro ends
      obtain ⟨result, same, holds⟩ := ends
      cases same
      exact holds

theorem ite (condition : Prop) [Decidable condition] (first second : Except ε α) (wanted : α → Prop) :
    Ends (if condition then first else second) wanted ↔
      if condition then Ends first wanted else Ends second wanted := by
  split <;> rfl

/-- A loop whose body needs something of each element alone. -/
theorem foldlM {step : σ → β → Except ε σ} {next : σ → β → σ} {needs : β → Prop}
    (spec : ∀ state item wanted, Ends (step state item) wanted ↔ needs item ∧ wanted (next state item))
    (items : List β) (state : σ) (wanted : σ → Prop) :
    Ends (items.foldlM step state) wanted ↔ (∀ item ∈ items, needs item) ∧ wanted (items.foldl next state) := by
  induction items generalizing state with
  | nil =>
    rw [List.foldlM_nil, pure, List.foldl_nil]
    exact ⟨fun holds => ⟨fun _ member => (nomatch member), holds⟩, And.right⟩
  | cons item items ih =>
    rw [List.foldlM_cons, bind, spec, ih, List.forall_mem_cons, List.foldl_cons, and_assoc]

end Ends

variable {σ : Type}

/-- `while (again) body`, if the condition fails within so many tests of it. -/
def whileLoop (again : σ → Prop) [DecidablePred again] (body : σ → σ) : Nat → σ → Option σ
  | 0, _ => none
  | tests + 1, state => if again state then whileLoop again body tests (body state) else some state

variable {again : σ → Prop} [DecidablePred again] {body : σ → σ} {tests : Nat} {state result : σ} (holds : σ → Prop)

theorem whileLoop_leaves (kept : ∀ state, holds state → again state → holds (body state)) (start : holds state)
    (ended : whileLoop again body tests state = some result) : holds result ∧ ¬ again result := by
  induction tests generalizing state with
  | zero => cases ended
  | succ tests ih =>
    unfold whileLoop at ended
    split at ended
    next round => exact ih (kept state start round) ended
    next stop =>
      cases ended
      exact ⟨start, stop⟩

/-- Every round lowers a measure, and one more test finds the end. -/
theorem whileLoop_ends (measure : σ → Nat) (kept : ∀ state, holds state → again state → holds (body state))
    (lowered : ∀ state, holds state → again state → measure (body state) < measure state) (start : holds state)
    (enough : measure state < tests) : ∃ result, whileLoop again body tests state = some result := by
  induction tests generalizing state with
  | zero => cases enough
  | succ tests ih =>
    unfold whileLoop
    split
    next round =>
      have below := lowered state start round
      exact ih (kept state start round) (by omega)
    · exact ⟨state, rfl⟩

/-- Every round leads to one more, so no number of tests is enough. -/
theorem whileLoop_forever (again_of : ∀ state, holds state → again state) (kept : ∀ state, holds state → holds (body state))
    (start : holds state) : whileLoop again body tests state = none := by
  induction tests generalizing state with
  | zero => rfl
  | succ tests ih =>
    unfold whileLoop
    rw [if_pos (again_of state start)]
    exact ih (kept state start)

end Embedded
