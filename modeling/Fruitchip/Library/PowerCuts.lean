import Mathlib.Data.List.Infix

/-! Stores that keep a checkpoint and a journal of the updates made since, and
operations that are carried out one after the other while power can be lost
between any two of them. -/

namespace Embedded

structure Journal (σ ε : Type) where
  base : σ
  entries : List ε

namespace Journal

variable {σ ε : Type} (update : σ → ε → σ)

/-- A fresh checkpoint with nothing logged behind it. -/
def checkpoint (contents : σ) : Journal σ ε := ⟨contents, []⟩

def append (journal : Journal σ ε) (entry : ε) : Journal σ ε :=
  ⟨journal.base, journal.entries ++ [entry]⟩

def contents (journal : Journal σ ε) : σ := journal.entries.foldl update journal.base

@[simp] theorem contents_checkpoint (state : σ) :
    (checkpoint state : Journal σ ε).contents update = state := rfl

@[simp] theorem contents_append (journal : Journal σ ε) (entry : ε) :
    (journal.append entry).contents update = update (journal.contents update) entry := by
  simp [contents, append]

@[simp] theorem append_length (journal : Journal σ ε) (entry : ε) :
    (journal.append entry).entries.length = journal.entries.length + 1 := by
  simp [append]

theorem contents_keeps {holds : σ → Prop} (kept : ∀ state entry, holds state → holds (update state entry))
    {journal : Journal σ ε} (base : holds journal.base) : holds (journal.contents update) := by
  obtain ⟨state, entries⟩ := journal
  induction entries generalizing state with
  | nil => exact base
  | cons entry entries ih => exact ih (update state entry) (kept state entry base)

end Journal

variable {σ ε : Type} (perform : σ → ε → σ)

/-- However many of the operations are carried out before power is lost, `holds`
of them and of what they leave. -/
def Cuts (operations : List ε) (holds : List ε → σ → Prop) (start : σ) : Prop :=
  ∀ performed, performed <+: operations → holds performed (performed.foldl perform start)

variable {perform} {operations first rest : List ε} {holds later : List ε → σ → Prop} {start : σ} {operation : ε}

theorem cuts_nil : Cuts perform [] holds start ↔ holds [] start := by
  constructor
  · exact fun cuts => cuts [] (List.prefix_refl [])
  · intro done performed cut
    obtain rfl := List.prefix_nil.mp cut
    exact done

theorem cuts_cons :
    Cuts perform (operation :: rest) holds start ↔
      holds [] start ∧ Cuts perform rest (fun performed => holds (operation :: performed)) (perform start operation) := by
  constructor
  · intro cuts
    exact ⟨cuts [] List.nil_prefix, fun performed cut => cuts (operation :: performed) (List.cons_prefix_cons.mpr ⟨rfl, cut⟩)⟩
  · rintro ⟨none, more⟩ performed cut
    cases performed with
    | nil => exact none
    | cons head performed =>
      obtain ⟨rfl, shorter⟩ := List.cons_prefix_cons.mp cut
      exact more performed shorter

theorem cuts_append :
    Cuts perform (first ++ rest) holds start ↔
      Cuts perform first holds start ∧
        Cuts perform rest (fun performed => holds (first ++ performed)) (first.foldl perform start) := by
  induction first generalizing start holds with
  | nil =>
    constructor
    · exact fun cuts => ⟨cuts_nil.mpr (cuts [] List.nil_prefix), cuts⟩
    · exact fun cuts => cuts.2
  | cons operation first ih =>
    rw [List.cons_append, cuts_cons, ih, cuts_cons, and_assoc]
    rfl

theorem Cuts.none (cuts : Cuts perform operations holds start) : holds [] start := cuts [] List.nil_prefix

theorem Cuts.all (cuts : Cuts perform operations holds start) : holds operations (operations.foldl perform start) :=
  cuts operations (List.prefix_refl operations)

theorem Cuts.after (cuts : Cuts perform operations holds start) (steps : Nat) :
    holds (operations.take steps) ((operations.take steps).foldl perform start) :=
  cuts _ (List.take_prefix steps operations)

theorem Cuts.weaken (cuts : Cuts perform operations holds start)
    (implies : ∀ performed state, holds performed state → later performed state) :
    Cuts perform operations later start := fun performed cut => implies _ _ (cuts performed cut)

/-- Operations that keep an invariant can be cut anywhere. -/
theorem cuts_of_kept {invariant : σ → Prop} (holds : invariant start)
    (kept : ∀ operation ∈ operations, ∀ state, invariant state → invariant (perform state operation)) :
    Cuts perform operations (fun _ => invariant) start := by
  induction operations generalizing start with
  | nil => exact cuts_nil.mpr holds
  | cons operation rest ih =>
    refine cuts_cons.mpr ⟨holds, ih (kept operation List.mem_cons_self _ holds) ?_⟩
    exact fun other member => kept other (List.mem_cons_of_mem _ member)

end Embedded
