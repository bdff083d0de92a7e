import Fruitchip.Library.Mealy
import Mathlib.Data.List.Induction

/-! Streams of frames without an explicit length or checksum layer: after every
input the bytes collected so far are either hopeless, or still growing, or a
complete frame that is executed at once. -/

namespace Embedded

inductive Verdict (κ : Type) where
  | reject
  | growing
  | complete (frame : κ)

structure Framing (ι κ ω ο : Type) where
  verdict : List ι → Verdict κ
  execute : κ → ω → ω × List ο

namespace Framing

variable {ι κ ω ο : Type}

structure State (ι ω : Type) where
  pending : List ι
  world : ω

theorem State.idle {state : State ι ω} (resting : state.pending = []) :
    state = ⟨[], state.world⟩ := by
  rw [← resting]

variable (f : Framing ι κ ω ο)

def machine : Mealy (State ι ω) ι ο where
  step state input :=
    match f.verdict (state.pending ++ [input]) with
    | .reject => (⟨[], state.world⟩, [])
    | .growing => (⟨state.pending ++ [input], state.world⟩, [])
    | .complete frame =>
      (⟨[], (f.execute frame state.world).1⟩, (f.execute frame state.world).2)

/-- Bytes that keep growing at every length. -/
def Grows (bytes : List ι) : Prop :=
  ∀ size, 0 < size → size ≤ bytes.length → f.verdict (bytes.take size) = .growing

/-- Bytes that grow until the last one completes the frame. -/
structure IsFrame (bytes : List ι) (frame : κ) : Prop where
  grows : ∀ size, 0 < size → size < bytes.length → f.verdict (bytes.take size) = .growing
  complete : f.verdict bytes = .complete frame

variable {f}

theorem step_growing {pending : List ι} {world : ω} {input : ι}
    (growing : f.verdict (pending ++ [input]) = .growing) :
    f.machine.step ⟨pending, world⟩ input = (⟨pending ++ [input], world⟩, []) := by
  simp only [machine, growing]

theorem step_reject {pending : List ι} {world : ω} {input : ι}
    (reject : f.verdict (pending ++ [input]) = .reject) :
    f.machine.step ⟨pending, world⟩ input = (⟨[], world⟩, []) := by
  simp only [machine, reject]

theorem step_complete {pending : List ι} {world : ω} {input : ι} {frame : κ}
    (complete : f.verdict (pending ++ [input]) = .complete frame) :
    f.machine.step ⟨pending, world⟩ input =
      (⟨[], (f.execute frame world).1⟩, (f.execute frame world).2) := by
  simp only [machine, complete]

private theorem run_growing (done rest : List ι) (world : ω)
    (grows : ∀ size, done.length < size → size ≤ (done ++ rest).length →
      f.verdict ((done ++ rest).take size) = .growing) :
    f.machine.run ⟨done, world⟩ rest = (⟨done ++ rest, world⟩, []) := by
  induction rest generalizing done with
  | nil => simp
  | cons input rest ih =>
    have first : f.verdict (done ++ [input]) = .growing := by
      have here := grows (done.length + 1) (by omega) (by simp)
      rwa [List.take_append, List.take_of_length_le (by omega), Nat.add_sub_cancel_left,
        List.take_succ_cons, List.take_zero] at here
    have shape : done ++ input :: rest = (done ++ [input]) ++ rest := by simp
    have later := ih (done ++ [input]) (by
      intro size above below
      rw [← shape] at below ⊢
      exact grows size (by simp at above; omega) below)
    rw [Mealy.run_cons, step_growing first, later, shape]
    rfl

theorem run_grows {bytes : List ι} (grows : f.Grows bytes) (world : ω) :
    f.machine.run ⟨[], world⟩ bytes = (⟨bytes, world⟩, []) := by
  apply run_growing [] bytes world
  intro size above below
  exact grows size above below

/-- A frame that starts when nothing is pending is executed exactly once, by
its last byte. -/
theorem run_frame {bytes : List ι} {frame : κ} (isFrame : f.IsFrame bytes frame)
    (nonempty : bytes ≠ []) (world : ω) :
    f.machine.run ⟨[], world⟩ bytes =
      (⟨[], (f.execute frame world).1⟩, (f.execute frame world).2) := by
  obtain ⟨init, last, rfl⟩ : ∃ init last, bytes = init ++ [last] :=
    ⟨bytes.dropLast, bytes.getLast nonempty, (List.dropLast_concat_getLast nonempty).symm⟩
  have grows : f.Grows init := by
    intro size above below
    have here := isFrame.grows size above (by simp; omega)
    rwa [List.take_append_of_le_length below] at here
  rw [Mealy.run_concat, run_grows grows]
  simp only [step_complete isFrame.complete, List.nil_append]

/-- Whatever has been read splits into a part after which nothing was pending
and the bytes pending now. -/
theorem idle_split (world : ω) (inputs : List ι) :
    ∃ before, inputs = before ++ (f.machine.run ⟨[], world⟩ inputs).1.pending ∧
      f.Grows (f.machine.run ⟨[], world⟩ inputs).1.pending ∧
      f.machine.run ⟨[], world⟩ before =
        (⟨[], (f.machine.run ⟨[], world⟩ inputs).1.world⟩, (f.machine.run ⟨[], world⟩ inputs).2) := by
  induction inputs using List.reverseRecOn with
  | nil => exact ⟨[], rfl, by intro size above below; simp at below; omega, rfl⟩
  | append_singleton inputs input ih =>
    obtain ⟨before, split, grows, idle⟩ := ih
    rw [Mealy.run_concat]
    generalize reached : f.machine.run ⟨[], world⟩ inputs = state at split grows idle ⊢
    obtain ⟨⟨pending, current⟩, outputs⟩ := state
    simp only at split grows idle ⊢
    cases found : f.verdict (pending ++ [input]) with
    | growing =>
      rw [step_growing found]
      refine ⟨before, by rw [split]; simp, ?_, by simpa using idle⟩
      intro size above below
      rcases Nat.lt_or_ge pending.length size with last | inside
      · have whole : size = (pending ++ [input]).length := by
          simp only [List.length_append, List.length_singleton] at below ⊢
          omega
        rw [whole, List.take_length]
        exact found
      · rw [List.take_append_of_le_length inside]
        exact grows size above inside
    | reject =>
      rw [step_reject found]
      refine ⟨inputs ++ [input], by simp, by intro size above below; simp at below; omega, ?_⟩
      rw [Mealy.run_concat, reached, step_reject found]
    | complete frame =>
      rw [step_complete found]
      refine ⟨inputs ++ [input], by simp, by intro size above below; simp at below; omega, ?_⟩
      rw [Mealy.run_concat, reached, step_complete found]

private theorem frame_of_grows {pending : List ι} {input : ι} {frame : κ} (grows : f.Grows pending)
    (complete : f.verdict (pending ++ [input]) = .complete frame) :
    f.IsFrame (pending ++ [input]) frame := by
  refine ⟨?_, complete⟩
  intro size above below
  have inside : size ≤ pending.length := by simp at below; omega
  rw [List.take_append_of_le_length inside]
  exact grows size above inside

/-- An input that completes a frame ends a block of inputs which started when
nothing was pending. -/
theorem completed_frame {world : ω} {inputs : List ι} {input : ι} {frame : κ}
    (complete : f.verdict ((f.machine.run ⟨[], world⟩ inputs).1.pending ++ [input]) =
      .complete frame) :
    ∃ before bytes, inputs ++ [input] = before ++ bytes ∧ f.IsFrame bytes frame ∧
      bytes ≠ [] ∧ (f.machine.run ⟨[], world⟩ before).1 =
        ⟨[], (f.machine.run ⟨[], world⟩ inputs).1.world⟩ := by
  obtain ⟨before, split, grows, idle⟩ := idle_split (f := f) world inputs
  refine ⟨before, _, ?_, frame_of_grows grows complete, by simp, by rw [idle]⟩
  rw [← List.append_assoc, ← split]

/-- A predicate of the world that only frames in `sets` establish and every
frame in `clears` destroys: where it holds, the last frame of those two kinds
was one of the first. -/
theorem latch {holds : ω → Prop} {sets clears : κ → Prop}
    (establish : ∀ frame world, ¬ holds world → holds (f.execute frame world).1 → sets frame)
    (destroy : ∀ frame world, clears frame → ¬ holds (f.execute frame world).1)
    {world : ω} (start : ¬ holds world) {inputs : List ι}
    (now : holds (f.machine.run ⟨[], world⟩ inputs).1.world) :
    ∃ before bytes after frame, inputs = before ++ bytes ++ after ∧
      (f.machine.run ⟨[], world⟩ before).1.pending = [] ∧
      f.IsFrame bytes frame ∧ bytes ≠ [] ∧ sets frame ∧
      ∀ skipped other rest cleared, after = skipped ++ other ++ rest →
        (f.machine.run ⟨[], world⟩ (before ++ bytes ++ skipped)).1.pending = [] →
        f.IsFrame other cleared → other ≠ [] → ¬ clears cleared := by
  induction inputs using List.reverseRecOn with
  | nil => exact False.elim (start now)
  | append_singleton inputs input ih =>
    by_cases earlier : holds (f.machine.run ⟨[], world⟩ inputs).1.world
    · obtain ⟨before, bytes, after, frame, split, idle, isFrame, nonempty, set, quiet⟩ := ih earlier
      refine ⟨before, bytes, after ++ [input], frame, by rw [split]; simp, idle, isFrame,
        nonempty, set, ?_⟩
      intro skipped other rest cleared shape resting isOther otherNonempty clearing
      rcases List.eq_nil_or_concat rest with rfl | ⟨rest, last, rfl⟩
      · -- the clearing frame would end at this very input
        have whole : inputs ++ [input] = before ++ bytes ++ skipped ++ other := by
          rw [split, List.append_assoc, shape]
          simp
        rw [whole, Mealy.run_append, State.idle resting, run_frame isOther otherNonempty] at now
        exact destroy cleared _ clearing now
      · have shorter : after = skipped ++ other ++ rest := by
          have equal : after ++ [input] = (skipped ++ other ++ rest) ++ [last] := by
            rw [shape]
            simp
          exact (List.append_inj' equal rfl).1
        exact quiet skipped other rest cleared shorter resting isOther otherNonempty clearing
    · rw [Mealy.run_concat] at now
      cases found : f.verdict ((f.machine.run ⟨[], world⟩ inputs).1.pending ++ [input]) with
      | growing => rw [step_growing found] at now; exact False.elim (earlier now)
      | reject => rw [step_reject found] at now; exact False.elim (earlier now)
      | complete frame =>
        rw [step_complete found] at now
        obtain ⟨before, bytes, split, isFrame, nonempty, idle⟩ := completed_frame found
        refine ⟨before, bytes, [], frame, by simpa using split, by rw [idle], isFrame, nonempty,
          establish frame _ earlier now, ?_⟩
        intro skipped other rest cleared shape _ _ otherNonempty
        simp only [List.nil_eq, List.append_eq_nil_iff] at shape
        exact False.elim (otherNonempty shape.1.2)

end Framing

end Embedded
