/-! Blocks laid out one after the other: where each begins, and that they cover
the whole without overlap. -/

namespace Embedded

namespace Blocks

variable {α : Type}

/-- Where block `index` begins in the concatenation. -/
def offset (blocks : List (List α)) (index : Nat) : Nat := (blocks.take index).flatten.length

@[simp] theorem offset_zero (blocks : List (List α)) : offset blocks 0 = 0 := rfl

theorem offset_succ {blocks : List (List α)} {index : Nat} (inside : index < blocks.length) :
    offset blocks (index + 1) = offset blocks index + blocks[index].length := by
  rw [offset, List.take_succ_eq_append_getElem inside, List.flatten_append, List.length_append]
  simp [offset]

theorem offset_cons (block : List α) (blocks : List (List α)) (index : Nat) :
    offset (block :: blocks) (index + 1) = block.length + offset blocks index := by
  simp [offset]

theorem offset_length (blocks : List (List α)) : offset blocks blocks.length = blocks.flatten.length := by
  rw [offset, List.take_length]

theorem offset_mono (blocks : List (List α)) {first last : Nat} (ordered : first ≤ last) :
    offset blocks first ≤ offset blocks last := by
  have split : blocks.take last = blocks.take first ++ (blocks.drop first).take (last - first) := by
    rw [← List.take_add, Nat.add_sub_cancel' ordered]
  rw [offset, offset, split, List.flatten_append, List.length_append]
  omega

theorem offset_le (blocks : List (List α)) (index : Nat) : offset blocks index ≤ blocks.flatten.length := by
  rcases Nat.le_total index blocks.length with inside | outside
  · rw [← offset_length]
    exact offset_mono blocks inside
  · apply Nat.le_of_eq
    rw [offset, List.take_of_length_le outside]

theorem drop_offset {blocks : List (List α)} {index : Nat} (inside : index < blocks.length) :
    blocks.flatten.drop (offset blocks index) =
      blocks[index] ++ (blocks.drop (index + 1)).flatten := by
  have split : blocks = blocks.take index ++ blocks[index] :: blocks.drop (index + 1) := by
    rw [← List.drop_eq_getElem_cons inside, List.take_append_drop]
  have shape := congrArg List.flatten split
  rw [List.flatten_append, List.flatten_cons] at shape
  rw [shape, offset, List.drop_left]

theorem exists_block {blocks : List (List α)} {position : Nat} (inside : position < blocks.flatten.length) :
    ∃ index, index < blocks.length ∧ offset blocks index ≤ position ∧
      position < offset blocks (index + 1) := by
  induction blocks generalizing position with
  | nil => exact absurd inside (Nat.not_lt_zero _)
  | cons block blocks ih =>
    rcases Nat.lt_or_ge position block.length with here | later
    · exact ⟨0, by simp, by simp, by simpa [offset] using here⟩
    · obtain ⟨rest, rfl⟩ := Nat.exists_eq_add_of_le later
      rw [List.flatten_cons, List.length_append] at inside
      obtain ⟨index, member, low, high⟩ := ih (show rest < blocks.flatten.length by omega)
      refine ⟨index + 1, by simpa using member, ?_, ?_⟩
      · rw [offset_cons]
        omega
      · rw [offset_cons]
        omega

end Blocks

end Embedded
