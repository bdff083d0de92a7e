import Fruitchip.Library.Bytes

/-! A word sent next to its complement, when one of the eight bytes is lost and
the byte that follows moves up. -/

namespace Embedded

/-- A word and its complement. -/
def paired (w : U32) : List U8 := bytes32 w ++ bytes32 (~~~w)

/-- Byte `lost` is missing and `next` has moved up. -/
def damaged (w : U32) (next : U8) (lost : Nat) : List U8 := (paired w).eraseIdx lost ++ [next]

/-- The word that is read from a damaged pair. -/
def shifted (w : U32) : Nat → U32
  | 0 => le32 (byteAt w 1) (byteAt w 2) (byteAt w 3) (~~~byteAt w 0)
  | 1 => le32 (byteAt w 0) (byteAt w 2) (byteAt w 3) (~~~byteAt w 0)
  | 2 => le32 (byteAt w 0) (byteAt w 1) (byteAt w 3) (~~~byteAt w 0)
  | 3 => le32 (byteAt w 0) (byteAt w 1) (byteAt w 2) (~~~byteAt w 0)
  | _ => w

/-- When the loss goes unnoticed: the bytes that have moved are alike. -/
def Survives (w : U32) (next : U8) : Nat → Prop
  | 0 => next = byteAt w 0
  | 1 => byteAt w 1 = byteAt w 0 ∧ next = byteAt w 0
  | 2 => byteAt w 1 = byteAt w 0 ∧ byteAt w 2 = byteAt w 0 ∧ next = byteAt w 0
  | 3 => byteAt w 1 = byteAt w 0 ∧ byteAt w 2 = byteAt w 0 ∧ byteAt w 3 = byteAt w 0 ∧ next = byteAt w 0
  | 4 => byteAt w 0 = byteAt w 3 ∧ byteAt w 1 = byteAt w 3 ∧ byteAt w 2 = byteAt w 3 ∧ next = ~~~byteAt w 3
  | 5 => byteAt w 1 = byteAt w 3 ∧ byteAt w 2 = byteAt w 3 ∧ next = ~~~byteAt w 3
  | 6 => byteAt w 2 = byteAt w 3 ∧ next = ~~~byteAt w 3
  | _ => next = ~~~byteAt w 3

theorem bytes32_not (w : U32) :
    bytes32 (~~~w) = [~~~byteAt w 0, ~~~byteAt w 1, ~~~byteAt w 2, ~~~byteAt w 3] := by
  rw [← le32_byteAt w, le32_not, bytes32_le32, le32_byteAt]

theorem paired_eq (w : U32) : paired w = [byteAt w 0, byteAt w 1, byteAt w 2, byteAt w 3,
    ~~~byteAt w 0, ~~~byteAt w 1, ~~~byteAt w 2, ~~~byteAt w 3] := by
  rw [paired, bytes32_not]
  rfl

@[simp] theorem paired_length (w : U32) : (paired w).length = 8 := rfl

theorem not_inj {n : Nat} {x y : BitVec n} : ~~~x = ~~~y ↔ x = y :=
  ⟨fun same => by simpa using congrArg (fun z => ~~~z) same, congrArg _⟩

theorem xor_bytes {w : U32} {c0 c1 c2 c3 : U8} : w ^^^ le32 c0 c1 c2 c3 = 0xFFFFFFFF ↔
    c0 = ~~~byteAt w 0 ∧ c1 = ~~~byteAt w 1 ∧ c2 = ~~~byteAt w 2 ∧ c3 = ~~~byteAt w 3 := by
  have bytes : le32 (byteAt w 0) (byteAt w 1) (byteAt w 2) (byteAt w 3) ^^^ le32 c0 c1 c2 c3 = 0xFFFFFFFF ↔ _ :=
    xor_le32
  rwa [le32_byteAt] at bytes

/-- Eight bytes are two words, `w` is the first of them, and their test passes
exactly when `accepted` holds. -/
def ReadsAs (bytes : List U8) (w : U32) (accepted : Prop) : Prop :=
  ∃ complement, bytes = bytes32 w ++ bytes32 complement ∧ (w ^^^ complement = 0xFFFFFFFF ↔ accepted)

theorem paired_reads (w : U32) : ReadsAs (paired w) w True :=
  ⟨~~~w, rfl, iff_true_intro (xor32.mpr rfl)⟩

/-- A damaged pair is two words again. Their test passes exactly when the loss
goes unnoticed. -/
theorem damaged_reads (w : U32) (next : U8) {lost : Nat} (inside : lost < 8) :
    ReadsAs (damaged w next lost) (shifted w lost) (Survives w next lost) := by
  simp only [ReadsAs, damaged, paired_eq]
  match lost, inside with
  | 0, _ | 1, _ | 2, _ | 3, _ =>
    refine ⟨le32 (~~~byteAt w 1) (~~~byteAt w 2) (~~~byteAt w 3) next, ?_, ?_⟩
    · simp only [shifted, bytes32_le32]
      rfl
    · simp only [shifted, xor_le32, Survives, BitVec.not_not, not_inj]
      grind
  | 4, _ =>
    refine ⟨le32 (~~~byteAt w 1) (~~~byteAt w 2) (~~~byteAt w 3) next, ?_, ?_⟩
    · simp only [bytes32_le32]
      rfl
    · simp only [shifted, xor_bytes, Survives, not_inj]
      grind
  | 5, _ =>
    refine ⟨le32 (~~~byteAt w 0) (~~~byteAt w 2) (~~~byteAt w 3) next, ?_, ?_⟩
    · simp only [bytes32_le32]
      rfl
    · simp only [shifted, xor_bytes, Survives, not_inj]
      grind
  | 6, _ =>
    refine ⟨le32 (~~~byteAt w 0) (~~~byteAt w 1) (~~~byteAt w 3) next, ?_, ?_⟩
    · simp only [bytes32_le32]
      rfl
    · simp only [shifted, xor_bytes, Survives, not_inj]
      grind
  | 7, _ =>
    refine ⟨le32 (~~~byteAt w 0) (~~~byteAt w 1) (~~~byteAt w 2) next, ?_, ?_⟩
    · simp only [bytes32_le32]
      rfl
    · simp only [shifted, xor_bytes, Survives]
      grind

theorem paired_append (w : U32) (next : U8) : paired w ++ [next] = byteAt w 0 :: damaged w next 0 := rfl

theorem damaged_append (v w : U32) (next : U8) {lost : Nat} (inside : lost < 8) :
    (paired v ++ paired w).eraseIdx lost ++ [next] = damaged v (byteAt w 0) lost ++ damaged w next 0 := by
  rw [List.eraseIdx_append_of_lt_length inside, List.append_assoc, paired_append, damaged, List.append_cons]
  rfl

theorem append_damaged (v w : U32) (next : U8) (lost : Nat) :
    (paired v ++ paired w).eraseIdx (8 + lost) ++ [next] = paired v ++ damaged w next lost := by
  rw [List.eraseIdx_append_of_length_le (Nat.le_add_right 8 lost), List.append_assoc]
  congr 3
  exact Nat.add_sub_cancel_left 8 lost

end Embedded
