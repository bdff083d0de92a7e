import Fruitchip.Library.Crc

/-! Errors of a channel that flips bits. A checksum detects them if they come in
one short burst. -/

namespace Embedded.Crc

/-- Data with bits flipped by errors, from its first byte on. -/
def flip : List U8 → List U8 → List U8
  | byte :: data, error :: errors => (byte ^^^ error) :: flip data errors
  | data, [] => data
  | [], _ => []

/-- All errors are among 32 consecutive bits. -/
def ErrorBurst (errors : List U8) : Prop :=
  ∃ start, ∀ index, (errors.flatMap bits)[index]? = some true → start ≤ index ∧ index < start + 32

@[simp] theorem flip_nil (errors : List U8) : flip [] errors = [] := by cases errors <;> rfl

@[simp] theorem flip_length (data errors : List U8) : (flip data errors).length = data.length := by
  induction data, errors using flip.induct with
  | case1 byte data error errors ih => rw [flip, List.length_cons, List.length_cons, ih]
  | case2 data => cases data <;> rfl
  | case3 errors => rw [flip_nil]

theorem bits_getElem? (byte : U8) {index : Nat} (inside : index < 8) : (bits byte)[index]? = some (byte.getMsbD index) := by
  rw [bits, List.getElem?_map, List.getElem?_range inside]
  rfl

/-- A bit that differs is one of the errors. -/
theorem flip_differs (data errors : List U8) {index : Nat}
    (differs : ((flip data errors).flatMap bits)[index]? ≠ (data.flatMap bits)[index]?) :
    (errors.flatMap bits)[index]? = some true := by
  induction data, errors using flip.induct generalizing index with
  | case1 byte data error errors ih =>
    have eight (byte : U8) : (bits byte).length = 8 := rfl
    rw [flip, List.flatMap_cons, List.flatMap_cons] at differs
    rw [List.flatMap_cons]
    rcases Nat.lt_or_ge index 8 with first | later
    · rw [List.getElem?_append_left (by rw [eight]; exact first)] at differs ⊢
      rw [List.getElem?_append_left (by rw [eight]; exact first), bits_getElem? _ first, bits_getElem? _ first,
        BitVec.getMsbD_xor] at differs
      rw [bits_getElem? _ first]
      cases found : error.getMsbD index with
      | true => rfl
      | false =>
        rw [found, Bool.xor_false] at differs
        exact absurd rfl differs
    · rw [List.getElem?_append_right (by rw [eight]; exact later), eight] at differs ⊢
      rw [List.getElem?_append_right (by rw [eight]; exact later), eight] at differs
      exact ih differs
  | case2 data => cases data <;> exact absurd rfl differs
  | case3 errors =>
    rw [flip_nil] at differs
    exact absurd rfl differs

theorem flip_detected (init : U32) {data errors : List U8} (burst : ErrorBurst errors) (different : flip data errors ≠ data) :
    crc32 init (flip data errors) ≠ crc32 init data := by
  obtain ⟨start, window⟩ := burst
  rw [← serial_bytes, ← serial_bytes]
  apply burst_detected
  · rw [message_length, message_length, flip_length]
  · exact fun same => different (message_inj same)
  · exact ⟨start, fun index differs => window index (flip_differs data errors differs)⟩

end Embedded.Crc
