import Fruitchip.Library.Bytes

/-! NOR flash seen by address: erasing sets every bit of a range, programming
can only clear bits. -/

namespace Embedded

abbrev Flash := Nat → U8

namespace Flash

def erase (flash : Flash) (offset size : Nat) : Flash := fun address =>
  if offset ≤ address ∧ address < offset + size then 0xFF else flash address

def program (flash : Flash) (offset : Nat) (data : List U8) : Flash := fun address =>
  if offset ≤ address ∧ address < offset + data.length then
    flash address &&& data.getD (address - offset) 0xFF
  else flash address

def read (flash : Flash) (offset size : Nat) : List U8 :=
  (List.range size).map (fun index => flash (offset + index))

@[simp] theorem read_length (flash : Flash) (offset size : Nat) :
    (flash.read offset size).length = size := by
  simp [read]

theorem getElem_read (flash : Flash) (offset size index : Nat) (inside : index < (flash.read offset size).length) :
    (flash.read offset size)[index] = flash (offset + index) := by
  simp only [read, List.getElem_map, List.getElem_range]

theorem read_eq_iff {first second : Flash} {offset other size : Nat} :
    first.read offset size = second.read other size ↔
      ∀ index < size, first (offset + index) = second (other + index) := by
  simp only [read, List.map_inj_left, List.mem_range]

theorem erase_inside {flash : Flash} {offset size address : Nat}
    (low : offset ≤ address) (high : address < offset + size) :
    flash.erase offset size address = 0xFF := by
  simp only [erase, low, high, and_self, ite_true]

theorem erase_outside {flash : Flash} {offset size address : Nat}
    (outside : address < offset ∨ offset + size ≤ address) :
    flash.erase offset size address = flash address := by
  unfold erase
  rw [if_neg]
  omega

theorem program_outside {flash : Flash} {offset address : Nat} {data : List U8}
    (outside : address < offset ∨ offset + data.length ≤ address) :
    flash.program offset data address = flash address := by
  unfold program
  rw [if_neg]
  omega

theorem program_inside {flash : Flash} {offset index : Nat} {data : List U8}
    (inside : index < data.length) :
    flash.program offset data (offset + index) = flash (offset + index) &&& data[index] := by
  have bounds : offset ≤ offset + index ∧ offset + index < offset + data.length := by omega
  simp only [program, bounds, and_self, ite_true, Nat.add_sub_cancel_left, List.getD_eq_getElem?_getD,
    List.getElem?_eq_getElem inside, Option.getD_some]

@[simp] theorem program_nil (flash : Flash) (offset : Nat) : flash.program offset [] = flash := by
  funext address
  apply program_outside
  simp only [List.length_nil]
  omega

theorem erased_and (byte : U8) : 0xFF &&& byte = byte := BitVec.allOnes_and

/-- Programming erased flash stores the data. -/
theorem program_erased {flash : Flash} {offset index : Nat} {data : List U8}
    (inside : index < data.length) (erased : flash (offset + index) = 0xFF) :
    flash.program offset data (offset + index) = data[index] := by
  rw [program_inside inside, erased, erased_and]

theorem program_append (flash : Flash) (offset : Nat) (first rest : List U8) :
    flash.program offset (first ++ rest) =
      (flash.program offset first).program (offset + first.length) rest := by
  funext address
  rcases Nat.lt_or_ge address offset with before | low
  · rw [program_outside (.inl before), program_outside (by omega), program_outside (.inl before)]
  · obtain ⟨index, rfl⟩ := Nat.exists_eq_add_of_le low
    rcases Nat.lt_or_ge index first.length with early | late
    · rw [program_inside (by simp; omega), program_outside (by omega), program_inside early,
        List.getElem_append_left early]
    · rcases Nat.lt_or_ge index (first ++ rest).length with inside | after
      · obtain ⟨later, rfl⟩ := Nat.exists_eq_add_of_le late
        have short : later < rest.length := by simp at inside; omega
        rw [program_inside inside, ← Nat.add_assoc, program_inside short,
          program_outside (by omega), List.getElem_append_right (by omega)]
        simp only [Nat.add_sub_cancel_left]
      · have beyond : first.length + rest.length ≤ index := by simpa using after
        rw [program_outside (by omega), program_outside (by omega), program_outside (by omega)]

end Flash

end Embedded
