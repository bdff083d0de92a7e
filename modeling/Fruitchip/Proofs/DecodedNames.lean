import Fruitchip.Menu.ListComponent

/-! The names of the apps as wide characters. `wstring_new_copied_str` makes room
for a null character and does not store it. -/

namespace Fruitchip.Menu
open Embedded

variable {str : List U8} {malloc data : Nat → WChar} {i : Nat}

/-- Characters other than null that every locale takes for themselves. -/
def Ascii (str : List U8) : Prop := ∀ byte ∈ str, byte ≠ 0 ∧ byte < 0x80

def wide (str : List U8) : List WChar := str.map (·.setWidth 32)

theorem copyStr_cons {byte : U8} (nonzero : byte ≠ 0) (str : List U8) :
    copyStr data i (byte :: str) = copyStr (Function.update data i (byte.setWidth 32)) (i + 1) str := by
  rw [copyStr, if_neg (List.cons_ne_nil byte str), mbtowc, if_neg nonzero]
  rfl

theorem copyStr_outside (nonzero : ∀ byte ∈ str, byte ≠ 0) {place : Nat} (outside : place < i ∨ i + str.length ≤ place) :
    copyStr data i str place = data place := by
  induction str generalizing data i with
  | nil => rw [copyStr, if_pos rfl]
  | cons byte rest ih =>
    obtain ⟨first, others⟩ := List.forall_mem_cons.mp nonzero
    rw [List.length_cons] at outside
    rw [copyStr_cons first, ih others (by omega), Function.update_of_ne (by omega)]

theorem copyStr_inside (nonzero : ∀ byte ∈ str, byte ≠ 0) (place : Nat) (inside : place < str.length) :
    copyStr data i str (i + place) = str[place].setWidth 32 := by
  induction str generalizing data i place with
  | nil => cases inside
  | cons byte rest ih =>
    obtain ⟨first, others⟩ := List.forall_mem_cons.mp nonzero
    rw [copyStr_cons first]
    cases place with
    | zero =>
      have still := @copyStr_outside rest (Function.update data i (byte.setWidth 32)) (i + 1) others i
        (.inl (Nat.lt_add_one i))
      exact still.trans (Function.update_self i _ data)
    | succ place =>
      rw [← Nat.add_assoc, Nat.add_right_comm, ih others place (Nat.lt_of_succ_lt_succ inside), List.getElem_cons_succ]

theorem wstringNewCopiedStr_eq (malloc : Nat → WChar) (nonzero : ∀ byte ∈ str, byte ≠ 0) :
    wstringNewCopiedStr malloc str = wide str ++ [malloc str.length] := by
  rw [wstringNewCopiedStr, List.range_succ, List.map_append, List.map_singleton,
    copyStr_outside nonzero (.inr (Nat.le_of_eq (Nat.zero_add _)))]
  congr 1
  apply List.ext_getElem
  · rw [List.length_map, List.length_range, wide, List.length_map]
  · intro place below inside
    rw [wide, List.length_map] at inside
    have stored := @copyStr_inside str malloc 0 nonzero place inside
    rw [Nat.zero_add] at stored
    simp only [wide, List.getElem_map, List.getElem_range]
    exact stored

theorem wide_nonzero (nonzero : ∀ byte ∈ str, byte ≠ 0) : ∀ wchar ∈ wide str, wchar ≠ 0 := by
  intro wchar member
  obtain ⟨byte, inside, rfl⟩ := List.mem_map.mp member
  have first := nonzero byte inside
  bv_omega

/-- A proper string of the characters of `str`, and the list copies it. -/
structure Decoded (str : List U8) (buffer : List WChar) : Prop where
  terminated : 0 ∈ buffer
  characters : buffer.takeWhile (· ≠ 0) = wide str
  copied : listItemCopy ⟨some buffer, none⟩ = some ⟨some (wide str), none⟩

/-- The name of an app is decoded exactly when the memory behind its last
character was zero before. -/
theorem name_decoded_iff (ascii : Ascii str) (malloc : Nat → WChar) :
    Decoded str (wstringNewCopiedStr malloc str) ↔ malloc str.length = 0 := by
  have nonzero (byte : U8) (member : byte ∈ str) : byte ≠ 0 := (ascii byte member).1
  rw [wstringNewCopiedStr_eq malloc nonzero]
  constructor
  · intro decoded
    rcases List.mem_append.mp decoded.terminated with inside | last
    · exact absurd rfl (wide_nonzero nonzero 0 inside)
    · exact (List.mem_singleton.mp last).symm
  · intro zero
    have terminated : 0 ∈ wide str ++ [malloc str.length] := by
      rw [zero]
      exact List.mem_append_right _ (List.mem_singleton_self 0)
    have characters : (wide str ++ [malloc str.length]).takeWhile (· ≠ 0) = wide str := by
      rw [zero, List.takeWhile_append_of_pos]
      · simp
      · intro wchar member
        exact decide_eq_true (wide_nonzero nonzero wchar member)
    have copy : wcsdup (wide str ++ [malloc str.length]) = some (wide str) := by
      rw [wcsdup, if_pos terminated, characters]
    refine ⟨terminated, characters, ?_⟩
    simp only [listItemCopy, copiedText, copy]
    rfl

theorem name_decoded_zeroed : Decoded [0x4F, 0x53] (wstringNewCopiedStr (fun _ => 0) [0x4F, 0x53]) ↔ (0 : WChar) = 0 :=
  name_decoded_iff (by unfold Ascii; decide) fun _ => 0

/-- In memory that was used before, no null character follows. -/
theorem name_unterminated :
    Ascii [0x4F, 0x53] ∧ ¬ Decoded [0x4F, 0x53] (wstringNewCopiedStr (fun _ => 0xA5A5A5A5) [0x4F, 0x53]) := by
  refine ⟨by unfold Ascii; decide, ?_⟩
  intro decoded
  have terminated := decoded.terminated
  rw [wstringNewCopiedStr_eq _ (by decide)] at terminated
  exact absurd terminated (by decide)

end Fruitchip.Menu
