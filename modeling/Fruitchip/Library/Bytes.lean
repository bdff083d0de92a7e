import Mathlib.Algebra.Group.Nat.Defs
import Mathlib.Data.Bool.Basic
import Mathlib.Data.List.Basic

/-! Little-endian words as firmware assembles them: one received byte at a time,
shifted into a variable that still holds whatever the last message left there. -/

namespace Embedded

abbrev U8 := BitVec 8
abbrev U16 := BitVec 16
abbrev U32 := BitVec 32
abbrev U64 := BitVec 64

/-- `v |= byte << (8 * index)`. -/
def orByte {n : Nat} (v : BitVec n) (byte : U8) (index : Nat) : BitVec n :=
  v ||| (byte.setWidth n <<< (8 * index))

def le16 (b0 b1 : U8) : U16 := orByte (b0.setWidth 16) b1 1

def le32 (b0 b1 b2 b3 : U8) : U32 :=
  orByte (orByte (orByte (b0.setWidth 32) b1 1) b2 2) b3 3

/-- The word at a position of a buffer. -/
def wordOf (bytes : List U8) (index : Nat) : U32 :=
  le32 (bytes.getD index 0) (bytes.getD (index + 1) 0) (bytes.getD (index + 2) 0) (bytes.getD (index + 3) 0)

/-- Byte `index` of a word, least significant first. -/
def byteAt {n : Nat} (v : BitVec n) (index : Nat) : U8 := (v >>> (8 * index)).setWidth 8

/-- A `bool` stored in a byte. -/
def boolByte (b : Bool) : U8 := if b then 1 else 0

def bytes16 (v : U16) : List U8 := [byteAt v 0, byteAt v 1]

def bytes32 (v : U32) : List U8 := [byteAt v 0, byteAt v 1, byteAt v 2, byteAt v 3]

def bytes64 (v : U64) : List U8 := (List.range 8).map (byteAt v)

/-- A value next to its complement. -/
theorem xor_xor_self {n : Nat} (v mask : BitVec n) : v ^^^ (v ^^^ mask) = mask := by
  rw [← BitVec.xor_assoc, BitVec.xor_self, BitVec.zero_xor]

/-- A number that a word has room for. -/
theorem toNat_ofNat_of_lt {width value : Nat} (fits : value < 2 ^ width) : (BitVec.ofNat width value).toNat = value := by
  rw [BitVec.toNat_ofNat]
  exact Nat.mod_eq_of_lt fits

theorem map_getD_range (bytes : List U8) : (List.range bytes.length).map (bytes.getD · 0) = bytes := by
  apply List.ext_getElem
  · rw [List.length_map, List.length_range]
  · intro index _ inside
    rw [List.getElem_map, List.getElem_range, List.getD_eq_getElem?_getD, List.getElem?_eq_getElem inside,
      Option.getD_some]

@[simp] theorem bytes16_length (v : U16) : (bytes16 v).length = 2 := rfl

@[simp] theorem bytes32_length (v : U32) : (bytes32 v).length = 4 := rfl

@[simp] theorem bytes64_length (v : U64) : (bytes64 v).length = 8 := rfl

@[simp] theorem le16_byteAt (v : U16) : le16 (byteAt v 0) (byteAt v 1) = v := by
  ext i inside
  simp only [le16, orByte, byteAt, BitVec.getElem_or, BitVec.getElem_setWidth,
    BitVec.getLsbD_setWidth, BitVec.getElem_shiftLeft, BitVec.getLsbD_ushiftRight]
  grind

@[simp] theorem le32_byteAt (v : U32) :
    le32 (byteAt v 0) (byteAt v 1) (byteAt v 2) (byteAt v 3) = v := by
  ext i inside
  simp only [le32, orByte, byteAt, BitVec.getElem_or, BitVec.getElem_setWidth,
    BitVec.getLsbD_setWidth, BitVec.getElem_shiftLeft, BitVec.getLsbD_ushiftRight]
  grind

theorem wordOf_append {front rest : List U8} {index : Nat} (behind : front.length ≤ index) :
    wordOf (front ++ rest) index = wordOf rest (index - front.length) := by
  simp only [wordOf, List.getD_eq_getElem?_getD]
  rw [List.getElem?_append_right behind, List.getElem?_append_right (by omega),
    List.getElem?_append_right (by omega), List.getElem?_append_right (by omega)]
  rw [Nat.sub_add_comm behind, Nat.sub_add_comm behind, Nat.sub_add_comm behind]

theorem wordOf_bytes32 (word : U32) (rest : List U8) : wordOf (bytes32 word ++ rest) 0 = word := le32_byteAt word

/-- The word at a place in front of which there is one word less. -/
theorem wordOf_next (word : U32) (rest : List U8) (index : Nat) :
    wordOf (bytes32 word ++ rest) (index + 4) = wordOf rest index := by
  rw [wordOf_append (Nat.le_add_left 4 index)]
  rfl

theorem bytes16_le16 (b0 b1 : U8) : bytes16 (le16 b0 b1) = [b0, b1] := by
  simp only [bytes16, List.cons.injEq, and_true]
  constructor
  · ext i inside
    simp [le16, orByte, byteAt]
  · ext i inside
    simp [le16, orByte, byteAt]
    grind

@[simp] theorem byteAt_le16_zero (b0 b1 : U8) : byteAt (le16 b0 b1) 0 = b0 :=
  (List.cons.inj (bytes16_le16 b0 b1)).1

@[simp] theorem byteAt_le16_one (b0 b1 : U8) : byteAt (le16 b0 b1) 1 = b1 :=
  (List.cons.inj (List.cons.inj (bytes16_le16 b0 b1)).2).1

theorem bytes32_le32 (b0 b1 b2 b3 : U8) : bytes32 (le32 b0 b1 b2 b3) = [b0, b1, b2, b3] := by
  simp only [bytes32, List.cons.injEq, and_true]
  refine ⟨?_, ?_, ?_, ?_⟩ <;> (ext i inside; simp [le32, orByte, byteAt]) <;> grind

theorem le16_inj {a0 a1 b0 b1 : U8} : le16 a0 a1 = le16 b0 b1 ↔ a0 = b0 ∧ a1 = b1 := by
  constructor
  · intro same
    have bytes := congrArg bytes16 same
    simpa only [bytes16_le16, List.cons.injEq, and_true] using bytes
  · rintro ⟨rfl, rfl⟩
    rfl

theorem le32_inj {a0 a1 a2 a3 b0 b1 b2 b3 : U8} :
    le32 a0 a1 a2 a3 = le32 b0 b1 b2 b3 ↔ a0 = b0 ∧ a1 = b1 ∧ a2 = b2 ∧ a3 = b3 := by
  constructor
  · intro same
    have bytes := congrArg bytes32 same
    simpa only [bytes32_le32, List.cons.injEq, and_true] using bytes
  · rintro ⟨rfl, rfl, rfl, rfl⟩
    rfl

theorem le16_not (b0 b1 : U8) : ~~~(le16 b0 b1) = le16 (~~~b0) (~~~b1) := by
  ext i inside
  simp only [le16, orByte, BitVec.getElem_or, BitVec.getElem_not, BitVec.getLsbD_not,
    BitVec.getElem_setWidth, BitVec.getElem_shiftLeft]
  grind

theorem le32_not (b0 b1 b2 b3 : U8) :
    ~~~(le32 b0 b1 b2 b3) = le32 (~~~b0) (~~~b1) (~~~b2) (~~~b3) := by
  ext i inside
  simp only [le32, orByte, BitVec.getElem_or, BitVec.getElem_not, BitVec.getLsbD_not,
    BitVec.getElem_setWidth, BitVec.getElem_shiftLeft]
  grind

/-- The validity test of a field sent next to its bitwise complement. -/
theorem xor_eq_allOnes {n : Nat} {x y : BitVec n} : x ^^^ y = BitVec.allOnes n ↔ y = ~~~x := by
  constructor
  · intro same
    ext i inside
    have bit := congrArg (fun v => v.getLsbD i) same
    simp only [BitVec.getLsbD_xor, BitVec.getLsbD_allOnes, inside, decide_true] at bit
    simp only [← BitVec.getLsbD_eq_getElem]
    grind
  · rintro rfl
    ext i inside
    simp

theorem xor8 {x y : U8} : x ^^^ y = 0xFF ↔ y = ~~~x := xor_eq_allOnes

theorem xor16 {x y : U16} : x ^^^ y = 0xFFFF ↔ y = ~~~x := xor_eq_allOnes

theorem xor32 {x y : U32} : x ^^^ y = 0xFFFFFFFF ↔ y = ~~~x := xor_eq_allOnes

theorem xor_le16 {a0 a1 b0 b1 : U8} :
    le16 a0 a1 ^^^ le16 b0 b1 = 0xFFFF ↔ b0 = ~~~a0 ∧ b1 = ~~~a1 := by
  rw [xor16, le16_not, le16_inj]

theorem xor_le32 {a0 a1 a2 a3 b0 b1 b2 b3 : U8} :
    le32 a0 a1 a2 a3 ^^^ le32 b0 b1 b2 b3 = 0xFFFFFFFF ↔
      b0 = ~~~a0 ∧ b1 = ~~~a1 ∧ b2 = ~~~a2 ∧ b3 = ~~~a3 := by
  rw [xor32, le32_not, le32_inj]

end Embedded
