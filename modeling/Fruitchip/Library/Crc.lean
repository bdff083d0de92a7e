import Fruitchip.Library.Bytes

/-! The bit-serial CRC-32 with polynomial 0x04C11DB7, most significant bit
first, without reflection and without a final inversion. -/

namespace Embedded

namespace Crc

def polynomial : U32 := 0x04C11DB7

def shiftBit (crc : U32) : U32 :=
  if crc.msb then (crc <<< 1) ^^^ polynomial else crc <<< 1

def shiftBits : Nat → U32 → U32
  | 0, crc => crc
  | count + 1, crc => shiftBits count (shiftBit crc)

def shiftByte (crc : U32) (byte : U8) : U32 := shiftBits 8 (crc ^^^ (byte.setWidth 32 <<< 24))

def crc32 (init : U32) (data : List U8) : U32 := data.foldl shiftByte init

theorem shiftBit_xor (x y : U32) : shiftBit (x ^^^ y) = shiftBit x ^^^ shiftBit y := by
  simp only [shiftBit, BitVec.msb_xor, BitVec.shiftLeft_xor_distrib]
  cases x.msb <;> cases y.msb <;> simp only [Bool.bne_true, Bool.bne_false, Bool.not_true, Bool.not_false,
    Bool.false_eq_true, ite_true, ite_false]
  · ac_rfl
  · ac_rfl
  · have twice : x <<< 1 ^^^ polynomial ^^^ (y <<< 1 ^^^ polynomial) =
        x <<< 1 ^^^ y <<< 1 ^^^ (polynomial ^^^ polynomial) := by ac_rfl
    rw [twice, BitVec.xor_self, BitVec.xor_zero]

theorem shiftBits_xor (count : Nat) (x y : U32) :
    shiftBits count (x ^^^ y) = shiftBits count x ^^^ shiftBits count y := by
  induction count generalizing x y with
  | zero => rfl
  | succ count ih => simp only [shiftBits, shiftBit_xor, ih]

/-- Nothing is added while no one leaves the register. -/
theorem shiftBits_small (count : Nat) {x : U32} (small : x.toNat * 2 ^ count < 2 ^ 32) :
    shiftBits count x = x <<< count := by
  induction count generalizing x with
  | zero => simp [shiftBits]
  | succ count ih =>
    rw [Nat.pow_succ, Nat.mul_comm _ 2, ← Nat.mul_assoc] at small
    have positive : 0 < 2 ^ count := Nat.two_pow_pos count
    have half : x.toNat * 2 < 2 ^ 32 :=
      Nat.lt_of_le_of_lt (Nat.le_mul_of_pos_right (x.toNat * 2) positive) small
    have top : x.msb = false := by
      rw [BitVec.msb_eq_decide, decide_eq_false]
      omega
    have doubled : (x <<< 1).toNat = x.toNat * 2 := by
      rw [BitVec.toNat_shiftLeft, Nat.shiftLeft_eq, Nat.mod_eq_of_lt half]
    have step : shiftBit x = x <<< 1 := by simp [shiftBit, top]
    rw [shiftBits, step, ih (by rw [doubled]; exact small), ← BitVec.shiftLeft_add, Nat.add_comm]

theorem shiftBits_zero (count : Nat) : shiftBits count 0 = 0 := by
  have small : (0 : U32).toNat * 2 ^ count < 2 ^ 32 := by simp
  rw [shiftBits_small count small]
  exact BitVec.zero_shiftLeft count

/-- The polynomial is odd, so that nothing but zero becomes zero. -/
theorem shiftBit_eq_zero {crc : U32} (zero : shiftBit crc = 0) : crc = 0 := by
  have low : (shiftBit crc).getLsbD 0 = crc.msb := by
    rw [shiftBit]
    cases crc.msb with
    | false => simp
    | true => simp [polynomial]
  have top : crc.msb = false := by
    rw [← low, zero]
    rfl
  rw [shiftBit, top] at zero
  ext index inside
  by_cases last : index = 31
  · subst last
    simpa [BitVec.msb_eq_getLsbD_last] using top
  · have shifted := congrArg (fun word : U32 => word.getLsbD (index + 1)) zero
    simpa [show index + 1 < 32 by omega] using shifted

theorem shiftBits_eq_zero {count : Nat} {crc : U32} (zero : shiftBits count crc = 0) : crc = 0 := by
  induction count generalizing crc with
  | zero => exact zero
  | succ count ih => exact shiftBit_eq_zero (ih zero)

/-- The bits of a byte, most significant first. -/
def bits (byte : U8) : List Bool := (List.range 8).map byte.getMsbD

/-- One bit of a message enters the register. -/
def shiftIn (crc : U32) (bit : Bool) : U32 :=
  if (crc.msb ^^ bit) = true then (crc <<< 1) ^^^ polynomial else crc <<< 1

def serial (init : U32) (message : List Bool) : U32 := message.foldl shiftIn init

theorem shiftIn_eq (crc : U32) (bit : Bool) : shiftIn crc bit = shiftBit crc ^^^ if bit then polynomial else 0 := by
  rw [shiftIn, shiftBit]
  cases bit with
  | false => simp
  | true =>
    cases crc.msb with
    | false => simp
    | true =>
      show crc <<< 1 = crc <<< 1 ^^^ polynomial ^^^ polynomial
      rw [BitVec.xor_assoc, BitVec.xor_self, BitVec.xor_zero]

theorem shiftIn_xor (x y : U32) (bit other : Bool) :
    shiftIn (x ^^^ y) (bit ^^ other) = shiftIn x bit ^^^ shiftIn y other := by
  simp only [shiftIn_eq, shiftBit_xor]
  cases bit <;> cases other
  · simp
  · simp [BitVec.xor_assoc]
  · simp
    ac_rfl
  · have twice : shiftBit x ^^^ polynomial ^^^ (shiftBit y ^^^ polynomial) =
        shiftBit x ^^^ shiftBit y ^^^ (polynomial ^^^ polynomial) := by ac_rfl
    simp [twice]

theorem serial_append (init : U32) (first second : List Bool) :
    serial init (first ++ second) = serial (serial init first) second := List.foldl_append

theorem serial_xor (x y : U32) {message other : List Bool} (length : message.length = other.length) :
    serial (x ^^^ y) (List.zipWith xor message other) = serial x message ^^^ serial y other := by
  induction message generalizing x y other with
  | nil =>
    obtain rfl := List.length_eq_zero_iff.mp length.symm
    rfl
  | cons bit message ih =>
    cases other with
    | nil => cases length
    | cons head other =>
      have step := ih (shiftIn x bit) (shiftIn y head) (Nat.succ.inj length)
      rw [← shiftIn_xor] at step
      exact step

/-- A message of up to 32 bits as a word, from the top. -/
def packed : List Bool → U32
  | [] => 0
  | bit :: rest => (packed rest >>> 1) ^^^ if bit then BitVec.twoPow 32 31 else 0

theorem packed_getMsbD (message : List Bool) {index : Nat} (inside : index < 32) :
    (packed message).getMsbD index = message.getD index false := by
  induction message generalizing index with
  | nil => simp [packed]
  | cons bit rest ih =>
    cases index with
    | zero => cases bit <;> simp [packed]
    | succ index =>
      have before := ih (Nat.lt_of_succ_lt inside)
      cases bit
      · simp [packed, inside, before]
      · simp [packed, inside, before, BitVec.getMsbD_twoPow]

/-- The next bit leaves the word as it enters the register. -/
theorem shiftBit_packed (crc : U32) (bit : Bool) {rest : List Bool} (short : rest.length < 32) :
    shiftBit (crc ^^^ packed (bit :: rest)) = shiftIn crc bit ^^^ packed rest := by
  have low : (packed rest).getLsbD 0 = false := by
    have last := packed_getMsbD rest (show 31 < 32 by decide)
    rw [List.getD_eq_getElem?_getD, List.getElem?_eq_none (by omega)] at last
    exact last
  have behind : shiftBit (packed rest >>> 1) = packed rest := by
    have clear : (packed rest >>> 1).msb = false := by simp [BitVec.msb_ushiftRight]
    rw [shiftBit, clear]
    ext index inside
    by_cases first : index = 0
    · subst first
      simpa using low.symm
    · have again : 1 + (index - 1) = index := by omega
      simp [first, again, BitVec.getLsbD_eq_getElem inside]
  have front : shiftBit (if bit then BitVec.twoPow 32 31 else 0) = if bit then polynomial else 0 := by
    cases bit with
    | false => rfl
    | true => rfl
  rw [packed, shiftBit_xor, shiftBit_xor, behind, front, shiftIn_eq]
  ac_rfl

theorem serial_packed (crc : U32) {message : List Bool} (short : message.length ≤ 32) :
    serial crc message = shiftBits message.length (crc ^^^ packed message) := by
  induction message generalizing crc with
  | nil => exact (BitVec.xor_zero).symm
  | cons bit rest ih =>
    rw [List.length_cons, shiftBits, shiftBit_packed crc bit short, ← ih _ (Nat.le_of_lt short)]
    rfl

theorem packed_bits (byte : U8) : packed (bits byte) = byte.setWidth 32 <<< 24 := by
  apply BitVec.eq_of_getMsbD_eq
  intro index inside
  rw [packed_getMsbD _ inside, bits]
  by_cases front : index < 8
  · simp [front]
  · simp [front, BitVec.getMsbD_of_ge byte index (Nat.le_of_not_lt front)]

/-- A byte enters the register as its eight bits do. -/
theorem serial_bytes (init : U32) (data : List U8) : serial init (data.flatMap bits) = crc32 init data := by
  induction data generalizing init with
  | nil => rfl
  | cons byte data ih =>
    have one : serial init (bits byte) = shiftByte init byte := by
      rw [serial_packed init (by simp [bits]), packed_bits, shiftByte]
      rfl
    rw [List.flatMap_cons, serial_append, one, ih]
    rfl

theorem bits_inj {byte other : U8} (same : bits byte = bits other) : byte = other := by
  apply BitVec.eq_of_getMsbD_eq
  intro index inside
  have entry := congrArg (fun message : List Bool => message.getD index false) same
  simpa [bits, inside] using entry

theorem message_inj {data other : List U8} (same : data.flatMap bits = other.flatMap bits) : data = other := by
  induction data generalizing other with
  | nil =>
    cases other with
    | nil => rfl
    | cons byte other => cases same
  | cons byte data ih =>
    cases other with
    | nil => cases same
    | cons head other =>
      rw [List.flatMap_cons, List.flatMap_cons] at same
      obtain ⟨first, rest⟩ := List.append_inj same rfl
      rw [bits_inj first, ih rest]

theorem message_length (data : List U8) : (data.flatMap bits).length = 8 * data.length := by
  induction data with
  | nil => rfl
  | cons byte data ih =>
    have eight : (bits byte).length = 8 := rfl
    rw [List.flatMap_cons, List.length_append, ih, eight, List.length_cons, Nat.mul_succ, Nat.add_comm]

/-- All differences are among 32 consecutive bits. -/
def Burst (message other : List Bool) : Prop :=
  ∃ start, ∀ index, message[index]? ≠ other[index]? → start ≤ index ∧ index < start + 32

theorem packed_eq_zero {message : List Bool} (short : message.length ≤ 32) (zero : packed message = 0) :
    ∀ bit ∈ message, bit = false := by
  intro bit member
  obtain ⟨index, inside, rfl⟩ := List.getElem_of_mem member
  have entry := packed_getMsbD message (Nat.lt_of_lt_of_le inside short)
  rw [zero, List.getD_eq_getElem?_getD, List.getElem?_eq_getElem inside] at entry
  simpa using entry.symm

/-- Behind the last one of a message the register only shifts. -/
theorem serial_false (init : U32) {message : List Bool} (blank : ∀ bit ∈ message, bit = false) :
    serial init message = shiftBits message.length init := by
  induction message generalizing init with
  | nil => rfl
  | cons bit rest ih =>
    obtain ⟨rfl, others⟩ := List.forall_mem_cons.mp blank
    have step : shiftIn init false = shiftBit init := (shiftIn_eq init false).trans BitVec.xor_zero
    rw [List.length_cons, shiftBits, ← step, ← ih _ others]
    rfl

/-- A message whose ones lie within 32 bits does not go unnoticed. -/
theorem serial_eq_zero {message : List Bool} {start : Nat} (zero : serial 0 message = 0)
    (window : ∀ index, message[index]? = some true → start ≤ index ∧ index < start + 32) :
    ∀ bit ∈ message, bit = false := by
  have outside {index : Nat} {bit : Bool} (found : message[index]? = some bit)
      (far : index < start ∨ start + 32 ≤ index) : bit = false := by
    cases bit with
    | false => rfl
    | true =>
      obtain ⟨low, high⟩ := window index found
      omega
  have front : ∀ bit ∈ message.take start, bit = false := by
    intro bit member
    obtain ⟨index, found⟩ := List.mem_iff_getElem?.mp member
    rw [List.getElem?_take] at found
    split at found
    next inside => exact outside found (.inl inside)
    next => cases found
  have back : ∀ bit ∈ (message.drop start).drop 32, bit = false := by
    intro bit member
    obtain ⟨index, found⟩ := List.mem_iff_getElem?.mp member
    rw [List.drop_drop, List.getElem?_drop] at found
    exact outside found (.inr (Nat.le_add_right _ index))
  have short : ((message.drop start).take 32).length ≤ 32 := List.length_take_le 32 _
  have split : message = message.take start ++ ((message.drop start).take 32 ++ (message.drop start).drop 32) := by
    rw [List.take_append_drop, List.take_append_drop]
  rw [split, serial_append, serial_append, serial_false 0 front, shiftBits_zero, serial_false _ back,
    serial_packed 0 short] at zero
  have clear : packed ((message.drop start).take 32) = 0 :=
    BitVec.zero_xor.symm.trans (shiftBits_eq_zero (shiftBits_eq_zero zero))
  have middle := packed_eq_zero short clear
  intro bit member
  rw [split, List.mem_append, List.mem_append] at member
  rcases member with first | second | third
  · exact front bit first
  · exact middle bit second
  · exact back bit third

theorem burst_detected (init : U32) {message other : List Bool} (length : message.length = other.length)
    (different : message ≠ other) (burst : Burst message other) : serial init message ≠ serial init other := by
  intro same
  apply different
  obtain ⟨start, window⟩ := burst
  have zero : serial 0 (List.zipWith xor message other) = 0 := by
    have linear := serial_xor init init length
    rwa [same, BitVec.xor_self, BitVec.xor_self] at linear
  have blank : ∀ bit ∈ List.zipWith xor message other, bit = false := by
    apply serial_eq_zero zero
    intro index found
    apply window
    obtain ⟨bit, head, here, there, differs⟩ := List.getElem?_zipWith_eq_some.mp found
    rw [here, there]
    intro equal
    cases equal
    rw [Bool.xor_self] at differs
    cases differs
  apply List.ext_getElem length
  intro index here there
  have inside : index < (List.zipWith xor message other).length := by
    rw [List.length_zipWith]
    omega
  have equal := blank _ (List.getElem_mem inside)
  rw [List.getElem_zipWith] at equal
  simpa using equal

end Crc

end Embedded
