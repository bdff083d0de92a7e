import Fruitchip.LossyReads
import Fruitchip.Proofs.Stage3Loading

/-! What a read makes of a damaged answer: it takes the data as it was sent, or
refuses it. -/

namespace Fruitchip
open Embedded Client Firmware

variable {size : U32} {data bytes : List U8} {delivery other : ReadDelivery}

section Attempts

variable {good : ReadDelivery → Prop} {attemps : Nat} {deliveries rest left : List ReadDelivery}

theorem Got.fine (got : Got good attemps deliveries delivery rest) : good delivery := by
  induction got with
  | here fine => exact fine
  | later bad got ih => exact ih

theorem Got.mem (got : Got good attemps deliveries delivery rest) : delivery ∈ deliveries := by
  induction got with
  | here fine => exact List.mem_cons_self
  | later bad got ih => exact List.mem_cons_of_mem _ ih

theorem Got.subset (got : Got good attemps deliveries delivery rest) : rest ⊆ deliveries := by
  induction got with
  | here fine => exact List.subset_cons_self _ _
  | later bad got ih => exact List.subset_cons_of_subset _ ih

theorem Got.unique (got : Got good attemps deliveries delivery rest) (again : Got good attemps deliveries other left) :
    delivery = other ∧ rest = left := by
  induction got with
  | here fine =>
    cases again with
    | here _ => exact ⟨rfl, rfl⟩
    | later bad _ => exact absurd fine bad
  | later bad got ih =>
    cases again with
    | here fine => exact absurd fine bad
    | later _ again => exact ih again

theorem Got.not_missed (got : Got good attemps deliveries delivery rest) : ¬ Missed good attemps deliveries := by
  induction got with
  | here fine => exact fun missed => missed 0 (Nat.zero_lt_succ _) fine
  | later bad got ih => exact fun missed => ih fun index before => missed (index + 1) (Nat.succ_lt_succ before)

theorem Missed.cons (bad : ¬ good (deliveries.headD .lost)) (missed : Missed good attemps deliveries.tail) :
    Missed good (attemps + 1) deliveries := by
  intro index before
  cases deliveries with
  | nil => exact bad
  | cons first deliveries =>
    cases index with
    | zero => exact bad
    | succ index => exact missed index (Nat.lt_of_succ_lt_succ before)

theorem Got.of_head (lost : ¬ good .lost) (fine : good (deliveries.headD .lost)) :
    Got good (attemps + 1) deliveries (deliveries.headD .lost) deliveries.tail := by
  cases deliveries with
  | nil => exact absurd fine lost
  | cons first deliveries => exact .here fine

theorem Got.of_tail (bad : ¬ good (deliveries.headD .lost)) (got : Got good attemps deliveries.tail delivery rest) :
    Got good (attemps + 1) deliveries delivery rest := by
  cases deliveries with
  | nil => cases got
  | cons first deliveries => exact .later bad got

end Attempts

theorem not_whole_lost : ¬ ReadDelivery.Whole data .lost := fun whole => whole.1 rfl

/-- What the console can make of an answer. A read that fails may have filled its buffer. -/
inductive Heard (size : U32) (data : List U8) (delivery : ReadDelivery) (result : Reply × Option (List U8)) : Prop where
  | accepted (whole : delivery.Whole data) (same : result = (.data data, some data))
  | refused (damaged : ¬ delivery.Whole data) (failed : result.1.isOk = false)
      (filled : ∀ bytes, result.2 = some bytes → bytes.length = size.toNat)

theorem received_nothing (size : U32) : (Loader.received size.toNat []).read size true = (.noDevice, none) := by
  have silent : (Loader.received size.toNat []).r = bootRomAddrValue := show wordOf [] 0 = bootRomAddrValue by decide
  rw [Answer.read, if_pos silent]

theorem received_checked (length : bytes.length = size.toNat) (crc : U32) :
    (Loader.received size.toNat (bytes32 modchipCmdResultOk ++ (bytes ++ bytes32 crc))).read size true =
      (if crc = crc32 bytes then .data bytes else .ioError, some bytes) := by
  have word : wordOf (bytes32 crc) 0 = crc := le32_byteAt crc
  have answered : Loader.received size.toNat (bytes32 modchipCmdResultOk ++ (bytes ++ bytes32 crc)) =
      ⟨modchipCmdResultOk, fun place => (bytes ++ bytes32 crc).getD place 0, crc⟩ := by
    have behind : ∀ place, (bytes32 modchipCmdResultOk ++ (bytes ++ bytes32 crc)).getD (4 + place) 0 =
        (bytes ++ bytes32 crc).getD place 0 := by
      intro place
      rw [List.getD_append_right _ _ _ _ (Nat.le_add_right 4 place), bytes32_length, Nat.add_sub_cancel_left]
    rw [Loader.received, wordOf_bytes32, Nat.add_comm 4, wordOf_next, funext behind,
      wordOf_append (Nat.le_of_eq length), length, Nat.sub_self, word]
  have taken : (List.range size.toNat).map (fun place => (bytes ++ bytes32 crc).getD place 0) = bytes := by
    rw [← length]
    apply Eq.trans ?_ (map_getD_range bytes)
    apply List.map_congr_left
    intro place below
    exact List.getD_append _ _ _ _ (List.mem_range.mp below)
  rw [answered, Answer.read]
  dsimp only
  rw [if_neg (by decide), if_neg (by decide), if_pos rfl, taken]

/-- The checksum of the sniffer arrives as it was sent. -/
theorem damage_data (errors data : List U8) : damage errors (bytes32 modchipCmdResultOk ++ dataOut data true) =
    bytes32 modchipCmdResultOk ++ (Crc.flip data errors ++ bytes32 (Crc.crc32 0xFFFFFFFF data)) := by
  have length : (bytes32 modchipCmdResultOk ++ dataOut data true).length - 8 = data.length := by
    rw [dataOut, if_pos rfl, List.length_append, List.length_append, bytes32_length, bytes32_length]
    omega
  have first : (bytes32 modchipCmdResultOk ++ dataOut data true).take 4 = bytes32 modchipCmdResultOk := List.take_left' rfl
  have behind : (bytes32 modchipCmdResultOk ++ dataOut data true).drop 4 = dataOut data true := List.drop_left' rfl
  rw [damage, length, ← List.drop_drop, first, behind, dataOut, if_pos rfl, List.take_left, List.drop_left,
    List.append_assoc]

theorem deliver_data (length : data.length = size.toNat) (bursts : delivery.Bursts) :
    Heard size data delivery ((Loader.received size.toNat
      (delivery.deliver (bytes32 modchipCmdResultOk ++ dataOut data true))).read size true) := by
  cases delivery with
  | lost =>
    rw [ReadDelivery.deliver, received_nothing]
    exact .refused not_whole_lost rfl nofun
  | answered => exact .accepted ⟨nofun, rfl⟩ (Loader.received_data data length)
  | damaged errors =>
    rw [ReadDelivery.deliver, damage_data, received_checked (by rw [Crc.flip_length, length])]
    by_cases different : Crc.flip data errors = data
    · rw [different, crc32_eq, if_pos rfl]
      exact .accepted ⟨nofun, different⟩ rfl
    · have detected := Crc.flip_detected 0xFFFFFFFF bursts different
      rw [crc32_eq, if_neg detected.symm]
      refine .refused (fun whole => different whole.2) rfl fun bytes same => ?_
      obtain rfl := Option.some.inj same
      rw [Crc.flip_length, length]

/-- An error code is not damaged, as there is nothing behind it. -/
theorem deliver_error (delivery : ReadDelivery) :
    ((Loader.received size.toNat (delivery.deliver (bytes32 modchipCmdResultErr))).read size true).1.isOk = false ∧
      ((Loader.received size.toNat (delivery.deliver (bytes32 modchipCmdResultErr))).read size true).2 = none := by
  have whole (errors : List U8) : damage errors (bytes32 modchipCmdResultErr) = bytes32 modchipCmdResultErr :=
    congrArg (fun middle => bytes32 modchipCmdResultErr ++ middle ++ []) (Crc.flip_nil errors)
  cases delivery with
  | lost =>
    rw [ReadDelivery.deliver, received_nothing]
    exact ⟨rfl, rfl⟩
  | answered =>
    rw [ReadDelivery.deliver, Loader.received_error]
    exact ⟨rfl, rfl⟩
  | damaged errors =>
    rw [ReadDelivery.deliver, whole, Loader.received_error]
    exact ⟨rfl, rfl⟩

end Fruitchip
