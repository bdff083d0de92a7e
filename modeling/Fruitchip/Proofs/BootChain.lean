import Fruitchip.BootChain
import Fruitchip.Proofs.LossyLoading

/-! From the injected payload to `ExecPS2` of stage 3, over a bus that loses and
damages answers. -/

namespace Fruitchip.Loader
open Embedded Client Firmware

variable {config : Config} {flash : Flash} {frame : Frame} {dst size : U32} {ee : Ee}

section Programs

variable {α β : Type} {program : EeM α} {next : α → EeM β} {value : α} {later : Ee} {stop : Stop}

theorem bind_done (done : program ee = .ok (value, later)) : (program >>= next) ee = next value later := by
  show (program ee).bind _ = _
  rw [done]
  rfl

theorem bind_stopped (stopped : program ee = .error stop) : (program >>= next) ee = .error stop := by
  show (program ee).bind _ = _
  rw [stopped]
  rfl

end Programs

theorem Ram.store_append {ram : Ram} {front rest : List U8} (fits : front.length + rest.length ≤ 2 ^ 32) :
    (ram.store dst front).store (dst + BitVec.ofNat 32 front.length) rest = ram.store dst (front ++ rest) := by
  funext address
  unfold Ram.store
  by_cases first : (address - dst).toNat < front.length
  · rw [List.getD_append _ _ _ _ first, List.getD_eq_getElem _ _ first, List.getD_eq_default]
    bv_omega
  · rw [List.getD_append_right _ _ _ _ (Nat.not_lt.mp first), List.getD_eq_default _ _ (Nat.not_lt.mp first)]
    congr 1
    have less : front.length < 2 ^ 32 := Nat.lt_of_le_of_lt (Nat.not_lt.mp first) (BitVec.isLt _)
    bv_omega

theorem peekWords_eq (dst : U32) (count : Nat) (ee : Ee) (there : 4 * count ≤ ee.answer.length) (fits : 4 * count ≤ 2 ^ 32) :
    peekWords dst count ee = .ok ((), { ee with
      answer := ee.answer.drop (4 * count), ram := ee.ram.store dst (ee.answer.take (4 * count)) }) := by
  induction count generalizing dst ee with
  | zero => rfl
  | succ count ih =>
    match same : ee.answer, there with
    | b0 :: b1 :: b2 :: b3 :: rest, there =>
      have word : bytes32 (wordOf ee.answer 0) = [b0, b1, b2, b3] := by
        rw [same]
        exact bytes32_le32 b0 b1 b2 b3
      simp only [List.length_cons] at there
      show peekWords (dst + 4) count _ = _
      rw [ih]
      · rw [word, same]
        have joined := @Ram.store_append dst ee.ram [b0, b1, b2, b3] (rest.take (4 * count)) (by
          rw [List.length_take]
          simp only [List.length_cons, List.length_nil]
          omega)
        rw [Nat.mul_succ]
        exact congrArg (fun ram => Except.ok ((), { ee with answer := rest.drop (4 * count), ram })) joined
      · rw [same]
        show 4 * count ≤ rest.length
        omega
      · omega

theorem peekBytes_eq (dst : U32) (count : Nat) (ee : Ee) (there : count ≤ ee.answer.length) (fits : count ≤ 2 ^ 32) :
    peekBytes dst count ee = .ok ((), { ee with
      answer := ee.answer.drop count, ram := ee.ram.store dst (ee.answer.take count) }) := by
  induction count generalizing dst ee with
  | zero => rfl
  | succ count ih =>
    match same : ee.answer, there with
    | byte :: rest, there =>
      simp only [List.length_cons] at there
      have first : ee.answer.headD 0 = byte := by rw [same]; rfl
      show peekBytes (dst + 1) count _ = _
      rw [ih]
      · rw [first, same]
        have joined := @Ram.store_append dst ee.ram [byte] (rest.take count) (by
          rw [List.length_take, List.length_singleton]
          omega)
        exact congrArg (fun ram => Except.ok ((), { ee with answer := rest.drop count, ram })) joined
      · rw [same]
        show count ≤ rest.length
        omega
      · omega

theorem modchipPeekN_eq (dst size : U32) (ee : Ee) (there : size.toNat ≤ ee.answer.length) :
    modchipPeekN dst size ee = .ok ((), { ee with
      answer := ee.answer.drop size.toNat, ram := ee.ram.store dst (ee.answer.take size.toNat) }) := by
  have split : 4 * (size.toNat / 4) + size.toNat % 4 = size.toNat := Nat.div_add_mod size.toNat 4
  have most := size.isLt
  have whole : size - size % 4 = BitVec.ofNat 32 (4 * (size.toNat / 4)) := by
    have part : (size % 4).toNat = size.toNat % 4 := BitVec.toNat_umod
    apply BitVec.eq_of_toNat_eq
    rw [BitVec.toNat_sub_of_le (by rw [BitVec.le_def, part]; omega), part, toNat_ofNat_of_lt (by omega)]
    omega
  have behind : dst + (size - size % 4) = dst + BitVec.ofNat 32 (ee.answer.take (4 * (size.toNat / 4))).length := by
    rw [List.length_take, Nat.min_eq_left (by omega), whole]
  rw [modchipPeekN, bind_done (peekWords_eq dst (size.toNat / 4) ee (by omega) (by omega)),
    peekBytes_eq _ _ _ (by rw [List.length_drop]; omega) (by omega)]
  dsimp only
  rw [behind, Ram.store_append (by rw [List.length_take, List.length_take, List.length_drop]; omega), ← List.take_add,
    List.drop_drop, split]

theorem arrived_length (delivery : ReadDelivery) (data : List U8) : (delivery.arrived data).length = data.length := by
  cases delivery with
  | damaged errors => exact Crc.flip_length data errors
  | lost => rfl
  | answered => rfl

theorem arrived_detected {delivery : ReadDelivery} (bursts : delivery.Bursts) (data : List U8) :
    crc32 (delivery.arrived data) = crc32 data ↔ delivery.arrived data = data := by
  constructor
  · intro same
    by_contra different
    cases delivery with
    | damaged errors =>
      rw [crc32_eq, crc32_eq] at same
      exact Crc.flip_detected 0xFFFFFFFF bursts different same
    | lost => exact different rfl
    | answered => exact different rfl
  · intro same
    rw [same]

theorem deliver_crc {delivery : ReadDelivery} (heard : delivery ≠ .lost) (data : List U8) :
    delivery.deliver (bytes32 modchipCmdResultOk ++ dataOut data true) =
      bytes32 modchipCmdResultOk ++ (delivery.arrived data ++ bytes32 (crc32 data)) := by
  rw [crc32_eq]
  cases delivery with
  | damaged errors => exact damage_data errors data
  | lost => exact absurd rfl heard
  | answered => rfl

theorem deliver_word {delivery : ReadDelivery} (heard : delivery ≠ .lost) (word : U32) :
    delivery.deliver (bytes32 modchipCmdResultOk ++ dataOut (bytes32 word) false) =
      bytes32 modchipCmdResultOk ++ bytes32 word := by
  cases delivery with
  | damaged errors =>
    exact congrArg (fun middle => bytes32 modchipCmdResultOk ++ middle ++ bytes32 word) (Crc.flip_nil errors)
  | lost => exact absurd rfl heard
  | answered => exact congrArg (bytes32 modchipCmdResultOk ++ ·) (List.append_nil _)

namespace Stage1

structure Sends (config : Config) (flash : Flash) (cmd : Cmd) (sent : List U8) : Prop where
  poke : ∀ ee : Ee, Resting flash ee.modchip → ∃ modchip, Resting flash modchip ∧ pokeCmd config cmd ee =
    .ok ((), ⟨modchip, ee.deliveries.tail, (ee.deliveries.headD .lost).deliver sent, ee.ram⟩)
  accepted : ∀ delivery : ReadDelivery, delivery ≠ .lost → wordOf (delivery.deliver sent) 0 = modchipCmdResultOk

theorem sends_data {cmd : Cmd} {ref : DataRef} {count : U32} {crc : Bool} {data : List U8} (plain : argLength cmd = 0)
    (answers : ∀ world, execute config (cmd, []) world = answerData world ref count crc)
    (data_eq : refBytes config flash ref count.toNat = data)
    (accepted : ∀ delivery : ReadDelivery, delivery ≠ .lost →
      wordOf (delivery.deliver (bytes32 modchipCmdResultOk ++ dataOut data crc)) 0 = modchipCmdResultOk) :
    Sends config flash cmd (bytes32 modchipCmdResultOk ++ dataOut data crc) where
  accepted := accepted
  poke ee resting := by
    have code : pokeU32 cmd.code = cmd.opcode ++ [] := (List.append_nil _).symm
    obtain ⟨idle, world, events⟩ := run_frame config resting.idle (show ([] : List U8).length = argLength cmd from plain.symm)
    rw [answers] at world events
    unfold pokeCmd
    rw [code]
    generalize (machine config).run ee.modchip (cmd.opcode ++ []) = result at idle world events
    obtain ⟨next, sent⟩ := result
    dsimp only at idle world events
    have rests : Resting flash next := ⟨idle, by rw [world]; exact resting.flash⟩
    refine ⟨next, rests, ?_⟩
    dsimp only
    rw [rests.flash, events, emit_answerData, data_eq]

theorem sends_stage1Size : Sends config flash .getEeStage1Size
    (bytes32 modchipCmdResultOk ++ dataOut (bytes32 config.loaderEeStage1Size) false) := by
  refine sends_data rfl (fun _ => rfl) rfl fun delivery heard => ?_
  rw [deliver_word heard, wordOf_bytes32]

theorem sends_stage2Size : Sends config flash .getEeStage2Size
    (bytes32 modchipCmdResultOk ++ dataOut (bytes32 config.loaderEeStage2Size) false) := by
  refine sends_data rfl (fun _ => rfl) rfl fun delivery heard => ?_
  rw [deliver_word heard, wordOf_bytes32]

def stage2 (config : Config) (flash : Flash) : List U8 :=
  refBytes config flash (.xip config.loaderEeStage2) config.loaderEeStage2Size.toNat

theorem sends_stage2 : Sends config flash .getEeStage2
    (bytes32 modchipCmdResultOk ++ dataOut (stage2 config flash) true) := by
  refine sends_data rfl (fun _ => rfl) rfl fun delivery heard => ?_
  rw [deliver_crc heard, wordOf_bytes32]

/-- A command is answered at one of its attempts. -/
def Answered (deliveries : List ReadDelivery) (delivery : ReadDelivery) (rest : List ReadDelivery) : Prop :=
  Got (fun delivery => delivery ≠ .lost) modchipCmdRetries deliveries delivery rest

/-- All attempts of a command are lost. -/
def Silent (deliveries : List ReadDelivery) : Prop := Missed (fun delivery => delivery ≠ .lost) modchipCmdRetries deliveries

inductive Asked (flash : Flash) (sent : List U8) (attemps : Nat) (before : Ee) : Except Stop (U32 × Ee) → Prop where
  | answered (delivery : ReadDelivery) (rest : List ReadDelivery)
      (got : Got (fun delivery => delivery ≠ .lost) attemps before.deliveries delivery rest) (modchip : FirmwareState)
      (resting : Resting flash modchip) : Asked flash sent attemps before (.ok (modchipCmdResultOk,
        ⟨modchip, rest, (delivery.deliver sent).drop 4, before.ram⟩))
  | silent (missed : Missed (fun delivery => delivery ≠ .lost) attemps before.deliveries) (after : Ee) :
      Asked flash sent attemps before (.ok (bootRomAddrValue, after))

theorem asked {cmd : Cmd} {sent : List U8} (sends : Sends config flash cmd sent) (attemps : Nat) (ee : Ee)
    (resting : Resting flash ee.modchip) : Asked flash sent attemps ee (modchipCmd config cmd 0 attemps ee) := by
  induction attemps generalizing ee with
  | zero => exact .silent (fun index none => absurd none (Nat.not_lt_zero index)) ee
  | succ attemps ih =>
    obtain ⟨modchip, rests, poked⟩ := sends.poke ee resting
    rw [modchipCmd, bind_done poked]
    by_cases lost : ee.deliveries.headD .lost = .lost
    · have silence : wordOf (ReadDelivery.lost.deliver sent) 0 = 0 := show wordOf [] 0 = 0 by decide
      rw [bind_done (rfl : peekWord _ = _), lost, silence, if_neg (by decide)]
      have later := ih ⟨modchip, ee.deliveries.tail, (ReadDelivery.lost.deliver sent).drop 4, ee.ram⟩ rests
      generalize modchipCmd config cmd 0 attemps _ = result at later
      cases later with
      | answered delivery rest got last quiet => exact .answered delivery rest (got.of_tail (not_not_intro lost)) last quiet
      | silent missed after => exact .silent (missed.cons (not_not_intro lost)) after
    · have word := sends.accepted _ lost
      rw [bind_done (rfl : peekWord _ = _), word, if_pos rfl]
      exact .answered _ _ (.of_head (not_not_intro rfl) lost) modchip rests

theorem modchipCmdOrPanic_cases {cmd : Cmd} {sent : List U8} (sends : Sends config flash cmd sent) (ee : Ee)
    (resting : Resting flash ee.modchip) :
    (∃ delivery rest modchip, Answered ee.deliveries delivery rest ∧ Resting flash modchip ∧
      modchipCmdOrPanic config cmd ee = .ok ((), ⟨modchip, rest, (delivery.deliver sent).drop 4, ee.ram⟩)) ∨
    modchipCmdOrPanic config cmd ee = .error (.panic "EE1: cmd no response" PanicType.cmdFailed.bgcolor) ∧
      Silent ee.deliveries := by
  have result := asked sends modchipCmdRetries ee resting
  rw [modchipCmdOrPanic]
  generalize outcome : modchipCmd config cmd 0 modchipCmdRetries ee = final at result
  cases result with
  | answered delivery rest got modchip rests =>
    refine .inl ⟨delivery, rest, modchip, got, rests, ?_⟩
    rw [bind_done outcome, if_neg (by decide), if_neg (by decide)]
    rfl
  | silent missed after =>
    refine .inr ⟨?_, missed⟩
    rw [bind_done outcome, if_pos rfl]
    rfl

/-- What the bus made of the payload: stage 1 with errors, and its checksum. -/
def Injected (config : Config) (errors : List U8) (ram : Ram) : Prop :=
  ∀ place < config.loaderEeStage1.length + 4, ram.object eeStage1Addr place =
    (Crc.flip config.loaderEeStage1 errors ++ bytes32 (crc32 config.loaderEeStage1)).getD place 0

/-- Stage 1 gets its size, and finds itself intact. -/
structure Checked (config : Config) (errors : List U8) (deliveries rest : List ReadDelivery) : Prop where
  sized : ∃ delivery, Answered deliveries delivery rest
  aligned : config.loaderEeStage1.length % 4 = 0
  intact : Crc.flip config.loaderEeStage1 errors = config.loaderEeStage1

/-- Then it gets the size of stage 2. -/
def Sized (config : Config) (errors : List U8) (deliveries rest : List ReadDelivery) : Prop :=
  ∃ middle delivery, Checked config errors deliveries middle ∧ Answered middle delivery rest

/-- Then it gets stage 2, and finds it intact. -/
def Jumps (config : Config) (flash : Flash) (errors : List U8) (deliveries rest : List ReadDelivery) : Prop :=
  ∃ middle delivery, Sized config errors deliveries middle ∧ Answered middle delivery rest ∧
    delivery.arrived (stage2 config flash) = stage2 config flash

/-- One of its commands gets no answer. -/
def Unheard (config : Config) (errors : List U8) (deliveries : List ReadDelivery) : Prop :=
  Silent deliveries ∨ ∃ rest, Silent rest ∧ (Checked config errors deliveries rest ∨ Sized config errors deliveries rest)

/-- Why stage 1 stops. -/
inductive Stops (config : Config) (flash : Flash) (errors : List U8) (deliveries : List ReadDelivery) : Stop → Prop
  | noResponse (unheard : Unheard config errors deliveries) :
      Stops config flash errors deliveries (.panic "EE1: cmd no response" PanicType.cmdFailed.bgcolor)
  | badStage1 {delivery rest} (sized : Answered deliveries delivery rest)
      (aligned : config.loaderEeStage1.length % 4 = 0)
      (damaged : Crc.flip config.loaderEeStage1 errors ≠ config.loaderEeStage1) :
      Stops config flash errors deliveries (.panic " bad" PanicType.badCrc.bgcolor)
  | badStage2 {delivery middle rest} (sized : Sized config errors deliveries middle)
      (answered : Answered middle delivery rest) (damaged : delivery.arrived (stage2 config flash) ≠ stage2 config flash) :
      Stops config flash errors deliveries (.panic " bad" PanicType.badCrc.bgcolor)
  | unaligned {delivery rest} (sized : Answered deliveries delivery rest)
      (odd : config.loaderEeStage1.length % 4 ≠ 0) : Stops config flash errors deliveries .addressError

/-- How stage 1 ends. -/
inductive Outcome (config : Config) (flash : Flash) (errors : List U8) (before : Ee) : Except Stop (Unit × Ee) → Prop where
  | jump {rest} (jumps : Jumps config flash errors before.deliveries rest) (modchip : FirmwareState)
      (resting : Resting flash modchip) : Outcome config flash errors before (.ok ((), ⟨modchip, rest, [],
        before.ram.store eeStage2Addr (stage2 config flash)⟩))
  | stop {stop} (stops : Stops config flash errors before.deliveries stop) : Outcome config flash errors before (.error stop)

theorem size_cases {cmd : Cmd} {word : U32}
    (sends : Sends config flash cmd (bytes32 modchipCmdResultOk ++ dataOut (bytes32 word) false)) (ee : Ee)
    (resting : Resting flash ee.modchip) :
    (∃ delivery rest modchip, Answered ee.deliveries delivery rest ∧ Resting flash modchip ∧ ∀ next : U32 → EeM Unit,
      (modchipCmdOrPanic config cmd >>= fun _ => peekWord >>= next) ee = next word ⟨modchip, rest, [], ee.ram⟩) ∨
    (∀ next : Unit → EeM Unit, (modchipCmdOrPanic config cmd >>= next) ee =
      .error (.panic "EE1: cmd no response" PanicType.cmdFailed.bgcolor)) ∧ Silent ee.deliveries := by
  rcases modchipCmdOrPanic_cases sends ee resting with
    ⟨delivery, rest, modchip, answered, rests, done⟩ | ⟨stopped, silent⟩
  · refine .inl ⟨delivery, rest, modchip, answered, rests, fun next => ?_⟩
    have left : (delivery.deliver (bytes32 modchipCmdResultOk ++ dataOut (bytes32 word) false)).drop 4 = bytes32 word := by
      rw [deliver_word answered.fine]
      exact List.drop_left' rfl
    rw [left] at done
    rw [bind_done done, bind_done (rfl : peekWord _ = _)]
    exact congrArg (fun read => next read _) (le32_byteAt word)
  · exact .inr ⟨fun next => bind_stopped stopped, silent⟩

theorem stage2_length (config : Config) (flash : Flash) : (stage2 config flash).length = config.loaderEeStage2Size.toNat :=
  refBytes_length _ _ _ _

theorem stage2_cases (ee : Ee) (resting : Resting flash ee.modchip) :
    (∃ delivery rest modchip, Answered ee.deliveries delivery rest ∧ Resting flash modchip ∧
      ∀ next : U32 → EeM Unit, (modchipCmdOrPanic config .getEeStage2 >>= fun _ =>
        modchipPeekN eeStage2Addr config.loaderEeStage2Size >>= fun _ => peekWord >>= next) ee =
          next (crc32 (stage2 config flash)) ⟨modchip, rest, [],
            ee.ram.store eeStage2Addr (delivery.arrived (stage2 config flash))⟩) ∨
    (∀ next : Unit → EeM Unit, (modchipCmdOrPanic config .getEeStage2 >>= next) ee =
      .error (.panic "EE1: cmd no response" PanicType.cmdFailed.bgcolor)) ∧ Silent ee.deliveries := by
  rcases modchipCmdOrPanic_cases (@sends_stage2 config flash) ee resting with
    ⟨delivery, rest, modchip, answered, rests, done⟩ | ⟨stopped, silent⟩
  · refine .inl ⟨delivery, rest, modchip, answered, rests, fun next => ?_⟩
    have length := (arrived_length delivery (stage2 config flash)).trans (stage2_length config flash)
    rw [deliver_crc answered.fine, List.drop_left' (bytes32_length _)] at done
    rw [bind_done done, bind_done (modchipPeekN_eq _ _ _ (by rw [List.length_append, length]; omega)), ← length]
    dsimp only
    rw [List.take_left, List.drop_left, bind_done (rfl : peekWord _ = _)]
    exact congrArg (fun read => next read _) (le32_byteAt _)
  · exact .inr ⟨fun next => bind_stopped stopped, silent⟩

section Payload

variable {errors : List U8}

theorem Injected.bytes (payload : Injected config errors ee.ram) :
    (List.range config.loaderEeStage1.length).map (ee.ram.object eeStage1Addr) =
      Crc.flip config.loaderEeStage1 errors := by
  apply List.ext_getElem
  · rw [List.length_map, List.length_range, Crc.flip_length]
  · intro place low inside
    rw [List.length_map, List.length_range] at low
    rw [List.getElem_map, List.getElem_range, payload place (by omega), List.getD_append _ _ _ _ inside,
      List.getD_eq_getElem _ _ inside]

theorem Injected.crc (payload : Injected config errors ee.ram) :
    wordAt (ee.ram.object (eeStage1Addr + config.loaderEeStage1Size)) 0 = crc32 config.loaderEeStage1 := by
  have behind (place : Nat) (inside : place < 4) :
      ee.ram.object (eeStage1Addr + config.loaderEeStage1Size) place = byteAt (crc32 config.loaderEeStage1) place := by
    have address : eeStage1Addr + config.loaderEeStage1Size + BitVec.ofNat 32 place =
        eeStage1Addr + BitVec.ofNat 32 (config.loaderEeStage1.length + place) := by
      rw [Config.loaderEeStage1Size, BitVec.add_assoc, ← BitVec.ofNat_add]
    have byte := payload (config.loaderEeStage1.length + place) (by omega)
    rw [List.getD_append_right _ _ _ _ (by rw [Crc.flip_length]; omega), Crc.flip_length, Nat.add_sub_cancel_left] at byte
    rw [Ram.object, address]
    apply byte.trans
    obtain rfl | rfl | rfl | rfl : place = 0 ∨ place = 1 ∨ place = 2 ∨ place = 3 := by omega
    all_goals rfl
  rw [wordAt, behind 0 (by decide), behind 1 (by decide), behind 2 (by decide), behind 3 (by decide)]
  exact le32_byteAt _

theorem payload_cases (fits : config.loaderEeStage1.length + 4 ≤ 0x62C) (payload : Injected config errors ee.ram) :
    (config.loaderEeStage1.length % 4 = 0 ∧ ∀ next : U32 → U32 → EeM Unit,
      (loadWord (eeStage1Addr + config.loaderEeStage1Size) >>= fun eeStage1Crc =>
        crc32At eeStage1Addr config.loaderEeStage1Size >>= next eeStage1Crc) ee =
        next (crc32 config.loaderEeStage1) (crc32 (Crc.flip config.loaderEeStage1 errors)) ee) ∨
    config.loaderEeStage1.length % 4 ≠ 0 ∧ ∀ next : U32 → EeM Unit,
      (loadWord (eeStage1Addr + config.loaderEeStage1Size) >>= next) ee = .error .addressError := by
  have size : config.loaderEeStage1Size.toNat = config.loaderEeStage1.length := toNat_ofNat_of_lt (by omega)
  have whole : (eeStage1Addr + config.loaderEeStage1Size) % 4 = 0 ↔ config.loaderEeStage1.length % 4 = 0 := by
    rw [BitVec.toNat_eq, BitVec.toNat_umod, BitVec.toNat_add, size]
    show (0x001001B0 + config.loaderEeStage1.length) % 2 ^ 32 % 4 = 0 ↔ _
    omega
  by_cases aligned : (eeStage1Addr + config.loaderEeStage1Size) % 4 = 0
  · have word : loadWord (eeStage1Addr + config.loaderEeStage1Size) ee = .ok (crc32 config.loaderEeStage1, ee) := by
      rw [loadWord, if_pos aligned, payload.crc]
    have crc : crc32At eeStage1Addr config.loaderEeStage1Size ee =
        .ok (crc32 (Crc.flip config.loaderEeStage1 errors), ee) := by
      rw [crc32At, size, payload.bytes]
    refine .inl ⟨whole.mp aligned, fun next => ?_⟩
    rw [bind_done word, bind_done crc]
  · exact .inr ⟨fun even => aligned (whole.mpr even), fun next => bind_stopped (if_neg aligned)⟩

end Payload

theorem crc32At_store {ram : Ram} {bytes : List U8} {modchip : FirmwareState} {deliveries : List ReadDelivery}
    {answer : List U8} (length : bytes.length = size.toNat) :
    crc32At dst size ⟨modchip, deliveries, answer, ram.store dst bytes⟩ =
      .ok (crc32 bytes, ⟨modchip, deliveries, answer, ram.store dst bytes⟩) := by
  have stored : (List.range size.toNat).map ((ram.store dst bytes).object dst) = bytes := by
    apply List.ext_getElem
    · rw [List.length_map, List.length_range, length]
    · intro place low inside
      have most := size.isLt
      rw [List.getElem_map, List.getElem_range, Ram.store_inside place inside (by omega)]
  rw [crc32At, stored]

theorem outcome {errors : List U8} (fits : config.loaderEeStage1.length + 4 ≤ 0x62C) (resting : Resting flash ee.modchip)
    (payload : Injected config errors ee.ram) (burst : Crc.ErrorBurst errors)
    (bursts : ∀ delivery ∈ ee.deliveries, delivery.Bursts) : Outcome config flash errors ee (execPS2 config ee) := by
  rw [execPS2]
  rcases size_cases (@sends_stage1Size config flash) ee resting with
    ⟨first, rest, modchip, heard, rests, done⟩ | ⟨stopped, silent⟩
  · rw [done]
    rcases @payload_cases config ⟨modchip, rest, [], ee.ram⟩ errors fits payload with
      ⟨aligned, checked⟩ | ⟨odd, stopped⟩
    · rw [checked]
      dsimp only
      have detected : crc32 (Crc.flip config.loaderEeStage1 errors) = crc32 config.loaderEeStage1 ↔
          Crc.flip config.loaderEeStage1 errors = config.loaderEeStage1 :=
        @arrived_detected (.damaged errors) burst config.loaderEeStage1
      by_cases intact : Crc.flip config.loaderEeStage1 errors = config.loaderEeStage1
      · rw [if_neg (not_not_intro (detected.mpr intact))]
        have found : Checked config errors ee.deliveries rest := ⟨⟨first, heard⟩, aligned, intact⟩
        rcases size_cases (@sends_stage2Size config flash) ⟨modchip, rest, [], ee.ram⟩ rests with
          ⟨second, later, next, again, quiet, asked⟩ | ⟨stopped, silent⟩
        · rw [asked]
          have sized : Sized config errors ee.deliveries later := ⟨rest, second, found, again⟩
          rcases stage2_cases ⟨next, later, [], ee.ram⟩ quiet with
            ⟨delivery, left, last, answered, still, sent⟩ | ⟨stopped, silent⟩
          · have length := (arrived_length delivery (stage2 config flash)).trans (stage2_length config flash)
            have member : delivery ∈ ee.deliveries := heard.subset (again.subset answered.mem)
            have found := arrived_detected (bursts delivery member) (stage2 config flash)
            rw [sent, bind_done (crc32At_store length)]
            dsimp only
            by_cases same : delivery.arrived (stage2 config flash) = stage2 config flash
            · rw [if_neg (not_not_intro (found.mpr same)), same]
              exact .jump ⟨later, delivery, sized, answered, same⟩ last still
            · rw [if_pos fun equal => same (found.mp equal)]
              exact .stop (.badStage2 sized answered same)
          · rw [stopped]
            exact .stop (.noResponse (.inr ⟨later, silent, .inr sized⟩))
        · rw [stopped]
          exact .stop (.noResponse (.inr ⟨rest, silent, .inl found⟩))
      · rw [if_pos fun same => intact (detected.mp same), bind_stopped rfl]
        exact .stop (.badStage1 heard aligned intact)
    · rw [stopped]
      exact .stop (.unaligned heard odd)
  · rw [stopped]
    exact .stop (.noResponse (.inl silent))

section Reasons

variable {errors : List U8} {deliveries rest left : List ReadDelivery} {stop other : Stop}

theorem Sized.checked (sized : Sized config errors deliveries rest) : ∃ middle, Checked config errors deliveries middle := by
  obtain ⟨middle, _, checked, _⟩ := sized
  exact ⟨middle, checked⟩

theorem Checked.unique (checked : Checked config errors deliveries rest) (again : Checked config errors deliveries left) :
    rest = left := by
  obtain ⟨_, answered⟩ := checked.sized
  obtain ⟨_, other⟩ := again.sized
  exact (answered.unique other).2

theorem Sized.unique (sized : Sized config errors deliveries rest) (again : Sized config errors deliveries left) :
    rest = left := by
  obtain ⟨_, _, checked, answered⟩ := sized
  obtain ⟨_, _, same, other⟩ := again
  obtain rfl := checked.unique same
  exact (answered.unique other).2

theorem Jumps.unique (jumps : Jumps config flash errors deliveries rest) (again : Jumps config flash errors deliveries left) :
    rest = left := by
  obtain ⟨_, _, sized, answered, _⟩ := jumps
  obtain ⟨_, _, same, other, _⟩ := again
  obtain rfl := sized.unique same
  exact (answered.unique other).2

theorem Jumps.checked (jumps : Jumps config flash errors deliveries rest) :
    ∃ middle, Checked config errors deliveries middle := by
  obtain ⟨_, _, sized, _⟩ := jumps
  exact sized.checked

theorem Jumps.subset (jumps : Jumps config flash errors deliveries rest) : rest ⊆ deliveries := by
  obtain ⟨_, _, ⟨_, _, checked, second⟩, third, _⟩ := jumps
  obtain ⟨_, first⟩ := checked.sized
  exact fun delivery member => first.subset (second.subset (third.subset member))

/-- No command gets an answer after the last one that got one. -/
theorem Unheard.silent (unheard : Unheard config errors deliveries) (sized : Sized config errors deliveries rest) :
    Silent rest := by
  obtain ⟨middle, _, checked, answered⟩ := sized
  rcases unheard with silent | ⟨last, silent, here | here⟩
  · obtain ⟨_, first⟩ := checked.sized
    exact absurd silent first.not_missed
  · obtain rfl := checked.unique here
    exact absurd silent answered.not_missed
  · obtain rfl := here.unique ⟨middle, _, checked, answered⟩
    exact silent

theorem Unheard.checked (unheard : Unheard config errors deliveries) {delivery : ReadDelivery}
    (answered : Answered deliveries delivery rest) : ∃ middle, Checked config errors deliveries middle := by
  rcases unheard with silent | ⟨last, _, here | here⟩
  · exact absurd silent answered.not_missed
  · exact ⟨last, here⟩
  · exact here.checked

theorem Jumps.not_stops (jumps : Jumps config flash errors deliveries rest) : ¬ Stops config flash errors deliveries stop := by
  obtain ⟨middle, delivery, sized, answered, same⟩ := jumps
  obtain ⟨_, checked⟩ := sized.checked
  intro stops
  cases stops with
  | noResponse unheard => exact answered.not_missed (unheard.silent sized)
  | badStage1 _ _ damaged => exact damaged checked.intact
  | badStage2 again other damaged =>
    obtain rfl := sized.unique again
    obtain ⟨rfl, _⟩ := answered.unique other
    exact damaged same
  | unaligned _ odd => exact odd checked.aligned

theorem Stops.unique (stops : Stops config flash errors deliveries stop) (again : Stops config flash errors deliveries other) :
    stop = other := by
  -- a command without an answer leaves no other reason
  have apart {first second : Stop} (unheard : Unheard config errors deliveries)
      (stops : Stops config flash errors deliveries second)
      (unanswered : first = .panic "EE1: cmd no response" PanicType.cmdFailed.bgcolor) : first = second := by
    cases stops with
    | noResponse _ => exact unanswered
    | badStage1 sized _ damaged =>
      obtain ⟨_, checked⟩ := unheard.checked sized
      exact absurd checked.intact damaged
    | badStage2 sized answered _ => exact absurd (unheard.silent sized) answered.not_missed
    | unaligned sized odd =>
      obtain ⟨_, checked⟩ := unheard.checked sized
      exact absurd checked.aligned odd
  cases stops with
  | noResponse unheard => exact apart unheard again rfl
  | badStage1 answered aligned damaged =>
    cases again with
    | noResponse unheard => exact (apart unheard (.badStage1 answered aligned damaged) rfl).symm
    | badStage1 | badStage2 => rfl
    | unaligned _ odd => exact absurd aligned odd
  | badStage2 sized answered damaged =>
    obtain ⟨_, checked⟩ := sized.checked
    cases again with
    | noResponse unheard => exact (apart unheard (.badStage2 sized answered damaged) rfl).symm
    | badStage1 | badStage2 => rfl
    | unaligned _ odd => exact absurd checked.aligned odd
  | unaligned answered odd =>
    cases again with
    | noResponse unheard => exact (apart unheard (.unaligned answered odd) rfl).symm
    | badStage1 _ aligned _ => exact absurd aligned odd
    | badStage2 sized _ _ =>
      obtain ⟨_, checked⟩ := sized.checked
      exact absurd checked.aligned odd
    | unaligned => rfl

end Reasons

end Stage1

namespace Stage2

/-- The console with which stage 3 is loaded. -/
def cleared (ee : Ee) : Console (FirmwareState × List ReadDelivery) :=
  ⟨(ee.modchip, ee.deliveries), ee.ram.memset userMemStartAddr 0 (userMemEndAddr - userMemStartAddr).toNat, []⟩

variable {console : Console (FirmwareState × List ReadDelivery)}

end Stage2

/-- Why the chain stops. -/
inductive BootStops (config : Config) (flash : Flash) (errors : List U8) (deliveries : List ReadDelivery) : Stop → Prop
  | stage1 {stop} (stops : Stage1.Stops config flash errors deliveries stop) : BootStops config flash errors deliveries stop
  | execFailed {rest} (jumps : Stage1.Jumps config flash errors deliveries rest) (fails : Fails config flash rest) :
      BootStops config flash errors deliveries (.panic "EE2: exec fail" (0x00, 0x40, 0x00))

/-- How the chain ends. -/
inductive BootOutcome (config : Config) (flash : Flash) (frame : Frame) (errors : List U8) (before : Ee) :
    Except Stop (Exec × Ee) → Prop where
  /-- Every stage is in place when it is started, and user memory is clean. -/
  | started (jumped last : Ee) (jump : Stage1.execPS2 config before = .ok ((), jumped))
      (jumps : Stage1.Jumps config flash errors before.deliveries jumped.deliveries)
      (through : Through config flash jumped.deliveries (header config flash).phnum.toNat last.deliveries)
      (stage1 : Crc.flip config.loaderEeStage1 errors = config.loaderEeStage1)
      (stage2 : ∀ place < config.loaderEeStage2Size.toNat, jumped.ram.object eeStage2Addr place =
        xipByte flash (config.loaderEeStage2 + BitVec.ofNat 32 place))
      (stage3 : ∀ i, Loaded config flash i → Placed config flash i last.ram)
      (clean : ∀ address, Untouched config flash frame address →
        Covers userMemStartAddr (userMemEndAddr - userMemStartAddr).toNat address → last.ram address = 0)
      (kept : ∀ address, Untouched config flash frame address →
        ¬ Covers userMemStartAddr (userMemEndAddr - userMemStartAddr).toNat address → last.ram address = jumped.ram address) :
      BootOutcome config flash frame errors before (.ok (⟨(header config flash).entry, 0, 1, [""]⟩, last))
  | stopped {stop} (stops : BootStops config flash errors before.deliveries stop) :
      BootOutcome config flash frame errors before (.error stop)

theorem BootStops.unique {errors : List U8} {deliveries : List ReadDelivery} {stop other : Stop}
    (stops : BootStops config flash errors deliveries stop) (again : BootStops config flash errors deliveries other) :
    stop = other := by
  cases stops with
  | stage1 stops =>
    cases again with
    | stage1 again => exact stops.unique again
    | execFailed jumps _ => exact absurd stops jumps.not_stops
  | execFailed jumps _ =>
    cases again with
    | stage1 stops => exact absurd stops jumps.not_stops
    | execFailed => rfl

/-- A chain stops for no other reason than the one that it stops for, and one
that starts stage 3 has none. -/
theorem BootOutcome.stops {errors : List U8} {stop : Stop} {result : Except Stop (Exec × Ee)}
    (outcome : BootOutcome config flash frame errors ee result) (stops : BootStops config flash errors ee.deliveries stop) :
    result = .error stop := by
  cases outcome with
  | started jumped last jump jumps through =>
    cases stops with
    | stage1 stops => exact absurd stops jumps.not_stops
    | execFailed again fails =>
      obtain rfl := jumps.unique again
      exact absurd fails through.not_fails
  | stopped first => rw [first.unique stops]

end Fruitchip.Loader
