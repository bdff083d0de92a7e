import Fruitchip.Client
import Fruitchip.Firmware.Answers
import Fruitchip.Proofs.FrameRefinement

/-! Client and firmware agree over whole sessions: every call is parsed as
itself, answered with as many bytes as the client reads, and leaves the parser
ready for the next one. -/

namespace Fruitchip
open Embedded Crc

private theorem lut_spec : ∀ top < 16, shiftBits 4 (BitVec.ofNat 32 top <<< 28) = crc32Lut.getD top 0 := by
  decide

/-- Four steps of the shift register are a shift and one lookup, because the register
is linear. -/
theorem crc32Nibble_eq (crc : U32) : crc32Nibble crc = shiftBits 4 crc := by
  have split : crc = BitVec.ofNat 32 (crc >>> 28).toNat <<< 28 ^^^ (crc.setWidth 28).setWidth 32 := by
    rw [BitVec.ofNat_toNat, BitVec.setWidth_eq]
    ext i inside
    simp
    grind
  have top : (crc >>> 28).toNat < 16 := by
    rw [BitVec.toNat_ushiftRight, Nat.shiftRight_eq_div_pow]
    omega
  have low : ((crc.setWidth 28).setWidth 32).toNat * 2 ^ 4 < 2 ^ 32 := by
    simp only [BitVec.toNat_setWidth]
    omega
  have shifted : crc <<< 4 = (crc.setWidth 28).setWidth 32 <<< 4 := by
    ext i inside
    simp
    grind
  calc crc32Nibble crc = (crc.setWidth 28).setWidth 32 <<< 4 ^^^ crc32Lut.getD (crc >>> 28).toNat 0 := by
        rw [crc32Nibble, shifted]
    _ = shiftBits 4 ((crc.setWidth 28).setWidth 32) ^^^ shiftBits 4 (BitVec.ofNat 32 (crc >>> 28).toNat <<< 28) := by
        rw [shiftBits_small 4 low, lut_spec _ top]
    _ = shiftBits 4 crc := by rw [BitVec.xor_comm, ← shiftBits_xor, ← split]

theorem crc32Byte_eq (crc : U32) (byte : U8) : crc32Byte crc byte = shiftByte crc byte := by
  rw [crc32Byte, crc32Nibble_eq, crc32Nibble_eq]
  rfl

/-- Client and sniffer compute the same checksum. -/
theorem crc32_eq (data : List U8) : crc32 data = Crc.crc32 0xFFFFFFFF data := by
  have same : crc32Byte = shiftByte := funext fun crc => funext fun byte => crc32Byte_eq crc byte
  rw [crc32, Crc.crc32, same]

end Fruitchip

namespace Fruitchip.Firmware
open Embedded Client

/-- The command that a call sends. -/
def callCmd : Call → Cmd
  | .stage3Read _ _ _ => .readEeStage3
  | .appsRead _ _ _ _ => .readApp
  | .getPartitionSize _ => .getPartitionSize
  | .getFlashSectorSize => .getFlashSectorSize
  | .setWriteLock _ => .writeLock
  | .writeFlashSector _ _ _ => .writeFlashSector
  | .eraseFlashSector _ _ _ => .eraseFlashSector
  | .reboot _ => .reboot
  | .settingsGet _ => .kvGet
  | .settingsSet _ _ => .kvSet
  | .pinConfig _ => .pinConfig
  | .fwGitRev => .fwGitRev
  | .bootloaderGitRev => .bootloaderGitRev

/-- The statics of the sector commands for the arguments of a call. -/
def sectorStatics (partitionIdx : U8) (sectorIdx word : U32) (sector : Nat → U8) : FlashStatics where
  partitionIdx
  partitionIdxXor := partitionIdx ^^^ 0xFF
  sectorIdx
  sectorIdxXor := sectorIdx ^^^ 0xFFFFFFFF
  sectorCrc := word
  sectorCrcXor := word ^^^ 0xFFFFFFFF
  sectorCount := word
  sectorCountXor := word ^^^ 0xFFFFFFFF
  sector

/-- The statics of READ_APP for the arguments of a call. -/
def appsReadStatics (flash : Flash) (offset size : U32) (appIdx : U8) (withCrc : Bool) : ReadAppStatics where
  readOffset := offset
  readOffsetXor := offset ^^^ 0xFFFFFFFF
  readSize := size
  readSizeXor := size ^^^ 0xFFFFFFFF
  appIdx
  appIdxXor := appIdx ^^^ 0xFF
  withCrc
  isValidAppsPartition := appsPartitionDetect flash
  isValidReadOffset := offset < appsPartitionEntryLength flash (appIdx.setWidth 32)
  isValidReadSize := true
  isValidAppIdx := appIdx.setWidth 32 < appsPartitionEntriesCount flash
  readAddr := appsPartitionEntryAddr flash (appIdx.setWidth 32) + offset

/-- What the firmware is asked to do by a call, in terms of its arguments. -/
def runCall (config : Config) (call : Call) (world : World) : World × List Event :=
  match call with
  | .stage3Read offset size withCrc =>
    readEeStage3Body config ⟨offset, offset ^^^ 0xFFFFFFFF, size, size ^^^ 0xFFFFFFFF, withCrc⟩
      (boolByte withCrc ^^^ 0xFF) world
  | .appsRead offset size appIdx withCrc =>
    readAppsPartitionBody (appsReadStatics world.flash offset size appIdx withCrc)
      (boolByte withCrc ^^^ 0xFF) world
  | .getPartitionSize idx => getPartitionSizeBody config (sectorStatics idx 0 0 fun _ => 0) world
  | .getFlashSectorSize => answerData world (.word (BitVec.ofNat 32 flashSectorSize)) 4 true
  | .setWriteLock lock => writeLockBody ⟨boolByte lock, boolByte lock ^^^ 0xFF⟩ world
  | .writeFlashSector partitionIdx sectorIdx sector =>
    writeFlashSectorBody config
      (sectorStatics partitionIdx sectorIdx (crc32 sector.bytes) (sector.bytes.getD · 0)) world
  | .eraseFlashSector partitionIdx sectorIdx sectorCount =>
    eraseFlashSectorBody config (sectorStatics partitionIdx sectorIdx sectorCount fun _ => 0) world
  | .reboot mode => rebootBody ⟨mode, mode ^^^ 0xFF⟩ world
  | .settingsGet key => kvGetBody ⟨key, key ^^^ 0xFFFF⟩ world
  | .settingsSet key value => kvSetBody ⟨key, key ^^^ 0xFFFF, value, value ^^^ 0xFFFFFFFF⟩ world
  | .pinConfig pin => pinConfigBody config ⟨pin, pin ^^^ 0xFF⟩ world
  | .fwGitRev => answerData world .gitRev 8 true
  | .bootloaderGitRev => answerData world .bootloaderGitRev 8 true

/-- The bytes of a call behind its command word. -/
def callArgs (call : Call) : List U8 := call.poked.drop 4

variable {config : Config}

theorem poked_eq (call : Call) : call.poked = (callCmd call).opcode ++ callArgs call := by
  cases call <;> rfl

theorem callArgs_length (call : Call) : (callArgs call).length = argLength (callCmd call) := by
  cases call
  case writeFlashSector partitionIdx sectorIdx sector =>
    show (_ ++ sector.bytes).length = 18 + flashSectorSize
    rw [List.length_append, sector.whole]
    rfl
  all_goals rfl

private theorem flag_ne_zero (b : Bool) : decide (boolByte b ≠ 0) = b := by
  cases b <;> rfl

/-- The byte at a position among the arguments of a call. -/
private def argByte (call : Call) (index : Nat) : U8 := (callArgs call).getD index 0

private theorem kvGet_fields (key : U16) :
    kvGetArgs (argByte (.settingsGet key)) = ⟨key, key ^^^ 0xFFFF⟩ := by
  show KvGetStatics.mk _ _ = _
  rw [KvGetStatics.mk.injEq]
  exact ⟨le16_byteAt _, le16_byteAt _⟩

private theorem kvSet_fields (key : U16) (value : U32) :
    kvSetArgs (argByte (.settingsSet key value)) =
      ⟨key, key ^^^ 0xFFFF, value, value ^^^ 0xFFFFFFFF⟩ := by
  show KvSetStatics.mk _ _ _ _ = _
  rw [KvSetStatics.mk.injEq]
  exact ⟨le16_byteAt _, le16_byteAt _, le32_byteAt _, le32_byteAt _⟩

private theorem stage3_fields (offset size : U32) (withCrc : Bool) :
    stage3Args (argByte (.stage3Read offset size withCrc)) =
      ⟨offset, offset ^^^ 0xFFFFFFFF, size, size ^^^ 0xFFFFFFFF, withCrc⟩ := by
  show Stage3Statics.mk _ _ _ _ _ = _
  rw [Stage3Statics.mk.injEq]
  exact ⟨le32_byteAt _, le32_byteAt _, le32_byteAt _, le32_byteAt _, flag_ne_zero withCrc⟩

private theorem readApp_fields (flash : Flash) (offset size : U32) (appIdx : U8) (withCrc : Bool) :
    readAppArgs flash (argByte (.appsRead offset size appIdx withCrc)) =
      appsReadStatics flash offset size appIdx withCrc := by
  have offsetWord : wordAt (argByte (.appsRead offset size appIdx withCrc)) 2 = offset := le32_byteAt _
  have offsetXor : wordAt (argByte (.appsRead offset size appIdx withCrc)) 6 = offset ^^^ 0xFFFFFFFF :=
    le32_byteAt _
  have sizeWord : wordAt (argByte (.appsRead offset size appIdx withCrc)) 10 = size := le32_byteAt _
  have sizeXor : wordAt (argByte (.appsRead offset size appIdx withCrc)) 14 = size ^^^ 0xFFFFFFFF :=
    le32_byteAt _
  have idx : argByte (.appsRead offset size appIdx withCrc) 0 = appIdx := rfl
  have idxXor : argByte (.appsRead offset size appIdx withCrc) 1 = appIdx ^^^ 0xFF := rfl
  have flag : argByte (.appsRead offset size appIdx withCrc) 18 = boolByte withCrc := rfl
  simp only [readAppArgs, appsReadStatics, offsetWord, offsetXor, sizeWord, sizeXor, idx, idxXor, flag,
    xor_xor_self, flag_ne_zero, true_and, decide_true]

theorem sector_behind (args sector : List U8) (length : args.length = 18) :
    (List.range flashSectorSize).map (fun index => (args ++ sector).getD (18 + index) 0) =
      (List.range flashSectorSize).map (sector.getD · 0) := by
  apply List.map_congr_left
  intro index _
  rw [List.getD_eq_getElem?_getD, List.getElem?_append_right (by omega), length, Nat.add_sub_cancel_left,
    ← List.getD_eq_getElem?_getD]

/-- The firmware receives exactly the arguments of the call. -/
theorem execute_call (call : Call) (world : World) :
    execute config (callCmd call, callArgs call) world = runCall config call world := by
  cases call
  case stage3Read offset size withCrc =>
    exact congrArg (readEeStage3Body config · _ world) (stage3_fields offset size withCrc)
  case appsRead offset size appIdx withCrc =>
    exact congrArg (readAppsPartitionBody · _ world)
      (readApp_fields world.flash offset size appIdx withCrc)
  case getPartitionSize idx => rfl
  case writeFlashSector partitionIdx sectorIdx sector =>
    apply write_congr
    · rfl
    · rfl
    · exact le32_byteAt _
    · exact le32_byteAt _
    · exact le32_byteAt _
    · exact le32_byteAt _
    · exact sector_behind _ sector.bytes rfl
  case eraseFlashSector partitionIdx sectorIdx sectorCount =>
    apply erase_congr
    · rfl
    · rfl
    · exact le32_byteAt _
    · exact le32_byteAt _
    · exact le32_byteAt _
    · exact le32_byteAt _
  case settingsGet key => exact congrArg (kvGetBody · world) (kvGet_fields key)
  case settingsSet key value => exact congrArg (kvSetBody · world) (kvSet_fields key value)
  all_goals rfl

/-- The bytes of a call, received by an idle parser, are that call and nothing else. -/
theorem run_call (config : Config) {start : FirmwareState} (idle : start.writeHandler = .idle) (call : Call) :
    let result := (machine config).run start call.poked
    result.1.writeHandler = .idle ∧ result.1.world = (runCall config call start.world).1 ∧
      result.2 = (runCall config call start.world).2 := by
  rw [poked_eq, ← execute_call]
  exact run_frame config idle (callArgs_length call)

theorem peek_bind {α β : Type} {peek : Peek α} {next : α → Peek β} {bus rest : List U8} {value : α}
    (found : peek bus = some (value, rest)) : (peek >>= next) bus = next value rest := by
  show (peek bus).bind _ = _
  rw [found]
  rfl

theorem peekU32_bytes (v : U32) (bus : List U8) : peekU32 (bytes32 v ++ bus) = some (v, bus) := by
  show some (le32 (byteAt v 0) (byteAt v 1) (byteAt v 2) (byteAt v 3), bus) = _
  rw [le32_byteAt]

private theorem peekMany_bytes (data bus : List U8) :
    peekMany peekU8 data.length (data ++ bus) = some (data, bus) := by
  induction data with
  | nil => rfl
  | cons byte data ih =>
    have first : peekU8 (byte :: data ++ bus) = some (byte, data ++ bus) := rfl
    rw [List.length_cons, peekMany, peek_bind first, peek_bind ih]
    rfl

private theorem peekMany_words {count : Nat} {data : List U8} (bus : List U8)
    (length : data.length = 4 * count) :
    ∃ words, peekMany peekU32 count (data ++ bus) = some (words, bus) ∧ words.flatMap bytes32 = data := by
  induction count generalizing data with
  | zero =>
    obtain rfl := List.length_eq_zero_iff.mp length
    exact ⟨[], rfl, rfl⟩
  | succ count ih =>
    match data, length with
    | b0 :: b1 :: b2 :: b3 :: data, length =>
      have shorter : data.length = 4 * count := by simp at length; omega
      obtain ⟨words, found, whole⟩ := ih shorter
      have first : peekU32 (b0 :: b1 :: b2 :: b3 :: data ++ bus) = some (le32 b0 b1 b2 b3, data ++ bus) :=
        rfl
      refine ⟨le32 b0 b1 b2 b3 :: words, ?_, ?_⟩
      · rw [peekMany, peek_bind first, peek_bind found]
        rfl
      · rw [List.flatMap_cons, bytes32_le32, whole]
        rfl

theorem peekN_append (data bus : List U8) : peekN data.length (data ++ bus) = some (data, bus) := by
  have split : data = data.take (4 * (data.length / 4)) ++ data.drop (4 * (data.length / 4)) :=
    (List.take_append_drop _ data).symm
  have front : (data.take (4 * (data.length / 4))).length = 4 * (data.length / 4) := by
    rw [List.length_take]
    omega
  have back : (data.drop (4 * (data.length / 4))).length = data.length % 4 := by
    rw [List.length_drop]
    omega
  obtain ⟨words, found, whole⟩ :=
    peekMany_words (data.drop (4 * (data.length / 4)) ++ bus) front
  rw [← List.append_assoc, ← split] at found
  have rest := peekMany_bytes (data.drop (4 * (data.length / 4))) bus
  rw [back] at rest
  rw [peekN, peek_bind found, peek_bind rest, whole, ← split]
  rfl

private theorem peekWhileBusy_word (v : U32) (bus : List U8) :
    peekWhileBusy (bytes32 v ++ bus) =
      if v = modchipCmdResultBusy then peekWhileBusy bus
      else some (decide (v = modchipCmdResultOk), bus) := by
  simp only [bytes32, List.cons_append, List.nil_append, peekWhileBusy, le32_byteAt]

theorem peekWhileBusy_words (busy : Nat) {statusCode : U32} (final : statusCode ≠ modchipCmdResultBusy)
    (bus : List U8) :
    peekWhileBusy ((List.replicate busy (bytes32 modchipCmdResultBusy)).flatten ++
      (bytes32 statusCode ++ bus)) = some (decide (statusCode = modchipCmdResultOk), bus) := by
  induction busy with
  | zero => rw [List.replicate_zero, List.flatten_nil, List.nil_append, peekWhileBusy_word, if_neg final]
  | succ busy ih =>
    rw [List.replicate_succ, List.flatten_cons, List.append_assoc, peekWhileBusy_word, if_pos rfl, ih]

/-- The client reads an answer to its last byte and no further. -/
def ReadsAll (peek : Peek Reply) (bus : List U8) : Prop := ∃ reply, peek bus = some (reply, [])

private theorem peekData_all (data : List U8) (crc : Bool) :
    ReadsAll (peekData data.length crc) (dataOut data crc) := by
  unfold ReadsAll peekData dataOut
  cases crc with
  | false =>
    rw [peek_bind (peekN_append data _)]
    exact ⟨_, rfl⟩
  | true =>
    rw [peek_bind (peekN_append data _)]
    have word := peekU32_bytes (Crc.crc32 0xFFFFFFFF data) []
    rw [List.append_nil] at word
    simp only [ite_true]
    rw [peek_bind word]
    exact ⟨_, rfl⟩

private theorem peekRead_data (data : List U8) (size : U32) (crc : Bool) (length : data.length = size.toNat) :
    ReadsAll (peekRead size crc) (bytes32 modchipCmdResultOk ++ dataOut data crc) := by
  unfold ReadsAll peekRead
  rw [peek_bind (peekU32_bytes _ _), if_neg (by decide), if_neg (by decide), ← length]
  exact peekData_all data crc

/-- The bytes of an answer on the bus. -/
def answerBus (answer : Answer) (size : U32) (withCrc : Bool) : List U8 :=
  bytes32 answer.r ++ if answer.r = modchipCmdResultOk then
    (List.range size.toNat).map answer.byte ++ if withCrc then bytes32 answer.crcExpected else []
  else []

theorem peekRead_answer (answer : Answer) (size : U32) (withCrc : Bool) :
    peekRead size withCrc (answerBus answer size withCrc) = some ((answer.read size withCrc).1, []) := by
  rw [peekRead, answerBus, peek_bind (peekU32_bytes _ _), Answer.read]
  split
  next absent =>
    rw [absent, if_neg (by decide)]
    rfl
  next present =>
    by_cases accepted : answer.r = modchipCmdResultOk
    · rw [if_neg (not_not_intro accepted), if_neg (not_not_intro accepted), if_pos accepted]
      have length : ((List.range size.toNat).map answer.byte).length = size.toNat := by simp
      unfold peekData
      nth_rewrite 1 [← length]
      rw [peek_bind (peekN_append _ _)]
      cases withCrc with
      | false => rfl
      | true =>
        have word := peekU32_bytes answer.crcExpected []
        rw [List.append_nil] at word
        simp only [ite_true]
        rw [peek_bind word]
        rfl
    · rw [if_pos accepted, if_pos accepted, if_neg accepted]
      rfl

private theorem peekRead_error (size : U32) (crc : Bool) :
    ReadsAll (peekRead size crc) (bytes32 modchipCmdResultErr) := ⟨.failed, rfl⟩

private theorem peekChecked_data (data : List U8) :
    ReadsAll (peekChecked data.length) (bytes32 modchipCmdResultOk ++ dataOut data true) := by
  unfold ReadsAll peekChecked
  rw [peek_bind (peekU32_bytes _ _), if_neg (by decide)]
  exact peekData_all data true

private theorem peekChecked_error (size : Nat) :
    ReadsAll (peekChecked size) (bytes32 modchipCmdResultErr) := ⟨.failed, rfl⟩

private theorem peekStatus_all (statusCode : U32) : ReadsAll peekStatus (bytes32 statusCode) := by
  have word := peekU32_bytes statusCode []
  rw [List.append_nil] at word
  unfold ReadsAll peekStatus
  rw [peek_bind word]
  exact ⟨_, rfl⟩

theorem peekBusy_words (busy : Nat) {statusCode : U32} (final : statusCode ≠ modchipCmdResultBusy) :
    peekBusy ((List.replicate busy (bytes32 modchipCmdResultBusy)).flatten ++ bytes32 statusCode) =
      some (if statusCode = modchipCmdResultOk then .ok else .failed, []) := by
  have done := peekWhileBusy_words busy final []
  rw [List.append_nil] at done
  rw [peekBusy, peek_bind done]
  simp only [decide_eq_true_eq]
  rfl

private theorem peekBusy_all (busy : Nat) {statusCode : U32} (final : statusCode ≠ modchipCmdResultBusy) :
    ReadsAll peekBusy
      ((List.replicate busy (bytes32 modchipCmdResultBusy)).flatten ++ bytes32 statusCode) :=
  ⟨_, peekBusy_words busy final⟩

/-- Events that put nothing on the bus. -/
def Event.isSilent : Event → Bool
  | .dmaCrc32 _ | .flash _ | .settingsSet _ | .setFlashWriteLock _ | .setScratch0 _ | .watchdogReboot => true
  | _ => false

variable {flash : Flash} {busy : Nat} {set : DataRef × U32}

private theorem emit_silent {middle : List Event} (silent : ∀ event ∈ middle, event.isSilent)
    (events : List Event) :
    emit config flash busy set (middle ++ events) = emit config flash busy set events := by
  induction middle with
  | nil => rfl
  | cons event middle ih =>
    have rest := ih fun other member => silent other (List.mem_cons_of_mem _ member)
    have first := silent event List.mem_cons_self
    cases event
    case startStatusCode | startDataWithStatusCode | setData | startDataWithoutStatusCode | startBusyCode
        | stopBusyCode => cases first
    all_goals exact rest

theorem emit_busy {middle : List Event} (silent : ∀ event ∈ middle, event.isSilent)
    (statusCode : U32) :
    emit config flash busy set (.startBusyCode :: middle ++ [.stopBusyCode statusCode]) =
      (List.replicate busy (bytes32 modchipCmdResultBusy)).flatten ++ bytes32 statusCode := by
  show _ ++ emit config flash busy set (middle ++ [.stopBusyCode statusCode]) = _
  rw [emit_silent silent]
  exact congrArg _ (List.append_nil _)

theorem emit_answer (world : World) (statusCode : U32) :
    emit config flash busy set (answer world statusCode).2 = bytes32 statusCode :=
  List.append_nil _

theorem emit_answerData (world : World) (readAddr : DataRef) (transferCount : U32) (crc : Bool) :
    emit config flash busy set (answerData world readAddr transferCount crc).2 =
      bytes32 modchipCmdResultOk ++ dataOut (refBytes config flash readAddr transferCount.toNat) crc :=
  List.append_nil _

theorem flash_silent (ops : List FlashOp) : ∀ event ∈ ops.map Event.flash, event.isSilent := by
  intro event member
  obtain ⟨op, _, rfl⟩ := List.mem_map.mp member
  rfl

theorem crc_silent (complement : Prop) [Decidable complement] (sector : List U8) :
    ∀ event ∈ (if complement then [Event.dmaCrc32 sector] else []), event.isSilent := by
  intro event member
  split at member
  · obtain rfl := List.mem_singleton.mp member
    rfl
  · cases member

private theorem busy_reads_all {middle : List Event} (silent : ∀ event ∈ middle, event.isSilent)
    {statusCode : U32} (final : statusCode ≠ modchipCmdResultBusy) :
    ReadsAll peekBusy
      (emit config flash busy set (.startBusyCode :: middle ++ [.stopBusyCode statusCode])) := by
  rw [emit_busy silent]
  exact peekBusy_all busy final

private theorem write_reads_all (s : FlashStatics) (world : World) :
    ReadsAll peekBusy (emit config flash busy set (writeFlashSectorBody config s world).2) := by
  simp only [writeFlashSectorBody]
  split
  · refine busy_reads_all (fun event member => ?_) (by decide)
    rcases List.mem_append.mp member with checked | changed
    · exact crc_silent _ _ event checked
    · exact flash_silent _ event changed
  · exact busy_reads_all (crc_silent _ _) (by decide)

private theorem erase_reads_all (s : FlashStatics) (world : World) :
    ReadsAll peekBusy (emit config flash busy set (eraseFlashSectorBody config s world).2) := by
  simp only [eraseFlashSectorBody]
  split
  · exact busy_reads_all (flash_silent _) (by decide)
  · exact @busy_reads_all _ _ _ _ [] (List.forall_mem_nil _) _ (by decide)

private theorem set_reads_all (s : KvSetStatics) (world : World) :
    ReadsAll peekBusy (emit config flash busy set (kvSetBody s world).2) := by
  simp only [kvSetBody]
  split
  · refine busy_reads_all (fun event member => ?_) (by decide)
    rcases List.mem_cons.mp member with rfl | changed
    · rfl
    · exact flash_silent _ event changed
  · rw [emit_answer]
    exact peekBusy_all 0 (by decide)

theorem call_reads_all (call : Call) (world : World) :
    ReadsAll call.peek (emit config flash busy set (runCall config call world).2) := by
  cases call
  case stage3Read offset size withCrc =>
    simp only [runCall, readEeStage3Body, Call.peek]
    split
    · rw [emit_answerData]
      exact peekRead_data _ size withCrc (refBytes_length _ _ _ _)
    · rw [emit_answer]
      exact peekRead_error size withCrc
  case appsRead offset size appIdx withCrc =>
    simp only [runCall, readAppsPartitionBody, Call.peek]
    split
    · rw [emit_answerData]
      exact peekRead_data _ size withCrc (refBytes_length _ _ _ _)
    · rw [emit_answer]
      exact peekRead_error size withCrc
  case getPartitionSize idx =>
    simp only [runCall, getPartitionSizeBody, Call.peek]
    split
    · rw [emit_answerData]
      exact peekChecked_data (refBytes _ _ _ 4)
    · rw [emit_answer]
      exact peekChecked_error 4
  case getFlashSectorSize =>
    rw [runCall, emit_answerData]
    exact peekChecked_data (refBytes _ _ _ 4)
  case setWriteLock lock =>
    simp only [runCall, writeLockBody, Call.peek]
    split
    · exact peekStatus_all modchipCmdResultOk
    · rw [emit_answer]
      exact peekStatus_all modchipCmdResultErr
  case writeFlashSector partitionIdx sectorIdx sector => exact write_reads_all _ world
  case eraseFlashSector partitionIdx sectorIdx sectorCount => exact erase_reads_all _ world
  case reboot mode =>
    simp only [runCall, rebootBody, Call.peek]
    split
    · split
      · exact peekStatus_all modchipCmdResultOk
      · exact peekStatus_all modchipCmdResultOk
    · rw [emit_answer]
      exact peekStatus_all modchipCmdResultErr
  case settingsGet key =>
    simp only [runCall, kvGetBody, Call.peek]
    split
    · rw [emit_answerData]
      exact peekChecked_data (refBytes _ _ _ 4)
    · rw [emit_answer]
      exact peekChecked_error 4
  case settingsSet key value => exact set_reads_all _ world
  case pinConfig pin =>
    simp only [runCall, pinConfigBody, Call.peek]
    split
    · split
      · rw [emit_answerData]
        exact peekChecked_data (refBytes _ _ _ 4)
      · rw [emit_answer]
        exact peekChecked_error 4
    · rw [emit_answer]
      exact peekChecked_error 4
  case fwGitRev =>
    rw [runCall, emit_answerData]
    exact peekChecked_data (refBytes _ _ _ 8)
  case bootloaderGitRev =>
    rw [runCall, emit_answerData]
    exact peekChecked_data (refBytes _ _ _ 8)

/-- The firmware that receives the next call: the same one, or after a reboot
command a restarted one, of which nothing is known but that it is idle. -/
def Continues (firmware next : FirmwareState) : Prop :=
  next = firmware ∨ firmware.world.rebooting = true ∧ next.writeHandler = .idle

/-- Client and firmware agree on every call of a session. Each call comes with
the number of busy words that its answer starts with. -/
def SessionAgrees (config : Config) : FirmwareState → List (Call × Nat) → Prop
  | _, [] => True
  | firmware, (call, busy) :: rest =>
    let result := (machine config).run firmware call.poked
    firmware.writeHandler = .idle ∧
      result.1.world = (runCall config call firmware.world).1 ∧
      result.2 = (runCall config call firmware.world).2 ∧
      (∃ reply, call.peek (emit config result.1.world.flash busy (.placeholder, 0) result.2) =
        some (reply, [])) ∧
      result.1.writeHandler = .idle ∧
      ∀ next, Continues result.1 next → SessionAgrees config next rest

/-- Every session that starts on an idle parser agrees, with any static
variables and any flash contents. -/
theorem session_agrees (config : Config) {start : FirmwareState} (idle : start.writeHandler = .idle)
    (calls : List (Call × Nat)) : SessionAgrees config start calls := by
  induction calls generalizing start with
  | nil => trivial
  | cons first rest ih =>
    obtain ⟨call, busy⟩ := first
    obtain ⟨resting, world, events⟩ := run_call config idle call
    refine ⟨idle, world, events, ?_, resting, ?_⟩
    · rw [events]
      exact call_reads_all call start.world
    · rintro next (rfl | ⟨_, restarted⟩)
      · exact ih resting
      · exact ih restarted

theorem session_agrees_power_up :
    SessionAgrees default (.powerUp (fun _ => 0xFF) ⟨.defaults, WearLeveling.clearCache⟩)
      [(.setWriteLock false, 0), (.eraseFlashSector 2 0 1, 3), (.settingsGet 1, 0), (.fwGitRev, 0)] :=
  session_agrees default rfl _

end Fruitchip.Firmware
