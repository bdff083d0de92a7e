import Fruitchip.Proofs.AppsPartition
import Fruitchip.Proofs.DamagedFrames
import Fruitchip.Proofs.SectorCommands

/-! The checksum of transfers. The client, the builder of the apps partition and
the sniffer compute one function, and it detects every burst of up to 32 bits. -/

namespace Fruitchip
open Embedded Client Firmware

theorem crc32_serial (data : List U8) : crc32 data = Crc.serial 0xFFFFFFFF (data.flatMap Crc.bits) :=
  (crc32_eq data).trans (Crc.serial_bytes 0xFFFFFFFF data).symm

/-- The three computations of the checksum give the same word. -/
theorem checksums_agree (data : List U8) :
    crc32 data = Crc.serial 0xFFFFFFFF (data.flatMap Crc.bits) ∧
      AppsBuilder.crc32 data = (Crc.serial 0xFFFFFFFF (data.flatMap Crc.bits)).toNat ∧
      dmaCrc32 data 0xFFFFFFFF = Crc.serial 0xFFFFFFFF (data.flatMap Crc.bits) := by
  refine ⟨crc32_serial data, ?_, (Crc.serial_bytes 0xFFFFFFFF data).symm⟩
  rw [AppsBuilder.crc32_toNat, crc32_serial]

variable {sent received : List U8}

/-- The received bytes differ from those that were sent by one burst. -/
structure Corrupted (sent received : List U8) : Prop where
  length : received.length = sent.length
  different : received ≠ sent
  burst : Crc.Burst (received.flatMap Crc.bits) (sent.flatMap Crc.bits)

/-- What the calls with a checksum and the sector command make of it, where the
checksum of what was sent arrives intact. -/
structure Refused (sent received : List U8) : Prop where
  checksum : crc32 received ≠ crc32 sent
  reads : ∀ (size : U32) (call : Call), size.toNat = sent.length →
    ((∃ offset, call = .stage3Read offset size true) ∨ ∃ offset appIdx, call = .appsRead offset size appIdx true) →
    ∀ rest, call.peek (bytes32 modchipCmdResultOk ++ (received ++ (bytes32 (crc32 sent) ++ rest))) =
      some (.ioError, rest)
  sector : sent.length = flashSectorSize → ∀ (config : Config) (start : FirmwareState) (partitionIdx partitionIdxXor : U8)
    (sectorIdx sectorIdxXor sectorCrcXor : U32), start.writeHandler = .idle →
    let frame := Cmd.writeFlashSector.opcode ++ ([partitionIdx, partitionIdxXor] ++
      ((bytes32 sectorIdx ++ bytes32 sectorIdxXor) ++ (bytes32 (crc32 sent) ++ bytes32 sectorCrcXor)) ++ received)
    AnswersWith config ((machine config).run start frame) modchipCmdResultErr ∧
      ((machine config).run start frame).1.world = start.world

theorem Corrupted.detected (corrupted : Corrupted sent received) : crc32 received ≠ crc32 sent := by
  have different : received.flatMap Crc.bits ≠ sent.flatMap Crc.bits := fun same =>
    corrupted.different (Crc.message_inj same)
  have length : (received.flatMap Crc.bits).length = (sent.flatMap Crc.bits).length := by
    rw [Crc.message_length, Crc.message_length, corrupted.length]
  rw [crc32_serial, crc32_serial]
  exact Crc.burst_detected 0xFFFFFFFF length different corrupted.burst

theorem peekData_refused (detected : crc32 received ≠ crc32 sent) (rest : List U8) :
    peekData received.length true (received ++ (bytes32 (crc32 sent) ++ rest)) = some (.ioError, rest) := by
  rw [peekData, peek_bind (peekN_append received _)]
  simp only [ite_true]
  rw [peek_bind (peekU32_bytes _ rest), if_neg detected.symm]
  rfl

theorem peekRead_refused (detected : crc32 received ≠ crc32 sent) {size : U32} (length : size.toNat = received.length)
    (rest : List U8) :
    peekRead size true (bytes32 modchipCmdResultOk ++ (received ++ (bytes32 (crc32 sent) ++ rest))) =
      some (.ioError, rest) := by
  have present : modchipCmdResultOk ≠ bootRomAddrValue := by decide
  rw [peekRead, peek_bind (peekU32_bytes _ _), if_neg present, if_neg (not_not_intro rfl), length]
  exact peekData_refused detected rest

theorem writeFlashSectorBody_refused {config : Config} {statics : FlashStatics} {world : World}
    (wrong : dmaCrc32 statics.sectorBytes 0xFFFFFFFF ≠ statics.sectorCrc) :
    Finishes (writeFlashSectorBody config statics world) world modchipCmdResultErr := by
  unfold writeFlashSectorBody
  dsimp only
  rw [if_neg fun accepted => wrong accepted.2.2.2]
  refine ⟨rfl, _, ?_, rfl⟩
  intro event member
  split at member
  · obtain rfl := List.mem_singleton.mp member
    rfl
  · cases member

/-- Data that is corrupted by one burst is never accepted. -/
theorem bursts_refused (corrupted : Corrupted sent received) : Refused sent received := by
  have detected := corrupted.detected
  refine ⟨detected, ?_, ?_⟩
  · intro size call length named rest
    have received := length.trans corrupted.length.symm
    rcases named with ⟨offset, rfl⟩ | ⟨offset, appIdx, rfl⟩
    · exact peekRead_refused detected received rest
    · exact peekRead_refused detected received rest
  · intro whole config start partitionIdx partitionIdxXor sectorIdx sectorIdxXor sectorCrcXor idle frame
    have length : received.length = flashSectorSize := corrupted.length.trans whole
    have arguments : ([partitionIdx, partitionIdxXor] ++ ((bytes32 sectorIdx ++ bytes32 sectorIdxXor) ++
        (bytes32 (crc32 sent) ++ bytes32 sectorCrcXor)) ++ received).length = argLength .writeFlashSector := by
      rw [List.length_append, length]
      rfl
    obtain ⟨_, world, events⟩ := run_frame config idle arguments
    rw [execute_write_words] at world events
    have finishes := @writeFlashSectorBody_refused config
      ⟨partitionIdx, partitionIdxXor, sectorIdx, sectorIdxXor, crc32 sent, sectorCrcXor, crc32 sent, sectorCrcXor,
        (received.getD · 0)⟩ start.world (by
          rw [sectorBytes_getD _ _ _ _ _ _ length, dmaCrc32, ← crc32_eq]
          exact detected)
    refine ⟨?_, world.trans finishes.world⟩
    apply Finishes.answersWith
    rw [events]
    exact finishes

/-- A byte is flipped in whole. -/
theorem bursts_refused_byte : Refused [0x12, 0x34, 0x56] [0x12, 0xCB, 0x56] := by
  apply bursts_refused
  refine ⟨rfl, by decide, 8, ?_⟩
  intro index differs
  have low : ∀ index < 8, ([0x12, 0xCB, 0x56].flatMap Crc.bits)[index]? =
      ([0x12, 0x34, 0x56].flatMap Crc.bits)[index]? := by decide
  by_contra outside
  apply differs
  by_cases front : index < 8
  · exact low index front
  · rw [List.getElem?_eq_none, List.getElem?_eq_none]
    · rw [Crc.message_length, List.length_cons, List.length_cons, List.length_singleton]
      omega
    · rw [Crc.message_length, List.length_cons, List.length_cons, List.length_singleton]
      omega

end Fruitchip
