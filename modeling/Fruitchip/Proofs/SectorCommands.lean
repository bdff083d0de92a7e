import Fruitchip.Proofs.Session

/-! What the firmware does with the sector commands that a client sends. -/

namespace Fruitchip.Firmware
open Embedded Client

variable {config : Config} {world : World} {partitionIdx : U8} {sectorIdx : U32}

/-- The address of a sector in flash. -/
def sectorStart (config : Config) (partitionIdx : U8) (sectorIdx : U32) : Nat :=
  (sectorAddr config partitionIdx sectorIdx).1.toNat

/-- Flash is unlocked and the sector passes the address test. -/
structure Accepts (config : Config) (world : World) (partitionIdx : U8) (sectorIdx : U32) : Prop where
  unlocked : world.flashWriteLock = false
  valid : (sectorAddr config partitionIdx sectorIdx).2 = true

/-- A slow command is done, and what it answers. -/
structure Finishes (result : World × List Event) (next : World) (statusCode : U32) : Prop where
  world : result.1 = next
  events : ∃ middle, (∀ event ∈ middle, event.isSilent) ∧
    result.2 = .startBusyCode :: middle ++ [.stopBusyCode statusCode]

/-- The answer on the bus: any number of busy words, then the status code. -/
def AnswersWith (config : Config) (result : FirmwareState × List Event) (statusCode : U32) : Prop :=
  ∀ busy, emit config result.1.world.flash busy (.placeholder, 0) result.2 =
    (List.replicate busy (bytes32 modchipCmdResultBusy)).flatten ++ bytes32 statusCode

theorem AnswersWith.unique {result : FirmwareState × List Event} {first second : U32}
    (one : AnswersWith config result first) (other : AnswersWith config result second) : first = second := by
  have same := (one 0).symm.trans (other 0)
  have front := congrArg (fun bytes => peekU32 (bytes ++ [])) same
  simp only [List.replicate_zero, List.flatten_nil, List.nil_append, peekU32_bytes, Option.some.injEq,
    Prod.mk.injEq, and_true] at front
  exact front

theorem Finishes.answersWith {result : FirmwareState × List Event} {world next : World} {statusCode : U32}
    (finishes : Finishes (world, result.2) next statusCode) : AnswersWith config result statusCode := by
  obtain ⟨middle, silent, events⟩ := finishes.events
  intro busy
  have same : result.2 = .startBusyCode :: middle ++ [.stopBusyCode statusCode] := events
  rw [same]
  exact emit_busy silent statusCode

theorem call_finishes {start : FirmwareState} (idle : start.writeHandler = .idle) {call : Call} {next : World}
    {statusCode : U32} (finishes : Finishes (runCall config call start.world) next statusCode) :
    AnswersWith config ((machine config).run start call.poked) statusCode ∧
      ((machine config).run start call.poked).1.world = next := by
  obtain ⟨_, world, events⟩ := run_call config idle call
  refine ⟨?_, world.trans finishes.world⟩
  apply Finishes.answersWith
  rw [events]
  exact finishes

theorem sectorStart_aligned : sectorStart config partitionIdx sectorIdx % 4096 = 0 := by
  have sector : (BitVec.ofNat 32 flashSectorSize).toNat = 4096 := rfl
  unfold sectorStart sectorAddr
  dsimp only
  split
  · rw [BitVec.toNat_add, BitVec.toNat_mul, sector]
    have base : (BitVec.ofNat 32 updatePartitionOffset).toNat = 4096 * 170 := rfl
    omega
  split
  · rw [BitVec.toNat_add, BitVec.toNat_mul, sector]
    have base : (BitVec.ofNat 32 appsPartitionOffset).toNat = 4096 * 334 := rfl
    omega
  · rfl

theorem xipBytes_sector (flash : Flash) :
    xipBytes flash (xipBase + (sectorAddr config partitionIdx sectorIdx).1) flashSectorSize =
      flash.read (sectorStart config partitionIdx sectorIdx) flashSectorSize := by
  have aligned := @sectorStart_aligned config partitionIdx sectorIdx
  have bound := (sectorAddr config partitionIdx sectorIdx).1.isLt
  rw [xipBytes, Flash.read, List.map_inj_left]
  intro index member
  have inside : index < 4096 := List.mem_range.mp member
  rw [sectorStart] at aligned ⊢
  rw [xipByte]
  apply congrArg flash
  have offset : (xipBase + (sectorAddr config partitionIdx sectorIdx).1 + BitVec.ofNat 32 index - xipBase) =
      (sectorAddr config partitionIdx sectorIdx).1 + BitVec.ofNat 32 index := by
    bv_omega
  rw [offset, BitVec.toNat_add, BitVec.toNat_ofNat]
  omega

theorem checkedSectorAddr_statics (word : U32) (sector : Nat → U8) :
    checkedSectorAddr config (sectorStatics partitionIdx sectorIdx word sector) =
      sectorAddr config partitionIdx sectorIdx := by
  rw [checkedSectorAddr]
  exact if_pos ⟨xor_xor_self partitionIdx _, xor_xor_self sectorIdx _⟩

theorem sectorBytes_statics (word : U32) (sector : Sector) :
    (sectorStatics partitionIdx sectorIdx word (sector.bytes.getD · 0)).sectorBytes = sector.bytes := by
  have bytes := map_getD_range sector.bytes
  rw [sector.whole] at bytes
  exact bytes

theorem rewritten (flash : Flash) (start : Nat) {bytes : List U8} (whole : bytes.length = flashSectorSize) :
    let after := applyAll [.rangeErase start flashSectorSize, .rangeProgram start bytes] flash
    after.read start flashSectorSize = bytes ∧
      ∀ address, address < start ∨ start + flashSectorSize ≤ address → after address = flash address := by
  intro after
  constructor
  · apply List.ext_getElem
    · rw [Flash.read_length, whole]
    · intro index low high
      rw [Flash.read_length] at low
      rw [Flash.getElem_read]
      exact Flash.program_erased high (Flash.erase_inside (Nat.le_add_right start index) (by omega))
  · intro address outside
    apply applyAll_outside
    intro op member
    rcases List.mem_cons.mp member with rfl | member
    · simp only [FlashOp.covers]
      omega
    · obtain rfl := List.mem_singleton.mp member
      simp only [FlashOp.covers, whole]
      omega

/-- A write that is accepted leaves the sector as sent, whether it was so before
or not. -/
theorem write_accepted (accepts : Accepts config world partitionIdx sectorIdx) (sector : Sector) :
    ∃ flash, Finishes (runCall config (.writeFlashSector partitionIdx sectorIdx sector) world) { world with flash }
        modchipCmdResultOk ∧
      flash.read (sectorStart config partitionIdx sectorIdx) flashSectorSize = sector.bytes ∧
      ∀ address, address < sectorStart config partitionIdx sectorIdx ∨
        sectorStart config partitionIdx sectorIdx + flashSectorSize ≤ address → flash address = world.flash address := by
  have checksum : dmaCrc32 sector.bytes 0xFFFFFFFF = crc32 sector.bytes := (crc32_eq sector.bytes).symm
  have complement := xor_xor_self (crc32 sector.bytes) 0xFFFFFFFF
  simp only [runCall, writeFlashSectorBody, checkedSectorAddr_statics, sectorBytes_statics]
  rw [if_pos ⟨accepts.unlocked, accepts.valid, complement, checksum⟩]
  by_cases equal : xipBytes world.flash (xipBase + (sectorAddr config partitionIdx sectorIdx).1) flashSectorSize =
      sector.bytes
  · rw [if_pos equal]
    refine ⟨world.flash, ⟨rfl, _, crc_silent _ _, by rw [List.map_nil, List.append_nil]⟩, ?_, fun _ _ => rfl⟩
    rw [← xipBytes_sector, equal]
  · rw [if_neg equal]
    refine ⟨_, ⟨rfl, _, ?_, rfl⟩, rewritten world.flash _ sector.whole⟩
    intro event member
    rcases List.mem_append.mp member with checked | changed
    · exact crc_silent _ _ event checked
    · exact flash_silent _ event changed

theorem write_refused (refuses : ¬ Accepts config world partitionIdx sectorIdx) (sector : Sector) :
    Finishes (runCall config (.writeFlashSector partitionIdx sectorIdx sector) world) world modchipCmdResultErr := by
  simp only [runCall, writeFlashSectorBody, checkedSectorAddr_statics, sectorBytes_statics]
  rw [if_neg fun accepted => refuses ⟨accepted.1, accepted.2.1⟩]
  exact ⟨rfl, _, crc_silent _ _, rfl⟩

/-- The sector whose bytes decide whether anything is erased. -/
def TestedBlank (config : Config) (flash : Flash) (partitionIdx : U8) (sectorIdx : U32) : Prop :=
  ∀ index < flashSectorSize, flash (sectorStart config partitionIdx sectorIdx + index) = 0xFF

/-- `sector_count * FLASH_SECTOR_SIZE` in 32 bits. -/
def erasedLength (sectorCount : U32) : Nat := (sectorCount * BitVec.ofNat 32 flashSectorSize).toNat

theorem testedBlank_iff (flash : Flash) :
    (xipBytes flash (xipBase + (sectorAddr config partitionIdx sectorIdx).1) flashSectorSize).all (· = 0xFF) ↔
      TestedBlank config flash partitionIdx sectorIdx := by
  rw [xipBytes_sector, List.all_eq_true]
  constructor
  · intro blank index inside
    exact of_decide_eq_true (blank _ (List.mem_map.mpr ⟨index, List.mem_range.mpr inside, rfl⟩))
  · intro blank byte member
    obtain ⟨index, inside, rfl⟩ := List.mem_map.mp member
    exact decide_eq_true (blank index (List.mem_range.mp inside))

theorem erase_finishes (accepts : Accepts config world partitionIdx sectorIdx) (sectorCount : U32) :
    ∃ flash, Finishes (runCall config (.eraseFlashSector partitionIdx sectorIdx sectorCount) world)
        { world with flash } modchipCmdResultOk ∧
      (TestedBlank config world.flash partitionIdx sectorIdx → flash = world.flash) ∧
      (¬ TestedBlank config world.flash partitionIdx sectorIdx →
        flash = world.flash.erase (sectorStart config partitionIdx sectorIdx) (erasedLength sectorCount)) := by
  simp only [runCall, eraseFlashSectorBody, checkedSectorAddr_statics]
  rw [if_pos ⟨accepts.unlocked, accepts.valid, xor_xor_self sectorCount _⟩]
  by_cases blank : TestedBlank config world.flash partitionIdx sectorIdx
  · rw [if_pos ((testedBlank_iff world.flash).mpr blank)]
    exact ⟨world.flash, ⟨rfl, [], List.forall_mem_nil _, rfl⟩, fun _ => rfl, fun filled => absurd blank filled⟩
  · rw [if_neg (fun all => blank ((testedBlank_iff world.flash).mp all))]
    exact ⟨_, ⟨rfl, _, flash_silent _, rfl⟩, fun all => absurd all blank, fun _ => rfl⟩

theorem erase_accepted (accepts : Accepts config world partitionIdx sectorIdx) :
    ∃ flash, Finishes (runCall config (.eraseFlashSector partitionIdx sectorIdx 1) world) { world with flash }
        modchipCmdResultOk ∧
      (∀ index < flashSectorSize, flash (sectorStart config partitionIdx sectorIdx + index) = 0xFF) ∧
      ∀ address, address < sectorStart config partitionIdx sectorIdx ∨
        sectorStart config partitionIdx sectorIdx + flashSectorSize ≤ address → flash address = world.flash address := by
  have one : erasedLength 1 = flashSectorSize := by decide
  obtain ⟨flash, finishes, kept, erased⟩ := erase_finishes accepts 1
  refine ⟨flash, finishes, ?_⟩
  by_cases blank : TestedBlank config world.flash partitionIdx sectorIdx
  · rw [kept blank]
    exact ⟨blank, fun _ _ => rfl⟩
  · rw [erased blank, one]
    refine ⟨?_, fun address outside => Flash.erase_outside outside⟩
    intro index inside
    exact Flash.erase_inside (Nat.le_add_right _ index) (Nat.add_lt_add_left inside _)

theorem erase_refused (refuses : ¬ Accepts config world partitionIdx sectorIdx) (sectorCount : U32) :
    Finishes (runCall config (.eraseFlashSector partitionIdx sectorIdx sectorCount) world) world
      modchipCmdResultErr := by
  simp only [runCall, eraseFlashSectorBody, checkedSectorAddr_statics]
  rw [if_neg fun accepted => refuses ⟨accepted.1, accepted.2.1⟩]
  exact ⟨rfl, [], List.forall_mem_nil _, rfl⟩

theorem Finishes.reply {result : World × List Event} {next : World} {statusCode : U32}
    (finishes : Finishes result next statusCode) (final : statusCode ≠ modchipCmdResultBusy) (flash : Flash)
    (busy : Nat) (set : DataRef × U32) :
    peekBusy (emit config flash busy set result.2) =
      some (if statusCode = modchipCmdResultOk then .ok else .failed, []) := by
  obtain ⟨middle, silent, events⟩ := finishes.events
  rw [events, emit_busy silent, peekBusy_words busy final]

theorem peekChecked_word (value : U32) (flash : Flash) (busy : Nat) (set : DataRef × U32) :
    peekChecked 4 (emit config flash busy set (answerData world (.word value) 4 true).2) =
      some (.data (bytes32 value), []) := by
  have word := peekU32_bytes (Crc.crc32 0xFFFFFFFF (bytes32 value)) []
  rw [List.append_nil] at word
  have data := peekN_append (bytes32 value) (bytes32 (Crc.crc32 0xFFFFFFFF (bytes32 value)))
  rw [bytes32_length] at data
  have bytes : refBytes config flash (.word value) (4 : U32).toNat = bytes32 value := rfl
  rw [emit_answerData, bytes, peekChecked, peek_bind (peekU32_bytes _ _), if_neg (by decide), peekData, dataOut,
    if_pos rfl, peek_bind data]
  simp only [ite_true]
  rw [peek_bind word, ← crc32_eq, if_pos rfl]
  rfl

end Fruitchip.Firmware
