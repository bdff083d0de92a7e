import Fruitchip.Menu.Writing
import Fruitchip.Proofs.SectorCommands
import Fruitchip.Proofs.UpdateSafety

/-! The order in which an update is written. Its first sector is erased before
anything else is written and written after everything else, so that what is
there passes for an image only when it is one. -/

namespace Fruitchip.Menu
open Embedded Client Firmware Bootloader

def UpdateType.start : UpdateType → Nat
  | .fw => updatePartitionOffset
  | .apps => appsPartitionOffset

def UpdateType.size (config : Config) : UpdateType → Nat
  | .fw => updatePartitionSizeBytes
  | .apps => appsPartitionSizeBytes config.flashSize

def UpdateType.detects : UpdateType → Flash → Bool
  | .fw => isUpdateValid
  | .apps => appsPartitionDetect

variable {config : Config} {updateType : UpdateType} {update : Update} {modchip : Modchip}

theorem appsPartitionDetect_blank {flash : Flash}
    (blank : ∀ index < flashSectorSize, flash (appsPartitionOffset + index) = 0xFF) :
    appsPartitionDetect flash = false := by
  have first : (xipBytes flash appsPartitionAddr 4)[0]? = some 0xFF := by
    have address : (appsPartitionAddr + BitVec.ofNat 32 0 - xipBase).toNat = appsPartitionOffset + 0 := by decide
    rw [xipBytes, List.getElem?_map, List.getElem?_range (by decide), Option.map_some, xipByte, address,
      blank 0 (by decide)]
  have other : ¬ xipBytes flash appsPartitionAddr 4 = appsPartitionMagic1 := by
    intro magic
    rw [magic] at first
    exact absurd first (by decide)
  rw [appsPartitionDetect]
  exact if_pos other

theorem UpdateType.detects_blank {flash : Flash}
    (blank : ∀ index < flashSectorSize, flash (updateType.start + index) = 0xFF) : updateType.detects flash = false := by
  cases updateType with
  | fw => exact isUpdateValid_blank blank
  | apps => exact appsPartitionDetect_blank blank

theorem UpdateType.inside_flash (config : Config) (updateType : UpdateType) :
    updateType.start + updateType.size config ≤ 16777216 := by
  cases updateType with
  | fw => exact (by decide : updatePartitionOffset + updatePartitionSizeBytes ≤ 16777216)
  | apps =>
    show appsPartitionOffset + appsPartitionSizeBytes config.flashSize ≤ _
    cases config.flashSize <;> decide

theorem UpdateType.sector_fits (config : Config) (updateType : UpdateType) : 4096 ≤ updateType.size config := by
  cases updateType with
  | fw => exact (by decide : 4096 ≤ updatePartitionSizeBytes)
  | apps =>
    show _ ≤ appsPartitionSizeBytes config.flashSize
    cases config.flashSize <;> decide

theorem sectorAddr_target (sectorIdx : U32) :
    let sectorSize := BitVec.ofNat 32 flashSectorSize
    let base := BitVec.ofNat 32 updateType.start
    sectorAddr config updateType.partitionIdx sectorIdx = (base + sectorIdx * sectorSize,
      decide (base + sectorIdx * sectorSize + sectorSize < base + BitVec.ofNat 32 (updateType.size config))) := by
  cases updateType <;> rfl

theorem sector_place {offset : U32} (aligned : offset.toNat % 4096 = 0)
    (inside : offset.toNat ≤ updateType.size config) :
    sectorStart config updateType.partitionIdx (offset / BitVec.ofNat 32 flashSectorSize) =
        updateType.start + offset.toNat ∧
      ((sectorAddr config updateType.partitionIdx (offset / BitVec.ofNat 32 flashSectorSize)).2 = true ↔
        offset.toNat + 4096 < updateType.size config) := by
  have limit := UpdateType.inside_flash config updateType
  have sector : (BitVec.ofNat 32 flashSectorSize).toNat = 4096 := rfl
  have product : (offset / BitVec.ofNat 32 flashSectorSize * BitVec.ofNat 32 flashSectorSize).toNat = offset.toNat := by
    rw [BitVec.toNat_mul, BitVec.toNat_udiv, sector]
    omega
  have start : (BitVec.ofNat 32 updateType.start).toNat = updateType.start := by
    apply toNat_ofNat_of_lt
    omega
  have size : (BitVec.ofNat 32 (updateType.size config)).toNat = updateType.size config := by
    apply toNat_ofNat_of_lt
    omega
  rw [sectorStart, sectorAddr_target]
  dsimp only
  constructor
  · rw [BitVec.toNat_add, start, product]
    omega
  · rw [decide_eq_true_iff, BitVec.lt_def, BitVec.toNat_add, BitVec.toNat_add, BitVec.toNat_add, start, product,
      sector, size]
    omega

/-- The firmware has done what the frame asks for. -/
structure Attempt.Accepted (attempt : Attempt) : Prop where
  delivered : attempt.delivery ≠ .lost
  done : attempt.reply.isOk = true

/-- The menu knows it, too. -/
structure Attempt.Acknowledged (attempt : Attempt) : Prop where
  delivered : ∃ busy, attempt.delivery = .answered busy
  done : attempt.reply.isOk = true

theorem Attempt.Acknowledged.accepted {attempt : Attempt} (acknowledged : attempt.Acknowledged) : attempt.Accepted := by
  obtain ⟨busy, answered⟩ := acknowledged.delivered
  refine ⟨?_, acknowledged.done⟩
  intro lost
  rw [answered] at lost
  cases lost

/-- What sending a frame can come to. -/
inductive Sends (config : Config) (call : Call) (world : World) : Attempt → Prop
  | lost : Sends config call world ⟨call, .lost, .failed, world⟩
  | executed (delivery : Delivery) (busy : Nat) (received : delivery ≠ .lost) :
    Sends config call world
      ⟨call, delivery, (runAnswer config call world busy).2, (runAnswer config call world busy).1⟩

def Modchip.log (modchip : Modchip) (attempt : Attempt) : Modchip :=
  ⟨attempt.world, modchip.deliveries.tail, attempt :: modchip.history⟩

theorem Modchip.send_cases (config : Config) (call : Call) (modchip : Modchip) :
    ∃ attempt, Sends config call modchip.world attempt ∧ (modchip.send config call).2 = modchip.log attempt ∧
      ((modchip.send config call).1.isOk = true ↔ attempt.Acknowledged) ∧
      ((modchip.send config call).1 = .failed ∨ (modchip.send config call).1 = attempt.reply) := by
  have unheard {attempt : Attempt} (silent : ∀ busy, attempt.delivery ≠ .answered busy) :
      Reply.failed.isOk = true ↔ attempt.Acknowledged := by
    refine ⟨nofun, ?_⟩
    intro acknowledged
    obtain ⟨busy, answered⟩ := acknowledged.delivered
    exact False.elim (silent busy answered)
  unfold Modchip.send
  dsimp only
  split
  · exact ⟨_, .lost, rfl, unheard nofun, .inl rfl⟩
  · exact ⟨_, .lost, rfl, unheard nofun, .inl rfl⟩
  · exact ⟨_, .executed .unanswered 0 nofun, rfl, unheard nofun, .inl rfl⟩
  next busy _ =>
    refine ⟨_, .executed (.answered busy) busy nofun, rfl, ⟨fun done => ⟨⟨busy, rfl⟩, done⟩, fun heard => heard.done⟩,
      .inr rfl⟩

/-- A call with retries, one attempt at a time. -/
theorem Modchip.sendWithRetry_leads {before after : Modchip → Prop} {call : Call}
    (attempted : ∀ modchip attempt, before modchip → Sends config call modchip.world attempt →
      (attempt.Acknowledged → after (modchip.log attempt)) ∧ (¬ attempt.Acknowledged → before (modchip.log attempt)))
    {modchip : Modchip} (start : before modchip) : Leads before after (modchip.sendWithRetry config call) := by
  refine withRetry_leads (fun _ modchip holds => ?_) modchipCmdRetries 0 start
  obtain ⟨attempt, sends, next, heard, _⟩ := modchip.send_cases config call
  obtain ⟨acknowledged, unheard⟩ := attempted modchip attempt holds sends
  constructor
  · intro done
    show after (modchip.send config call).2
    rw [next]
    exact acknowledged (heard.mp done)
  · intro failed
    show before (modchip.send config call).2
    rw [next]
    exact unheard fun known => failed (heard.mpr known)

theorem Sends.call {call : Call} {world : World} {attempt : Attempt} (sends : Sends config call world attempt) :
    attempt.call = call := by
  cases sends <;> rfl

theorem runAnswer_finishes {call : Call} {world next : World} {statusCode : U32} (slow : call.peek = peekBusy)
    (finishes : Finishes (runCall config call world) next statusCode) (final : statusCode ≠ modchipCmdResultBusy)
    (busy : Nat) :
    runAnswer config call world busy = (next, if statusCode = modchipCmdResultOk then .ok else .failed) := by
  rw [runAnswer, slow]
  dsimp only
  rw [finishes.reply final, finishes.world]
  rfl

/-- A sector command changes its own sector if it is accepted, and nothing otherwise. -/
structure Changes (config : Config) (updateType : UpdateType) (sectorIdx : U32) (bytes : List U8) (world : World)
    (attempt : Attempt) : Prop where
  accepts : Accepts config world updateType.partitionIdx sectorIdx
  sector : attempt.world.flash.read (sectorStart config updateType.partitionIdx sectorIdx) flashSectorSize = bytes
  outside : ∀ address, address < sectorStart config updateType.partitionIdx sectorIdx ∨
    sectorStart config updateType.partitionIdx sectorIdx + flashSectorSize ≤ address →
    attempt.world.flash address = world.flash address

theorem Sends.write {sectorIdx : U32} {sector : Sector} {world : World} {attempt : Attempt}
    (sends : Sends config (.writeFlashSector updateType.partitionIdx sectorIdx sector) world attempt) :
    ¬ attempt.Accepted ∧ attempt.world.flash = world.flash ∨
      attempt.Accepted ∧ Changes config updateType sectorIdx sector.bytes world attempt := by
  cases sends with
  | lost => exact .inl ⟨fun accepted => accepted.delivered rfl, rfl⟩
  | executed delivery busy received =>
    by_cases accepts : Accepts config world updateType.partitionIdx sectorIdx
    · obtain ⟨flash, finishes, bytes, outside⟩ := write_accepted accepts sector
      rw [runAnswer_finishes rfl finishes (by decide)]
      exact .inr ⟨⟨received, rfl⟩, accepts, bytes, outside⟩
    · rw [runAnswer_finishes rfl (write_refused accepts sector) (by decide)]
      exact .inl ⟨fun accepted => Bool.false_ne_true accepted.done, rfl⟩

theorem Sends.erase {sectorIdx : U32} {world : World} {attempt : Attempt}
    (sends : Sends config (.eraseFlashSector updateType.partitionIdx sectorIdx 1) world attempt) :
    ¬ attempt.Accepted ∧ attempt.world.flash = world.flash ∨
      attempt.Accepted ∧ Accepts config world updateType.partitionIdx sectorIdx ∧ ∀ index < flashSectorSize,
        attempt.world.flash (sectorStart config updateType.partitionIdx sectorIdx + index) = 0xFF := by
  cases sends with
  | lost => exact .inl ⟨fun accepted => accepted.delivered rfl, rfl⟩
  | executed delivery busy received =>
    by_cases accepts : Accepts config world updateType.partitionIdx sectorIdx
    · obtain ⟨flash, finishes, blank, _⟩ := erase_accepted accepts
      rw [runAnswer_finishes rfl finishes (by decide)]
      exact .inr ⟨⟨received, rfl⟩, accepts, blank⟩
    · rw [runAnswer_finishes rfl (erase_refused accepts 1) (by decide)]
      exact .inl ⟨fun accepted => Bool.false_ne_true accepted.done, rfl⟩

theorem Sends.lock {lock : Bool} {world : World} {attempt : Attempt}
    (sends : Sends config (.setWriteLock lock) world attempt) : attempt.world.flash = world.flash := by
  cases sends with
  | lost => rfl
  | executed delivery busy received =>
    simp only [runAnswer, runCall, writeLockBody]
    split <;> rfl

theorem Sends.sectorSize {world : World} {attempt : Attempt}
    (sends : Sends config .getFlashSectorSize world attempt) :
    attempt.world.flash = world.flash ∧
      (attempt.reply = .failed ∨ attempt.reply = .data (bytes32 (BitVec.ofNat 32 flashSectorSize))) := by
  cases sends with
  | lost => exact ⟨rfl, .inl rfl⟩
  | executed delivery busy received =>
    have sent := @peekChecked_word config world (BitVec.ofNat 32 flashSectorSize) world.flash busy (.placeholder, 0)
    exact ⟨rfl, .inr (congrArg (fun read => (read.map (·.1)).getD .failed) sent)⟩

def FirstErased (updateType : UpdateType) (past : List Attempt) : Prop :=
  ∃ attempt ∈ past, attempt.call = .eraseFlashSector updateType.partitionIdx 0 1 ∧ attempt.Acknowledged

def FirstWritten (updateType : UpdateType) (past : List Attempt) : Prop :=
  ∃ attempt ∈ past, (∃ sector, attempt.call = .writeFlashSector updateType.partitionIdx 0 sector) ∧ attempt.Accepted

def FirstBlank (updateType : UpdateType) (flash : Flash) : Prop :=
  ∀ index < flashSectorSize, flash (updateType.start + index) = 0xFF

def OthersWritten (updateType : UpdateType) (update : Update) (flash : Flash) : Prop :=
  ∀ index, flashSectorSize ≤ index → index / flashSectorSize * flashSectorSize < update.size.toNat →
    flash (updateType.start + index) = update.byte index

/-- What can be said at any moment, from what has happened so far. -/
structure Ordered (updateType : UpdateType) (update : Update) (past : List Attempt) (flash : Flash) : Prop where
  unfinished : FirstErased updateType past → ¬ FirstWritten updateType past →
    FirstBlank updateType flash ∧ updateType.detects flash = false
  finished : FirstErased updateType past → updateType.detects flash = true → OthersWritten updateType update flash

/-- How far the update has come. -/
inductive Phase (updateType : UpdateType) (update : Update) (past : List Attempt) (flash : Flash) : Prop
  | waiting (unsure : ¬ FirstErased updateType past)
  | cleared (blank : FirstBlank updateType flash)
  | finished (written : FirstWritten updateType past) (others : OthersWritten updateType update flash)

theorem Phase.ordered {past : List Attempt} {flash : Flash} (phase : Phase updateType update past flash) :
    Ordered updateType update past flash := by
  cases phase with
  | waiting unsure => exact ⟨fun erased => False.elim (unsure erased), fun erased => False.elim (unsure erased)⟩
  | cleared blank =>
    have undetected := UpdateType.detects_blank blank
    refine ⟨fun _ _ => ⟨blank, undetected⟩, fun _ detected => ?_⟩
    rw [undetected] at detected
    cases detected
  | finished written others => exact ⟨fun _ unwritten => False.elim (unwritten written), fun _ _ => others⟩

def flashAfter (start : Flash) : List Attempt → Flash
  | [] => start
  | attempt :: _ => attempt.world.flash

/-- All that has happened so far was in order. -/
structure Safe (start : Flash) (updateType : UpdateType) (update : Update) (modchip : Modchip) : Prop where
  now : modchip.world.flash = flashAfter start modchip.history
  always : ∀ later earlier, modchip.history = later ++ earlier →
    Phase updateType update earlier (flashAfter start earlier)

variable {start : Flash}

theorem Safe.phase (safe : Safe start updateType update modchip) :
    Phase updateType update modchip.history modchip.world.flash := by
  rw [safe.now]
  exact safe.always [] _ rfl

theorem Safe.log (safe : Safe start updateType update modchip) {attempt : Attempt}
    (phase : Phase updateType update (attempt :: modchip.history) attempt.world.flash) :
    Safe start updateType update (modchip.log attempt) := by
  refine ⟨rfl, ?_⟩
  intro later earlier split
  cases later with
  | nil =>
    obtain rfl : attempt :: modchip.history = earlier := split
    exact phase
  | cons latest later => exact safe.always later earlier (List.cons.inj split).2

structure Waiting (start : Flash) (updateType : UpdateType) (update : Update) (modchip : Modchip) : Prop where
  safe : Safe start updateType update modchip
  unsure : ¬ FirstErased updateType modchip.history

/-- The first sector is blank, and the others are written up to an offset. -/
structure Cleared (start : Flash) (updateType : UpdateType) (update : Update) (offset : Nat) (modchip : Modchip) :
    Prop where
  safe : Safe start updateType update modchip
  blank : FirstBlank updateType modchip.world.flash
  written : ∀ index, flashSectorSize ≤ index → index < offset →
    modchip.world.flash (updateType.start + index) = update.byte index

theorem Waiting.other (waiting : Waiting start updateType update modchip) {attempt : Attempt}
    (other : attempt.call = .eraseFlashSector updateType.partitionIdx 0 1 → ¬ attempt.Acknowledged) :
    Waiting start updateType update (modchip.log attempt) := by
  have unsure : ¬ FirstErased updateType (attempt :: modchip.history) := by
    rintro ⟨earlier, member, call, acknowledged⟩
    rcases List.mem_cons.mp member with rfl | member
    · exact other call acknowledged
    · exact waiting.unsure ⟨earlier, member, call, acknowledged⟩
  exact ⟨waiting.safe.log (.waiting unsure), unsure⟩

theorem Waiting.erase (waiting : Waiting start updateType update modchip) {attempt : Attempt}
    (sends : Sends config (.eraseFlashSector updateType.partitionIdx 0 1) modchip.world attempt)
    (acknowledged : attempt.Acknowledged) : Cleared start updateType update flashSectorSize (modchip.log attempt) := by
  rcases sends.erase with ⟨refused, _⟩ | ⟨_, _, erased⟩
  · exact False.elim (refused acknowledged.accepted)
  · have place := (@sector_place config updateType 0 rfl (Nat.zero_le _)).1
    have blank : FirstBlank updateType attempt.world.flash := by
      intro index inside
      have byte := erased index inside
      rw [show (0 : U32) = 0 / BitVec.ofNat 32 flashSectorSize from rfl, place] at byte
      exact byte
    exact ⟨waiting.safe.log (.cleared blank), blank, fun index low high => absurd low (Nat.not_le_of_lt high)⟩

theorem Cleared.same {offset : Nat} (cleared : Cleared start updateType update offset modchip) {attempt : Attempt}
    (same : attempt.world.flash = modchip.world.flash) :
    Cleared start updateType update offset (modchip.log attempt) := by
  have blank : FirstBlank updateType attempt.world.flash := by
    rw [same]
    exact cleared.blank
  refine ⟨cleared.safe.log (.cleared blank), blank, ?_⟩
  show ∀ index, _ → _ → attempt.world.flash _ = _
  rw [same]
  exact cleared.written

theorem updateSector_bytes (offset : U32) :
    updateSector update offset (BitVec.ofNat 32 flashSectorSize) =
      (List.range flashSectorSize).map fun index => update.byte (offset.toNat + index) := by
  have sector : (BitVec.ofNat 32 flashSectorSize).toNat = flashSectorSize := rfl
  rw [updateSector, updateSectorReads, sector, memcpy, List.map_map, List.length_map, List.length_range,
    List.drop_eq_nil_of_le, List.append_nil]
  · rfl
  · split <;> exact Nat.le_of_eq List.length_replicate

theorem Changes.bytes {offset : U32} {world : World} {attempt : Attempt}
    (changes : Changes config updateType (offset / BitVec.ofNat 32 flashSectorSize)
      (updateSector update offset (BitVec.ofNat 32 flashSectorSize)) world attempt)
    (aligned : offset.toNat % 4096 = 0) (inside : offset.toNat ≤ updateType.size config) :
    offset.toNat + 4096 < updateType.size config ∧
      (∀ index < 4096, attempt.world.flash (updateType.start + (offset.toNat + index)) =
        update.byte (offset.toNat + index)) ∧
      ∀ index, index < offset.toNat ∨ offset.toNat + 4096 ≤ index →
        attempt.world.flash (updateType.start + index) = world.flash (updateType.start + index) := by
  obtain ⟨place, fits⟩ := sector_place aligned inside
  have sector := changes.sector
  have outside := changes.outside
  rw [place, updateSector_bytes, Flash.read, List.map_inj_left] at sector
  rw [place] at outside
  refine ⟨fits.mp changes.accepts.valid, ?_, fun index apart => outside _ ?_⟩
  · intro index within
    rw [← Nat.add_assoc]
    exact sector index (List.mem_range.mpr within)
  · have size : flashSectorSize = 4096 := rfl
    omega

theorem Cleared.write {offset : U32} (cleared : Cleared start updateType update offset.toNat modchip)
    (aligned : offset.toNat % 4096 = 0) (behind : 4096 ≤ offset.toNat) (inside : offset.toNat ≤ updateType.size config)
    {sector : Sector} (bytes : sector.bytes = updateSector update offset (BitVec.ofNat 32 flashSectorSize))
    {attempt : Attempt} (sends : Sends config
      (.writeFlashSector updateType.partitionIdx (offset / BitVec.ofNat 32 flashSectorSize) sector)
      modchip.world attempt) :
    Cleared start updateType update offset.toNat (modchip.log attempt) ∧
      (attempt.Accepted → offset.toNat + 4096 < updateType.size config ∧
        Cleared start updateType update (offset.toNat + 4096) (modchip.log attempt)) := by
  rcases sends.write with ⟨refused, same⟩ | ⟨_, changes⟩
  · exact ⟨cleared.same same, fun accepted => False.elim (refused accepted)⟩
  · rw [bytes] at changes
    obtain ⟨fits, sector, outside⟩ := changes.bytes aligned inside
    have blank : FirstBlank updateType attempt.world.flash := by
      intro index within
      have first : index < 4096 := within
      rw [outside index (.inl (by omega))]
      exact cleared.blank index within
    have written (index : Nat) (low : flashSectorSize ≤ index) (high : index < offset.toNat + 4096) :
        attempt.world.flash (updateType.start + index) = update.byte index := by
      rcases Nat.lt_or_ge index offset.toNat with before | here
      · rw [outside index (.inl before)]
        exact cleared.written index low before
      · obtain ⟨rest, rfl⟩ := Nat.exists_eq_add_of_le here
        exact sector rest (by omega)
    have safe := cleared.safe.log (.cleared blank)
    exact ⟨⟨safe, blank, fun index low high => written index low (by omega)⟩, fun _ => ⟨fits, safe, blank, written⟩⟩

/-- The first sector may or may not be written. The others are. -/
structure Closing (start : Flash) (updateType : UpdateType) (update : Update) (modchip : Modchip) : Prop where
  safe : Safe start updateType update modchip
  others : OthersWritten updateType update modchip.world.flash
  first : FirstBlank updateType modchip.world.flash ∨ FirstWritten updateType modchip.history

theorem Closing.write (closing : Closing start updateType update modchip) {sector : Sector}
    (bytes : sector.bytes = updateSector update 0 (BitVec.ofNat 32 flashSectorSize)) {attempt : Attempt}
    (sends : Sends config (.writeFlashSector updateType.partitionIdx 0 sector) modchip.world attempt) :
    Closing start updateType update (modchip.log attempt) := by
  have later (written : FirstWritten updateType modchip.history) :
      FirstWritten updateType (attempt :: modchip.history) := by
    obtain ⟨earlier, member, call⟩ := written
    exact ⟨earlier, List.mem_cons_of_mem _ member, call⟩
  have call := sends.call
  rcases sends.write with ⟨_, same⟩ | ⟨accepted, changes⟩
  · have others : OthersWritten updateType update attempt.world.flash := by
      rw [same]
      exact closing.others
    rcases closing.first with blank | written
    · have blank : FirstBlank updateType attempt.world.flash := by
        rw [same]
        exact blank
      exact ⟨closing.safe.log (.cleared blank), others, .inl blank⟩
    · exact ⟨closing.safe.log (.finished (later written) others), others, .inr (later written)⟩
  · rw [bytes] at changes
    obtain ⟨_, _, outside⟩ := @Changes.bytes config updateType update 0 _ _ changes rfl (Nat.zero_le _)
    have others : OthersWritten updateType update attempt.world.flash := by
      intro index low inside
      rw [outside index (.inr low)]
      exact closing.others index low inside
    have written : FirstWritten updateType (attempt :: modchip.history) :=
      ⟨attempt, List.mem_cons_self, ⟨sector, call⟩, accepted⟩
    exact ⟨closing.safe.log (.finished written others), others, .inr written⟩

/-- Nothing but the flash of the modchip matters to the lock. -/
theorem Safe.lock (safe : Safe start updateType update modchip) {lock : Bool} {attempt : Attempt}
    (sends : Sends config (.setWriteLock lock) modchip.world attempt) :
    Safe start updateType update (modchip.log attempt) := by
  apply safe.log
  have call := sends.call
  rw [sends.lock]
  cases safe.phase with
  | waiting unsure =>
    refine .waiting ?_
    rintro ⟨earlier, member, erase, acknowledged⟩
    rcases List.mem_cons.mp member with rfl | member
    · cases call.symm.trans erase
    · exact unsure ⟨earlier, member, erase, acknowledged⟩
  | cleared blank => exact .cleared blank
  | finished written others =>
    obtain ⟨earlier, member, first⟩ := written
    exact .finished ⟨earlier, List.mem_cons_of_mem _ member, first⟩ others

theorem writeUpdateSector_leads {before after : Modchip → Prop} {offset : U32}
    (attempted : ∀ modchip attempt (sector : Sector), before modchip →
      sector.bytes = updateSector update offset (BitVec.ofNat 32 flashSectorSize) →
      Sends config (.writeFlashSector updateType.partitionIdx (offset / BitVec.ofNat 32 flashSectorSize) sector)
        modchip.world attempt →
      (attempt.Acknowledged → after (modchip.log attempt)) ∧ (¬ attempt.Acknowledged → before (modchip.log attempt)))
    (start : before modchip) : Leads before after
      (writeUpdateSector config updateType.partitionIdx update offset (BitVec.ofNat 32 flashSectorSize) modchip) := by
  have whole : (updateSector update offset (BitVec.ofNat 32 flashSectorSize)).length = flashSectorSize := by
    rw [updateSector_bytes, List.length_map, List.length_range]
  rw [writeUpdateSector_whole config updateType.partitionIdx whole]
  exact Modchip.sendWithRetry_leads
    (fun modchip attempt holds sends => attempted modchip attempt ⟨_, whole⟩ holds rfl sends) start

theorem writeUpdateSector_cleared {offset : U32} (aligned : offset.toNat % 4096 = 0) (behind : 4096 ≤ offset.toNat)
    (inside : offset.toNat ≤ updateType.size config)
    (cleared : Cleared start updateType update offset.toNat modchip) :
    Leads (Cleared start updateType update offset.toNat)
      (fun next => offset.toNat + 4096 < updateType.size config ∧
        Cleared start updateType update (offset.toNat + 4096) next)
      (writeUpdateSector config updateType.partitionIdx update offset (BitVec.ofNat 32 flashSectorSize) modchip) := by
  refine writeUpdateSector_leads (fun modchip attempt sector cleared bytes sends => ?_) cleared
  obtain ⟨still, written⟩ := cleared.write aligned behind inside bytes sends
  exact ⟨fun acknowledged => written acknowledged.accepted, fun _ => still⟩

theorem writeSectors_leads {currentOffset : U32} (aligned : currentOffset.toNat % 4096 = 0)
    (behind : 4096 ≤ currentOffset.toNat) (inside : currentOffset.toNat ≤ updateType.size config)
    (cleared : Cleared start updateType update currentOffset.toNat modchip) :
    Leads (Safe start updateType update) (Closing start updateType update)
      (writeSectors config updateType.partitionIdx update (BitVec.ofNat 32 flashSectorSize) currentOffset modchip) := by
  induction currentOffset, modchip using writeSectors.induct config updateType.partitionIdx update
    (BitVec.ofNat 32 flashSectorSize) with
  | case1 offset modchip more written ih =>
    have step := (writeUpdateSector_cleared aligned behind inside cleared).succeeded written
    obtain ⟨fits, next⟩ := step
    have limit := UpdateType.inside_flash config updateType
    have moved : (offset + BitVec.ofNat 32 flashSectorSize).toNat = offset.toNat + 4096 := by
      rw [BitVec.toNat_add, show (BitVec.ofNat 32 flashSectorSize).toNat = 4096 from rfl]
      omega
    rw [writeSectors, if_pos more, if_pos written]
    rw [moved] at ih
    exact ih (by omega) (by omega) (by omega) next
  | case2 offset modchip more failed =>
    have step := (writeUpdateSector_cleared aligned behind inside cleared).failed failed
    rw [writeSectors, if_pos more, if_neg failed]
    exact ⟨fun written => False.elim (failed written), fun _ => step.safe⟩
  | case3 offset modchip finished =>
    rw [writeSectors, if_neg finished]
    refine ⟨fun _ => ⟨cleared.safe, fun index low below => cleared.written index low ?_, .inl cleared.blank⟩,
      fun failed => False.elim (failed rfl)⟩
    have size : index / flashSectorSize * flashSectorSize = index / 4096 * 4096 := rfl
    have reached : update.size.toNat ≤ offset.toNat := Nat.le_of_not_lt finished
    omega

/-- The sector size comes from the modchip, whose flash stays as it is. -/
theorem getFlashSectorSize_leads {before : Modchip → Prop}
    (kept : ∀ modchip attempt, before modchip → attempt.world.flash = modchip.world.flash →
      before (modchip.log attempt)) (start : before modchip) (sectorSize : U32) :
    Leads (fun next => before next.1) (fun next => before next.1 ∧ next.2 = BitVec.ofNat 32 flashSectorSize)
      (modchip.getFlashSectorSizeWithRetry config sectorSize) := by
  refine @withRetry_leads (Modchip × U32) (fun next => before next.1) _ _
    (fun _ state holds => ?_) modchipCmdRetries 0 (modchip, sectorSize) start
  obtain ⟨modchip, sectorSize⟩ := state
  obtain ⟨attempt, sends, next, _, reply⟩ := modchip.send_cases config .getFlashSectorSize
  obtain ⟨same, answer⟩ := sends.sectorSize
  have still : before (modchip.send config .getFlashSectorSize).2 := by
    rw [next]
    exact kept modchip attempt holds same
  have outcome : (modchip.send config .getFlashSectorSize).1 = .failed ∨
      (modchip.send config .getFlashSectorSize).1 = .data (bytes32 (BitVec.ofNat 32 flashSectorSize)) := by
    rcases reply with silent | heard
    · exact .inl silent
    · rw [heard]
      exact answer
  rcases outcome with silent | word
  · simp only [silent]
    exact ⟨nofun, fun _ => still⟩
  · have size : wordOf (bytes32 (BitVec.ofNat 32 flashSectorSize)) 0 = BitVec.ofNat 32 flashSectorSize := by decide
    simp only [word]
    exact ⟨fun _ => ⟨still, size⟩, fun failed => False.elim (failed rfl)⟩

theorem unlock_leads (waiting : Waiting start updateType update modchip) :
    Leads (Waiting start updateType update) (Waiting start updateType update)
      (modchip.sendWithRetry config (.setWriteLock false)) := by
  refine Modchip.sendWithRetry_leads (fun modchip attempt waiting sends => ?_) waiting
  have still := waiting.other (fun erase => by cases sends.call.symm.trans erase)
  exact ⟨fun _ => still, fun _ => still⟩

theorem erase_leads (waiting : Waiting start updateType update modchip) :
    Leads (Waiting start updateType update) (Cleared start updateType update flashSectorSize)
      (modchip.sendWithRetry config (.eraseFlashSector updateType.partitionIdx 0 1)) := by
  refine Modchip.sendWithRetry_leads (fun modchip attempt waiting sends => ?_) waiting
  exact ⟨waiting.erase sends, fun unheard => waiting.other fun _ => unheard⟩

theorem writeFirst_leads (closing : Closing start updateType update modchip) :
    Leads (Closing start updateType update) (Closing start updateType update)
      (writeUpdateSector config updateType.partitionIdx update 0 (BitVec.ofNat 32 flashSectorSize) modchip) := by
  refine writeUpdateSector_leads (fun modchip attempt sector closing bytes sends => ?_) closing
  have still := closing.write bytes sends
  exact ⟨fun _ => still, fun _ => still⟩

/-- Whatever gets lost, all that happens is in order. -/
theorem writeUpdate_safe (waiting : Waiting start updateType update modchip) :
    Safe start updateType update (writeUpdate config updateType.partitionIdx update modchip).2 := by
  have unlock := @unlock_leads config _ _ _ _ waiting
  unfold writeUpdate
  dsimp only
  split
  next failed => exact (unlock.failed failed).safe
  next unlocked =>
  have erase := @erase_leads config _ _ _ _ (unlock.succeeded (Decidable.not_not.mp unlocked))
  split
  next failed => exact (erase.failed failed).safe
  next erased =>
  have cleared := erase.succeeded (Decidable.not_not.mp erased)
  have sectorSize := @getFlashSectorSize_leads config _ _ (fun _ _ cleared same => cleared.same same) cleared 0
  split
  next failed => exact (sectorSize.failed failed).safe
  next known =>
  obtain ⟨cleared, size⟩ := sectorSize.succeeded (Decidable.not_not.mp known)
  have sectors := @writeSectors_leads config _ _ _ _ (BitVec.ofNat 32 flashSectorSize) rfl (Nat.le_refl 4096)
    (UpdateType.sector_fits config updateType) cleared
  rw [size]
  split
  next failed =>
    dsimp only
    exact sectors.failed failed
  next written =>
  have closing := sectors.succeeded (Decidable.not_not.mp written)
  have first := @writeFirst_leads config _ _ _ _ closing
  split
  next failed =>
    dsimp only
    exact (first.failed failed).safe
  next written =>
    dsimp only
    exact (first.succeeded (Decidable.not_not.mp written)).safe

/-- The first sector is blank from its erase on until the rest is written, and
the image is detected only with all of its sectors. -/
theorem update_ordered (config : Config) (updateType : UpdateType) (update : Update) (world : World)
    (deliveries : List Delivery) :
    let modchip := (sceneTickHandlerUpdateWriting config updateType update ⟨world, deliveries, []⟩).2
    ∀ later earlier, modchip.history = later ++ earlier →
      Ordered updateType update earlier (flashAfter world.flash earlier) := by
  intro modchip later earlier split
  have unsure : ¬ FirstErased updateType ([] : List Attempt) := by
    rintro ⟨attempt, member, _⟩
    cases member
  have safe : Safe world.flash updateType update ⟨world, deliveries, []⟩ := by
    refine ⟨rfl, fun later earlier split => .waiting ?_⟩
    rw [(List.append_eq_nil_iff.mp split.symm).2]
    exact unsure
  have written := @writeUpdate_safe config updateType update _ _ ⟨safe, unsure⟩
  have lock : Leads (Safe world.flash updateType update) (Safe world.flash updateType update)
      ((writeUpdate config updateType.partitionIdx update ⟨world, deliveries, []⟩).2.sendWithRetry config
        (.setWriteLock true)) := by
    refine Modchip.sendWithRetry_leads (fun modchip attempt safe sends => ?_) written
    exact ⟨fun _ => safe.lock sends, fun _ => safe.lock sends⟩
  have final : Safe world.flash updateType update modchip := by
    by_cases done : ((writeUpdate config updateType.partitionIdx update ⟨world, deliveries, []⟩).2.sendWithRetry config
        (.setWriteLock true)).1 = true
    · exact lock.succeeded done
    · exact lock.failed done
  exact (final.always later earlier split).ordered

end Fruitchip.Menu
