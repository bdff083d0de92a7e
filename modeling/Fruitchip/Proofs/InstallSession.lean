import Fruitchip.PowerCycles
import Fruitchip.Proofs.SettingsPlace
import Fruitchip.Proofs.UpdateResult

/-! The frames of an update. Whatever is lost and whichever frame power is lost
in, they keep to the partition of the update, and if the menu gets to its reboot
the partition holds all of the image. -/

namespace Fruitchip.Menu
open Embedded Client Firmware

variable {config : Config} {updateType : UpdateType} {update : Update} {modchip : Modchip} {world : World} {call : Call}

/-- The frames that an update is written with. -/
def Sendable (config : Config) (updateType : UpdateType) : Call → Prop
  | .setWriteLock _ | .getFlashSectorSize => True
  | .eraseFlashSector partitionIdx sectorIdx sectorCount =>
    partitionIdx = updateType.partitionIdx ∧ sectorIdx = 0 ∧ sectorCount = 1
  | .writeFlashSector partitionIdx sectorIdx _ =>
    partitionIdx = updateType.partitionIdx ∧ sectorIdx.toNat * 4096 ≤ updateType.size config
  | _ => False

/-- `holds` of the modchip as long as only these frames are sent. -/
def Kept (config : Config) (updateType : UpdateType) (holds : Modchip → Prop) : Prop :=
  ∀ modchip attempt call, holds modchip → Sendable config updateType call → Sends config call modchip.world attempt →
    holds (modchip.log attempt)

variable {holds : Modchip → Prop}

theorem sendWithRetry_keeps (kept : ∀ modchip attempt, holds modchip → Sends config call modchip.world attempt →
    holds (modchip.log attempt)) (start : holds modchip) : holds (modchip.sendWithRetry config call).2 := by
  refine withRetry_preserves (fun _ modchip now => ?_) modchipCmdRetries 0 start
  obtain ⟨attempt, sends, next, _⟩ := modchip.send_cases config call
  show holds (modchip.send config call).2
  rw [next]
  exact kept modchip attempt now sends

theorem Kept.send (kept : Kept config updateType holds) (sendable : Sendable config updateType call)
    (start : holds modchip) : holds (modchip.sendWithRetry config call).2 :=
  sendWithRetry_keeps (fun modchip attempt now => kept modchip attempt call now sendable) start

theorem Kept.ask (kept : Kept config updateType holds) (start : holds modchip) (sectorSize : U32) :
    holds (modchip.getFlashSectorSizeWithRetry config sectorSize).2.1 := by
  refine @withRetry_preserves (Modchip × U32) (fun next => holds next.1) _ (fun _ state now => ?_) modchipCmdRetries 0
    (modchip, sectorSize) start
  obtain ⟨modchip, sectorSize⟩ := state
  obtain ⟨attempt, sends, next, _⟩ := modchip.send_cases config .getFlashSectorSize
  have still : holds (modchip.send config .getFlashSectorSize).2 := by
    rw [next]
    exact kept modchip attempt .getFlashSectorSize now trivial sends
  dsimp only
  split <;> exact still

theorem Kept.writeSector (kept : Kept config updateType holds) {offset : U32} (aligned : offset.toNat % 4096 = 0)
    (inside : offset.toNat ≤ updateType.size config) (start : holds modchip) :
    Leads holds (fun next => holds next ∧ offset.toNat + 4096 < updateType.size config)
      (writeUpdateSector config updateType.partitionIdx update offset (BitVec.ofNat 32 flashSectorSize) modchip) := by
  refine writeUpdateSector_leads (fun modchip attempt sector now _ sends => ?_) start
  have sendable : Sendable config updateType
      (.writeFlashSector updateType.partitionIdx (offset / BitVec.ofNat 32 flashSectorSize) sector) := by
    refine ⟨rfl, ?_⟩
    have index := aligned_index aligned
    rw [show flashSectorSize = 4096 from rfl] at index
    exact Nat.le_trans (Nat.le_of_eq index) inside
  have next := kept modchip attempt _ now sendable sends
  refine ⟨fun acknowledged => ⟨next, ?_⟩, fun _ => next⟩
  rcases sends.write with ⟨refused, _⟩ | ⟨_, changes⟩
  · exact absurd acknowledged.accepted refused
  · exact (sector_place aligned inside).2.mp changes.accepts.valid

theorem Kept.loop (kept : Kept config updateType holds) {currentOffset : U32} (aligned : currentOffset.toNat % 4096 = 0)
    (inside : currentOffset.toNat ≤ updateType.size config) (start : holds modchip) :
    holds (writeSectors config updateType.partitionIdx update (BitVec.ofNat 32 flashSectorSize) currentOffset modchip).2 := by
  induction currentOffset, modchip using writeSectors.induct config updateType.partitionIdx update
    (BitVec.ofNat 32 flashSectorSize) with
  | case1 offset modchip more written ih =>
    obtain ⟨next, fits⟩ := (kept.writeSector aligned inside start).succeeded written
    have limit := UpdateType.inside_flash config updateType
    have moved : (offset + BitVec.ofNat 32 flashSectorSize).toNat = offset.toNat + 4096 := by
      rw [BitVec.toNat_add, show (BitVec.ofNat 32 flashSectorSize).toNat = 4096 from rfl]
      omega
    rw [writeSectors, if_pos more, if_pos written]
    rw [moved] at ih
    exact ih (by omega) (by omega) next
  | case2 offset modchip more failed =>
    rw [writeSectors, if_pos more, if_neg failed]
    exact (kept.writeSector aligned inside start).failed failed
  | case3 offset modchip finished =>
    rw [writeSectors, if_neg finished]
    exact start

/-- The rule for the writing scene: what every frame keeps holds at its end. -/
theorem Kept.write (kept : Kept config updateType holds) (start : holds modchip) :
    holds (writeUpdate config updateType.partitionIdx update modchip).2 := by
  unfold writeUpdate
  dsimp only
  have unlocked := @Kept.send config updateType _ (.setWriteLock false) _ kept trivial start
  split
  · exact unlocked
  have erased := @Kept.send config updateType _ (.eraseFlashSector updateType.partitionIdx 0 1) _ kept ⟨rfl, rfl, rfl⟩ unlocked
  split
  · exact erased
  have asked := kept.ask erased 0
  split
  · exact asked
  next known =>
  obtain ⟨_, size⟩ := (@getFlashSectorSize_leads config _ (fun _ => True) (fun _ _ _ _ => trivial) trivial 0).succeeded
    (Decidable.not_not.mp known)
  rw [size]
  have looped := @Kept.loop config updateType update _ _ kept (BitVec.ofNat 32 flashSectorSize) rfl
    (UpdateType.sector_fits config updateType) asked
  split
  · exact looped
  have first := @Kept.writeSector config updateType update _ _ kept 0 rfl (Nat.zero_le _) looped
  split
  next failed =>
    dsimp only
    exact first.failed failed
  next written =>
    dsimp only
    exact (first.succeeded (Decidable.not_not.mp written)).1

theorem Kept.scene (kept : Kept config updateType holds) (start : holds modchip) :
    holds (sceneTickHandlerUpdateWriting config updateType update modchip).2 :=
  kept.send trivial (kept.write start)

theorem Kept.install (kept : Kept config updateType holds) (rebooted : ∀ modchip attempt, holds modchip →
    Sends config (.reboot updateType.rebootMode) modchip.world attempt → holds (modchip.log attempt))
    (start : holds modchip) : holds (installUpdate config updateType update modchip) := by
  have written := @Kept.scene config updateType update _ _ kept start
  rw [installUpdate]
  split
  next next found =>
    rw [found] at written
    exact sendWithRetry_keeps rebooted written
  next message next found =>
    rw [found] at written
    exact written

def Apart (config : Config) (updateType : UpdateType) (address : Nat) : Prop :=
  address < updateType.start ∨ updateType.start + updateType.size config ≤ address

theorem partitionBounds_target :
    partitionBounds config updateType.partitionIdx = some (updateType.start, updateType.size config) := by
  cases updateType <;> rfl

theorem apart_partition {address : Nat} (apart : Apart config updateType address) :
    ¬ InPartition config updateType.partitionIdx address := by
  rintro ⟨base, size, bounds, low, high⟩
  rw [partitionBounds_target] at bounds
  cases bounds
  rcases apart with before | behind
  · omega
  · omega

theorem sector_inside {sectorIdx : U32} (below : sectorIdx.toNat * 4096 ≤ updateType.size config)
    (valid : (sectorAddr config updateType.partitionIdx sectorIdx).2 = true) :
    sectorOffset sectorIdx + 4096 ≤ updateType.size config := by
  have limit := UpdateType.inside_flash config updateType
  have sector : (BitVec.ofNat 32 flashSectorSize).toNat = 4096 := rfl
  have offset : (sectorIdx * BitVec.ofNat 32 flashSectorSize).toNat = sectorIdx.toNat * 4096 := by
    rw [BitVec.toNat_mul, sector]
    omega
  have index : sectorIdx * BitVec.ofNat 32 flashSectorSize / BitVec.ofNat 32 flashSectorSize = sectorIdx := by
    apply BitVec.eq_of_toNat_eq
    rw [BitVec.toNat_udiv, offset, sector]
    omega
  have place := (@sector_place config updateType (sectorIdx * BitVec.ofNat 32 flashSectorSize) (by omega) (by omega)).2
  rw [index] at place
  rw [sectorOffset]
  have fits := place.mp valid
  omega

theorem range_inside {s : FlashStatics} (partition : s.partitionIdx = updateType.partitionIdx)
    (below : s.sectorIdx.toNat * 4096 ≤ updateType.size config) (valid : (checkedSectorAddr config s).2 = true) :
    RangeInside config s flashSectorSize := by
  simp only [checkedSectorAddr] at valid
  split at valid
  · rw [partition] at valid
    exact .inr ⟨_, _, by rw [partition]; exact partitionBounds_target, sector_inside below valid⟩
  · cases valid

theorem sendable_inside (sendable : Sendable config updateType call) (world : World) :
    FrameInside config world (callCmd call) (callArgs call) := by
  cases call with
  | setWriteLock lock => trivial
  | getFlashSectorSize => trivial
  | eraseFlashSector partitionIdx sectorIdx sectorCount =>
    obtain ⟨rfl, rfl, rfl⟩ := sendable
    intro changes
    have index : (flashArgs fun index => (callArgs (.eraseFlashSector updateType.partitionIdx 0 1)).getD index 0).sectorIdx =
        0 := le32_byteAt 0
    have count : (flashArgs fun index => (callArgs (.eraseFlashSector updateType.partitionIdx 0 1)).getD index 0).sectorCount =
        1 := le32_byteAt 1
    rw [sectorsSize, count]
    refine @range_inside config updateType _ rfl ?_ changes.address
    rw [index]
    exact Nat.zero_le _
  | writeFlashSector partitionIdx sectorIdx sector =>
    obtain ⟨rfl, below⟩ := sendable
    intro changes
    have index : (flashArgs fun index => (callArgs (.writeFlashSector updateType.partitionIdx sectorIdx sector)).getD
        index 0).sectorIdx = sectorIdx := le32_byteAt sectorIdx
    refine @range_inside config updateType _ rfl ?_ changes.address
    rw [index]
    exact below
  | _ => exact sendable.elim

theorem sendable_partition (sendable : Sendable config updateType call)
    (sector : callCmd call = .writeFlashSector ∨ callCmd call = .eraseFlashSector) :
    (callArgs call).getD 0 0 = updateType.partitionIdx := by
  cases call with
  | eraseFlashSector partitionIdx sectorIdx sectorCount => exact sendable.1
  | writeFlashSector partitionIdx sectorIdx sector => exact sendable.1
  | setWriteLock lock => rcases sector with never | never <;> cases never
  | getFlashSectorSize => rcases sector with never | never <;> cases never
  | _ => exact sendable.elim

theorem sendable_other (sendable : Sendable config updateType call) : callCmd call ≠ .kvSet ∧ callCmd call ≠ .reboot := by
  cases call with
  | setWriteLock | getFlashSectorSize | eraseFlashSector | writeFlashSector => exact ⟨nofun, nofun⟩
  | _ => exact sendable.elim

theorem sendable_apart (sendable : Sendable config updateType call) (world : World) :
    ∀ op ∈ flashOps (runCall config call world).2, ∀ address, Apart config updateType address → ¬ op.covers address := by
  rw [← execute_call]
  by_cases sector : callCmd call = .writeFlashSector ∨ callCmd call = .eraseFlashSector
  · refine execute_apart (sendable_other sendable).1 (sendable_inside sendable world) fun address apart => ?_
    rw [sendable_partition sendable sector]
    exact apart_partition apart
  · intro op member
    rcases flash_source (mem_flashOps.mp member) with set | ⟨one, _⟩
    · exact absurd set (sendable_other sendable).1
    · exact absurd one sector

structure Spares (config : Config) (updateType : UpdateType) (world next : World) : Prop where
  flash : ∀ address, Apart config updateType address → next.flash address = world.flash address
  settings : next.settings = world.settings
  scratch0 : next.scratch0 = world.scratch0
  rebooting : next.rebooting = world.rebooting

theorem runCall_spares (sendable : Sendable config updateType call) (world : World) :
    Spares config updateType world (runCall config call world).1 := by
  obtain ⟨set, reboot⟩ := sendable_other sendable
  have apart := sendable_apart sendable world
  rw [← execute_call] at apart ⊢
  obtain ⟨scratch0, rebooting⟩ := execute_rebooting reboot (callArgs call) world
  refine ⟨fun address outside => ?_, execute_settings set _ _, scratch0, rebooting⟩
  rw [execute_flash]
  exact applyAll_outside fun op member => apart op member address outside

theorem Spares.trans {next last : World} (first : Spares config updateType world next)
    (second : Spares config updateType next last) : Spares config updateType world last where
  flash address apart := (second.flash address apart).trans (first.flash address apart)
  settings := second.settings.trans first.settings
  scratch0 := second.scratch0.trans first.scratch0
  rebooting := second.rebooting.trans first.rebooting

theorem Spares.refl (world : World) : Spares config updateType world world := ⟨fun _ _ => rfl, rfl, rfl, rfl⟩

theorem Sends.reaches {attempt : Attempt} (sends : Sends config call world attempt) :
    attempt.world = world ∨ attempt.world = (runCall config call world).1 := by
  cases sends with
  | lost => exact .inl rfl
  | executed delivery busy received => exact .inr rfl

theorem spares_kept (world : World) :
    Kept config updateType fun modchip => Spares config updateType world modchip.world := by
  intro modchip attempt call spares sendable sends
  refine spares.trans ?_
  show Spares config updateType modchip.world attempt.world
  rcases sends.reaches with same | ran
  · rw [same]
    exact .refl _
  · rw [ran]
    exact runCall_spares sendable _

structure Image (offset : Nat) (update : Update) (flash : Flash) : Prop where
  fits : update.size.toNat ≤ updatePartitionSizeBytes
  bytes : ∀ index < update.size.toNat, flash (offset + index) = update.byte index

structure Written (updateType : UpdateType) (update : Update) (flash : Flash) : Prop where
  first : ∀ index < flashSectorSize, flash (updateType.start + index) = update.byte index
  others : OthersWritten updateType update flash

theorem Written.bytes {flash : Flash} (written : Written updateType update flash) :
    ∀ index < update.size.toNat, flash (updateType.start + index) = update.byte index := by
  intro index inside
  rcases Nat.lt_or_ge index flashSectorSize with early | late
  · exact written.first index early
  · exact written.others index late (Nat.lt_of_le_of_lt (Nat.div_mul_le_self _ _) inside)

theorem writeFirst_written {start : Flash} (closing : Closing start updateType update modchip) :
    Leads (Closing start updateType update) (fun next => Written updateType update next.world.flash)
      (writeUpdateSector config updateType.partitionIdx update 0 (BitVec.ofNat 32 flashSectorSize) modchip) := by
  refine writeUpdateSector_leads (fun modchip attempt sector closing bytes sends => ?_) closing
  have still := closing.write bytes sends
  refine ⟨fun acknowledged => ⟨?_, still.others⟩, fun _ => still⟩
  rcases sends.write with ⟨refused, _⟩ | ⟨_, changes⟩
  · exact absurd acknowledged.accepted refused
  · rw [bytes] at changes
    obtain ⟨_, sector, _⟩ := @Changes.bytes config updateType update 0 _ _ changes rfl (Nat.zero_le _)
    intro index inside
    have byte := sector index inside
    rwa [show (0 : U32).toNat + index = index from Nat.zero_add index] at byte

/-- A scene that ends well has written all of the image. -/
theorem writeUpdate_written {deliveries : List Delivery}
    (done : (writeUpdate config updateType.partitionIdx update ⟨world, deliveries, []⟩).1 = .ok ()) :
    Written updateType update (writeUpdate config updateType.partitionIdx update ⟨world, deliveries, []⟩).2.world.flash := by
  have unsure : ¬ FirstErased updateType ([] : List Attempt) := by
    rintro ⟨attempt, member, _⟩
    cases member
  have waiting : Waiting world.flash updateType update ⟨world, deliveries, []⟩ := by
    refine ⟨⟨rfl, fun later earlier split => .waiting ?_⟩, unsure⟩
    rw [(List.append_eq_nil_iff.mp split.symm).2]
    exact unsure
  have unlock := @unlock_leads config _ _ _ _ waiting
  unfold writeUpdate at done ⊢
  dsimp only at done ⊢
  split at done
  · cases done
  next unlocked =>
  rw [if_neg unlocked]
  have erase := @erase_leads config _ _ _ _ (unlock.succeeded (Decidable.not_not.mp unlocked))
  split at done
  · cases done
  next erased =>
  rw [if_neg erased]
  have cleared := erase.succeeded (Decidable.not_not.mp erased)
  have sectorSize := @getFlashSectorSize_leads config _ _ (fun _ _ cleared same => cleared.same same) cleared 0
  generalize Modchip.getFlashSectorSizeWithRetry config _ 0 = asked at sectorSize done ⊢
  obtain ⟨heard, modchip, answer⟩ := asked
  dsimp only at done ⊢
  split at done
  · cases done
  next known =>
  rw [if_neg known]
  obtain ⟨cleared, size⟩ := sectorSize.succeeded (Decidable.not_not.mp known)
  dsimp only at cleared size
  subst size
  have sectors := @writeSectors_leads config _ _ _ _ (BitVec.ofNat 32 flashSectorSize) rfl (Nat.le_refl 4096)
    (UpdateType.sector_fits config updateType) cleared
  split at done
  · cases done
  next looped =>
  rw [if_neg looped]
  have first := @writeFirst_written config _ _ _ _ (sectors.succeeded (Decidable.not_not.mp looped))
  split at done
  · cases done
  next written =>
  rw [if_neg written]
  have last := first.succeeded (Decidable.not_not.mp written)
  dsimp only at last ⊢
  exact last

theorem writeUpdate_fits (done : (writeUpdate config updateType.partitionIdx update modchip).1 = .ok ()) :
    update.size.toNat ≤ updateType.size config := by
  rcases Nat.eq_zero_or_pos update.size.toNat with none | some
  · rw [none]
    exact Nat.zero_le _
  · have aligned : (update.size.toNat - 1) / 4096 * 4096 % 4096 = 0 := Nat.mul_mod_left _ _
    have below : (update.size.toNat - 1) / 4096 * 4096 < update.size.toNat := by omega
    have last : update.size.toNat ≤ (update.size.toNat - 1) / 4096 * 4096 + 4096 := by omega
    exact Nat.le_trans last (Nat.le_of_lt (writeUpdate_sent done aligned below).fits)

/-- What an update with its reboot comes to. -/
structure Installs (config : Config) (updateType : UpdateType) (update : Update) (world next : World) : Prop where
  flash : ∀ address, Apart config updateType address → next.flash address = world.flash address
  settings : next.settings = world.settings
  rebooted : next.scratch0 = world.scratch0 ∨
    next.rebooting = true ∧ updateType = .fw ∧ Image updatePartitionOffset update next.flash

theorem runCall_reboot (mode : U8) (world : World) :
    (runCall config (.reboot mode) world).1.flash = world.flash ∧
      (runCall config (.reboot mode) world).1.settings = world.settings ∧
      ((runCall config (.reboot mode) world).1 = world ∨ (runCall config (.reboot mode) world).1.rebooting = true ∧
        ((runCall config (.reboot mode) world).1.scratch0 = world.scratch0 ∨ mode = modchipRebootModeUpdate)) ∧
      flashOps (runCall config (.reboot mode) world).2 = [] := by
  dsimp only [runCall, rebootBody]
  split
  · by_cases update : mode = modchipRebootModeUpdate
    · rw [if_pos update, if_pos update]
      exact ⟨rfl, rfl, .inr ⟨rfl, .inr update⟩, rfl⟩
    · rw [if_neg update, if_neg update]
      exact ⟨rfl, rfl, .inr ⟨rfl, .inl rfl⟩, rfl⟩
  · exact ⟨rfl, rfl, .inl rfl, rfl⟩

theorem rebootMode_update (update : updateType.rebootMode = modchipRebootModeUpdate) : updateType = .fw := by
  cases updateType with
  | fw => rfl
  | apps => cases update

structure Reboots (updateType : UpdateType) (world next : World) : Prop where
  flash : next.flash = world.flash
  settings : next.settings = world.settings
  rebooted : next.scratch0 = world.scratch0 ∨ next.rebooting = true ∧ updateType = .fw

theorem rebooting_reboots (modchip : Modchip) :
    Reboots updateType modchip.world (modchip.rebootWithRetry config updateType.rebootMode).2.world := by
  refine @sendWithRetry_keeps config modchip (.reboot updateType.rebootMode)
    (fun next => Reboots updateType modchip.world next.world) (fun now attempt held sends => ?_) ⟨rfl, rfl, .inl rfl⟩
  obtain ⟨flash, settings, rebooted⟩ := held
  show Reboots updateType modchip.world attempt.world
  rcases sends.reaches with same | ran
  · rw [same]
    exact ⟨flash, settings, rebooted⟩
  · obtain ⟨stillFlash, stillSettings, reset, _⟩ := @runCall_reboot config updateType.rebootMode now.world
    rw [ran]
    refine ⟨stillFlash.trans flash, stillSettings.trans settings, ?_⟩
    rcases reset with refused | ⟨started, still | update⟩
    · rw [refused]
      exact rebooted
    · rcases rebooted with same | ⟨_, fw⟩
      · exact .inl (still.trans same)
      · exact .inr ⟨started, fw⟩
    · exact .inr ⟨started, rebootMode_update update⟩

theorem scene_written {deliveries : List Delivery} {modchip : Modchip}
    (done : sceneTickHandlerUpdateWriting config updateType update ⟨world, deliveries, []⟩ = (.ok (), modchip)) :
    Written updateType update modchip.world.flash ∧ update.size.toNat ≤ updateType.size config := by
  have result : (writeUpdate config updateType.partitionIdx update ⟨world, deliveries, []⟩).1 = .ok () :=
    congrArg Prod.fst done
  have last : ((writeUpdate config updateType.partitionIdx update ⟨world, deliveries, []⟩).2.sendWithRetry config
      (.setWriteLock true)).2 = modchip := congrArg Prod.snd done
  have same := @sendWithRetry_keeps config
    (writeUpdate config updateType.partitionIdx update ⟨world, deliveries, []⟩).2 (.setWriteLock true) (fun next => next.world.flash =
      (writeUpdate config updateType.partitionIdx update ⟨world, deliveries, []⟩).2.world.flash)
    (fun now attempt held sends => sends.lock.trans held) rfl
  rw [last] at same
  rw [same]
  exact ⟨writeUpdate_written result, writeUpdate_fits result⟩

theorem installUpdate_installs (config : Config) (updateType : UpdateType) (update : Update) (world : World)
    (deliveries : List Delivery) :
    Installs config updateType update world (installUpdate config updateType update ⟨world, deliveries, []⟩).world := by
  have spares := @Kept.scene config updateType update ⟨world, deliveries, []⟩ _ (spares_kept world) (.refl world)
  rw [installUpdate]
  split
  next modchip found =>
    rw [found] at spares
    obtain ⟨written, fits⟩ := scene_written found
    obtain ⟨flash, settings, rebooted⟩ := @rebooting_reboots config updateType modchip
    refine ⟨fun address apart => ?_, settings.trans spares.settings, ?_⟩
    · rw [flash]
      exact spares.flash address apart
    · rcases rebooted with same | ⟨started, rfl⟩
      · exact .inl (same.trans spares.scratch0)
      · rw [flash]
        exact .inr ⟨started, rfl, fits, written.bytes⟩
  next message modchip found =>
    rw [found] at spares
    exact ⟨spares.flash, spares.settings, .inl spares.scratch0⟩

theorem reboot_answered {count : Nat} (lossless : Lossless (count + 1) modchip.deliveries) (updateType : UpdateType) :
    (modchip.sendWithRetry config (.reboot updateType.rebootMode)).2.world =
      (runCall config (.reboot updateType.rebootMode) modchip.world).1 := by
  have answers (busy : Nat) : runAnswer config (.reboot updateType.rebootMode) modchip.world busy =
      ((runCall config (.reboot updateType.rebootMode) modchip.world).1, .ok) := by
    cases updateType <;> rfl
  obtain ⟨busy, sent, _⟩ := Modchip.sendWithRetry_answered lossless answers rfl
  rw [sent]
  rfl

/-- With every frame answered, the modchip gets to its reboot. -/
theorem installUpdate_answered {deliveries : List Delivery} (whole : update.size.toNat % 4096 = 0)
    (some : 0 < update.size.toNat) (fits : update.size.toNat < updateType.size config)
    (lossless : Lossless (update.size.toNat / 4096 + 5) deliveries) :
    ∃ modchip, sceneTickHandlerUpdateWriting config updateType update ⟨world, deliveries, []⟩ = (.ok (), modchip) ∧
      (installUpdate config updateType update ⟨world, deliveries, []⟩).world =
        (runCall config (.reboot updateType.rebootMode) modchip.world).1 := by
  have frames : update.size.toNat / 4096 + 5 = 1 + (update.size.toNat / 4096 + 4) := by omega
  rw [frames] at lossless
  obtain ⟨attempt, next, done, lossless, _⟩ :=
    @writeUpdate_answered_more config updateType update world deliveries 1 whole some fits lossless
  obtain ⟨busy, locked, lossless⟩ := @unlock_answered config _ 1 lossless true
  have scene : sceneTickHandlerUpdateWriting config updateType update ⟨world, deliveries, []⟩ =
      (.ok (), ((next.log attempt).sendWithRetry config (.setWriteLock true)).2) := by
    rw [sceneTickHandlerUpdateWriting, done]
  refine ⟨_, scene, ?_⟩
  rw [installUpdate, scene, locked]
  dsimp only
  rw [Modchip.rebootWithRetry, reboot_answered lossless]

theorem installUpdate_requests {deliveries : List Delivery} (whole : update.size.toNat % 4096 = 0)
    (some : 0 < update.size.toNat) (fits : update.size.toNat < updatePartitionSizeBytes)
    (lossless : Lossless (update.size.toNat / 4096 + 5) deliveries) :
    (installUpdate config .fw update ⟨world, deliveries, []⟩).world.rebooting = true ∧
      (installUpdate config .fw update ⟨world, deliveries, []⟩).world.scratch0 = modchipUpdateMagic := by
  obtain ⟨modchip, _, last⟩ := @installUpdate_answered config .fw update world deliveries whole some fits lossless
  rw [last]
  exact ⟨rfl, rfl⟩

theorem installUpdate_apps {deliveries : List Delivery} (whole : update.size.toNat % 4096 = 0)
    (some : 0 < update.size.toNat) (fits : update.size.toNat < appsPartitionSizeBytes config.flashSize)
    (lossless : Lossless (update.size.toNat / 4096 + 5) deliveries) :
    (installUpdate config .apps update ⟨world, deliveries, []⟩).world.rebooting = true ∧
      ∀ index < update.size.toNat, (installUpdate config .apps update ⟨world, deliveries, []⟩).world.flash
        (appsPartitionOffset + index) = update.byte index := by
  obtain ⟨modchip, scene, last⟩ := @installUpdate_answered config .apps update world deliveries whole some fits lossless
  obtain ⟨written, _⟩ := scene_written scene
  rw [last]
  exact ⟨rfl, written.bytes⟩

theorem installUpdate_calls (config : Config) (updateType : UpdateType) (update : Update) (world : World)
    (deliveries : List Delivery) :
    ∀ attempt ∈ (installUpdate config updateType update ⟨world, deliveries, []⟩).history,
      Sendable config updateType attempt.call ∨ attempt.call = .reboot updateType.rebootMode := by
  refine @Kept.install config updateType update ⟨world, deliveries, []⟩ (fun next => ∀ attempt ∈ next.history,
    Sendable config updateType attempt.call ∨ attempt.call = .reboot updateType.rebootMode) ?_ ?_ (List.forall_mem_nil _)
  · intro modchip attempt call known sendable sends
    refine List.forall_mem_cons.mpr ⟨.inl ?_, known⟩
    rw [sends.call]
    exact sendable
  · intro modchip attempt known sends
    exact List.forall_mem_cons.mpr ⟨.inr sends.call, known⟩

/-- Power that is lost in the middle of an update costs nothing but the target. -/
theorem installUpdate_cut (config : Config) (updateType : UpdateType) (update : Update) (world : World)
    (deliveries : List Delivery) (heard steps : Nat) {address : Nat} (apart : Apart config updateType address) :
    (installUpdate config updateType update ⟨world, deliveries, []⟩).cutFlash config heard steps address =
      world.flash address := by
  have whole := (installUpdate_installs config updateType update world deliveries).flash address apart
  have calls := installUpdate_calls config updateType update world deliveries
  generalize installUpdate config updateType update ⟨world, deliveries, []⟩ = modchip at whole calls ⊢
  rw [Modchip.cutFlash]
  cases found : modchip.history.reverse[heard]? with
  | none => exact whole
  | some attempt =>
    rcases calls attempt (List.mem_reverse.mp (List.mem_of_getElem? found)) with sendable | reboot
    · exact (interrupt_outside (sendable_apart sendable modchip.world) steps apart).trans whole
    · have nothing := (@runCall_reboot config updateType.rebootMode modchip.world).2.2.2
      dsimp only
      rw [reboot, nothing, interrupt, List.flatMap_nil, List.take_nil]
      exact whole

end Fruitchip.Menu
