import Fruitchip.Proofs.SceneStack
import Fruitchip.Proofs.UpdateWriter

/-! What an update leaves behind when nothing gets lost: the image in the target
partition, padded to the end of its last sector. The menu copies whole sectors
out of a buffer that ends with the image, and the modchip refuses the last
sector of a partition, so this holds for some lengths of the image only. -/

namespace Fruitchip.Menu
open Embedded Client Firmware

variable {config : Config} {updateType : UpdateType} {update : Update} {modchip : Modchip}

/-- What `writeSectors` reads behind `update`. -/
def writeSectorsReads (config : Config) (partitionIdx : U8) (update : Update) (sectorSize currentOffset : U32)
    (modchip : Modchip) : List Nat :=
  if currentOffset < update.size then
    updateSectorReads currentOffset sectorSize ++
      if (writeUpdateSector config partitionIdx update currentOffset sectorSize modchip).1 = true then
        writeSectorsReads config partitionIdx update sectorSize (currentOffset + sectorSize)
          (writeUpdateSector config partitionIdx update currentOffset sectorSize modchip).2
      else []
  else []
termination_by modchip.deliveries.length
decreasing_by
  next written => exact writeUpdateSector_deliveries written

/-- What `writeUpdate` reads behind `update`. -/
def writeUpdateReads (config : Config) (partitionIdx : U8) (update : Update) (modchip : Modchip) : List Nat :=
  let (unlocked, modchip) := modchip.sendWithRetry config (.setWriteLock false)
  if ¬ unlocked then [] else
  let (erased, modchip) := modchip.sendWithRetry config (.eraseFlashSector partitionIdx 0 1)
  if ¬ erased then [] else
  let (known, modchip, sectorSize) := modchip.getFlashSectorSizeWithRetry config 0
  if ¬ known then [] else
  let reads := writeSectorsReads config partitionIdx update sectorSize sectorSize modchip
  let (written, _) := writeSectors config partitionIdx update sectorSize sectorSize modchip
  if ¬ written then reads else reads ++ updateSectorReads 0 sectorSize

/-- Every frame gets an answer, and there are enough of them. -/
structure Lossless (count : Nat) (deliveries : List Delivery) : Prop where
  enough : count ≤ deliveries.length
  answered : ∀ delivery ∈ deliveries, ∃ busy, delivery = .answered busy

/-- All commands of an update, with their retries. -/
def updateFrames (update : Update) : Nat := modchipCmdRetries * (update.size.toNat / flashSectorSize + 5)

/-- Sectors that an image takes. -/
def imageSectors (update : Update) : Nat := (update.size.toNat + (flashSectorSize - 1)) / flashSectorSize

/-- What the scene has to come to. -/
structure ImageWritten (config : Config) (updateType : UpdateType) (update : Update) (before : Modchip)
    (result : Except String Unit × Modchip) : Prop where
  inside : ∀ position ∈ writeUpdateReads config updateType.partitionIdx update before, position < update.size.toNat
  accepted : ∀ attempt ∈ result.2.history, attempt.Accepted
  rebooting : result.1 = .ok ()
  image : ∀ index < imageSectors update * flashSectorSize,
    result.2.world.flash (updateType.start + index) = if index < update.size.toNat then update.byte index else 0xFF
  outside : ∀ address, address < updateType.start ∨
    updateType.start + imageSectors update * flashSectorSize ≤ address →
    result.2.world.flash address = before.world.flash address

theorem ImageWritten.switches {before : Modchip} {result : Except String Unit × Modchip}
    (written : ImageWritten config updateType update before result) {menu next : Program} {running : List Scene}
    {outcomes : Outcomes} (outcome : outcomes.writing = result.1)
    (handled : menu.sceneTickUpdateWriting running outcomes = some next) :
    next.scenes.head? = some .updateRebooting := by
  apply (Program.writing_switches handled).mpr
  exact outcome.trans written.rebooting

theorem aligned_index {offset : U32} (aligned : offset.toNat % 4096 = 0) :
    (offset / BitVec.ofNat 32 flashSectorSize).toNat * flashSectorSize = offset.toNat := by
  have sector : flashSectorSize = 4096 := rfl
  have word : (BitVec.ofNat 32 4096).toNat = 4096 := rfl
  rw [sector, BitVec.toNat_udiv, word]
  omega

theorem mem_updateSectorReads {offset : U32} {position : Nat} :
    position ∈ updateSectorReads offset (BitVec.ofNat 32 flashSectorSize) ↔
      offset.toNat ≤ position ∧ position < offset.toNat + 4096 := by
  rw [updateSectorReads, List.mem_map]
  constructor
  · rintro ⟨index, within, rfl⟩
    have bound : index < 4096 := List.mem_range.mp within
    omega
  · rintro ⟨low, high⟩
    have bound : position - offset.toNat < 4096 := by omega
    exact ⟨position - offset.toNat, List.mem_range.mpr bound, by omega⟩

/-- Whole sectors of the image are read inside it. -/
theorem writeSectorsReads_inside (whole : update.size.toNat % 4096 = 0) {currentOffset : U32}
    (aligned : currentOffset.toNat % 4096 = 0) :
    ∀ position ∈ writeSectorsReads config updateType.partitionIdx update (BitVec.ofNat 32 flashSectorSize) currentOffset
      modchip, position < update.size.toNat := by
  have sector : (BitVec.ofNat 32 flashSectorSize).toNat = 4096 := rfl
  induction currentOffset, modchip using writeSectors.induct config updateType.partitionIdx update
    (BitVec.ofNat 32 flashSectorSize) with
  | case1 current modchip more written ih =>
    have moved : (current + BitVec.ofNat 32 flashSectorSize).toNat % 4096 = 0 := by
      rw [BitVec.toNat_add, sector]
      omega
    have inside := BitVec.lt_def.mp more
    rw [writeSectorsReads, if_pos more, if_pos written]
    intro position member
    rcases List.mem_append.mp member with here | later
    · have bounds := mem_updateSectorReads.mp here
      omega
    · exact ih moved position later
  | case2 current modchip more failed =>
    have inside := BitVec.lt_def.mp more
    rw [writeSectorsReads, if_pos more, if_neg failed, List.append_nil]
    intro position member
    have bounds := mem_updateSectorReads.mp member
    omega
  | case3 current modchip finished =>
    rw [writeSectorsReads, if_neg finished]
    exact List.forall_mem_nil _

/-- A sector that fits into its partition is written, and all of it is read for that. -/
structure SectorSent (config : Config) (updateType : UpdateType) (offset : Nat) (reads : List Nat) : Prop where
  read : ∀ index < flashSectorSize, offset + index ∈ reads
  fits : offset + 4096 < updateType.size config

theorem writeUpdateSector_sent {offset : U32} (aligned : offset.toNat % 4096 = 0)
    (inside : offset.toNat ≤ updateType.size config)
    (written : (writeUpdateSector config updateType.partitionIdx update offset (BitVec.ofNat 32 flashSectorSize)
      modchip).1 = true) {reads : List Nat}
    (copied : ∀ position ∈ updateSectorReads offset (BitVec.ofNat 32 flashSectorSize), position ∈ reads) :
    SectorSent config updateType offset.toNat reads := by
  have leads : Leads (fun _ => True) (fun _ => offset.toNat + 4096 < updateType.size config)
      (writeUpdateSector config updateType.partitionIdx update offset (BitVec.ofNat 32 flashSectorSize) modchip) := by
    refine writeUpdateSector_leads (fun modchip attempt sector _ _ sends => ⟨fun acknowledged => ?_, fun _ => trivial⟩)
      trivial
    rcases sends.write with ⟨refused, _⟩ | ⟨_, changes⟩
    · exact absurd acknowledged.accepted refused
    · exact (sector_place aligned inside).2.mp changes.accepts.valid
  refine ⟨fun index within => copied _ (mem_updateSectorReads.mpr ⟨Nat.le_add_right _ _, ?_⟩), leads.succeeded written⟩
  exact Nat.add_lt_add_left within _

theorem writeSectors_sent {currentOffset : U32} (aligned : currentOffset.toNat % 4096 = 0)
    (inside : currentOffset.toNat ≤ updateType.size config)
    (written : (writeSectors config updateType.partitionIdx update (BitVec.ofNat 32 flashSectorSize) currentOffset
      modchip).1 = true) {offset : Nat} (sector : offset % 4096 = 0) (low : currentOffset.toNat ≤ offset)
    (high : offset < update.size.toNat) {reads : List Nat}
    (copied : ∀ position ∈ writeSectorsReads config updateType.partitionIdx update (BitVec.ofNat 32 flashSectorSize)
      currentOffset modchip, position ∈ reads) : SectorSent config updateType offset reads := by
  induction currentOffset, modchip using writeSectors.induct config updateType.partitionIdx update
    (BitVec.ofNat 32 flashSectorSize) with
  | case1 current modchip more sent ih =>
    rw [writeSectorsReads, if_pos more, if_pos sent] at copied
    have here := writeUpdateSector_sent aligned inside sent
      fun position member => copied position (List.mem_append_left _ member)
    have limit := UpdateType.inside_flash config updateType
    have fits := here.fits
    have moved : (current + BitVec.ofNat 32 flashSectorSize).toNat = current.toNat + 4096 := by
      rw [BitVec.toNat_add, show (BitVec.ofNat 32 flashSectorSize).toNat = 4096 from rfl]
      omega
    rw [writeSectors, if_pos more, if_pos sent] at written
    rw [moved] at ih
    rcases Nat.lt_or_ge offset (current.toNat + 4096) with now | later
    · obtain rfl : current.toNat = offset := by omega
      exact here
    · exact ih (by omega) (by omega) written later fun position member => copied position (List.mem_append_right _ member)
  | case2 current modchip more failed =>
    rw [writeSectors, if_pos more, if_neg failed] at written
    exact absurd written failed
  | case3 current modchip finished =>
    have reached : update.size.toNat ≤ current.toNat := Nat.le_of_not_lt finished
    omega

variable {before : World} {count offset : Nat}

theorem Lossless.next {deliveries : List Delivery} (lossless : Lossless (count + 1) deliveries) :
    ∃ busy rest, deliveries = .answered busy :: rest ∧ Lossless count rest := by
  obtain ⟨enough, answered⟩ := lossless
  cases deliveries with
  | nil => exact absurd enough (Nat.not_succ_le_zero count)
  | cons delivery rest =>
    obtain ⟨busy, rfl⟩ := answered delivery List.mem_cons_self
    exact ⟨busy, rest, rfl, Nat.le_of_succ_le_succ enough,
      fun other member => answered other (List.mem_cons_of_mem _ member)⟩

theorem Modchip.sendWithRetry_answered {call : Call} {next : World} {reply : Reply}
    (lossless : Lossless (count + 1) modchip.deliveries)
    (answers : ∀ busy, runAnswer config call modchip.world busy = (next, reply)) (done : reply.isOk = true) :
    ∃ busy, modchip.sendWithRetry config call = (true, modchip.log ⟨call, .answered busy, reply, next⟩) ∧
      Lossless count (modchip.log ⟨call, .answered busy, reply, next⟩).deliveries := by
  obtain ⟨world, deliveries, history⟩ := modchip
  obtain ⟨busy, rest, rfl, later⟩ := lossless.next
  refine ⟨busy, ?_, later⟩
  have sent : Modchip.send config call ⟨world, .answered busy :: rest, history⟩ =
      (reply, Modchip.log ⟨world, .answered busy :: rest, history⟩ ⟨call, .answered busy, reply, next⟩) := by
    have answer := answers busy
    rw [Modchip.send]
    simp only [List.head?_cons, List.tail_cons]
    rw [answer]
    rfl
  simp only [Modchip.sendWithRetry, modchipCmdRetries, withRetry, sent, done, ite_true]

/-- The update is under way: the sectors behind the first one are written up to
an offset, and nothing is changed behind it. -/
structure Sending (updateType : UpdateType) (update : Update) (before : World) (count offset : Nat)
    (modchip : Modchip) : Prop where
  lossless : Lossless count modchip.deliveries
  unlocked : modchip.world.flashWriteLock = false
  accepted : ∀ attempt ∈ modchip.history, attempt.Accepted
  written : ∀ index, flashSectorSize ≤ index → index < offset →
    modchip.world.flash (updateType.start + index) = update.byte index
  outside : ∀ address, address < updateType.start ∨ updateType.start + offset ≤ address →
    modchip.world.flash address = before.flash address

theorem writeUpdateSector_answered {offset : U32} (aligned : offset.toNat % 4096 = 0)
    (fits : offset.toNat + 4096 < updateType.size config)
    (lossless : Lossless (count + 1) modchip.deliveries) (unlocked : modchip.world.flashWriteLock = false) :
    ∃ attempt, writeUpdateSector config updateType.partitionIdx update offset (BitVec.ofNat 32 flashSectorSize) modchip =
        (true, modchip.log attempt) ∧ Lossless count (modchip.log attempt).deliveries ∧ attempt.Accepted ∧
      attempt.world.flashWriteLock = false ∧
      (∀ index < 4096, attempt.world.flash (updateType.start + (offset.toNat + index)) =
        update.byte (offset.toNat + index)) ∧
      ∀ address, address < updateType.start + offset.toNat ∨ updateType.start + offset.toNat + 4096 ≤ address →
        attempt.world.flash address = modchip.world.flash address := by
  obtain ⟨place, valid⟩ := @sector_place config updateType offset aligned (by omega)
  have length : (updateSector update offset (BitVec.ofNat 32 flashSectorSize)).length = flashSectorSize := by
    rw [updateSector_bytes, List.length_map, List.length_range]
  have accepts : Accepts config modchip.world updateType.partitionIdx (offset / BitVec.ofNat 32 flashSectorSize) :=
    ⟨unlocked, valid.mpr fits⟩
  obtain ⟨flash, finishes, sector, outside⟩ := write_accepted accepts ⟨_, length⟩
  have answers (busy : Nat) := runAnswer_finishes rfl finishes (by decide) busy
  obtain ⟨busy, sent, later⟩ := Modchip.sendWithRetry_answered lossless answers rfl
  have same := sector.trans (updateSector_bytes offset)
  rw [place, Flash.read, List.map_inj_left] at same
  rw [place] at outside
  refine ⟨_, (writeUpdateSector_whole config updateType.partitionIdx length modchip).trans sent, later,
    Attempt.Acknowledged.accepted ⟨⟨_, rfl⟩, rfl⟩, unlocked, ?_, outside⟩
  intro index within
  rw [← Nat.add_assoc]
  exact same index (List.mem_range.mpr within)

theorem Sending.write {offset : U32} (sending : Sending updateType update before (count + 1) offset.toNat modchip)
    (aligned : offset.toNat % 4096 = 0) (behind : 4096 ≤ offset.toNat)
    (fits : offset.toNat + 4096 < updateType.size config) :
    ∃ next, writeUpdateSector config updateType.partitionIdx update offset (BitVec.ofNat 32 flashSectorSize) modchip =
        (true, next) ∧ Sending updateType update before count (offset.toNat + 4096) next := by
  obtain ⟨attempt, sent, lossless, accepted, unlocked, sector, outside⟩ :=
    writeUpdateSector_answered aligned fits sending.lossless sending.unlocked
  refine ⟨_, sent, lossless, unlocked, List.forall_mem_cons.mpr ⟨accepted, sending.accepted⟩, ?_, ?_⟩
  · intro index low high
    show attempt.world.flash _ = _
    rcases Nat.lt_or_ge index offset.toNat with earlier | here
    · rw [outside _ (.inl (by omega))]
      exact sending.written index low earlier
    · obtain ⟨rest, rfl⟩ := Nat.exists_eq_add_of_le here
      exact sector rest (by omega)
  · intro address apart
    show attempt.world.flash _ = _
    rw [outside address (by omega)]
    exact sending.outside address (by omega)

/-- The loop gets through, by induction on the sectors that are left. -/
theorem Sending.loop {sectors : Nat} {offset : U32}
    (sending : Sending updateType update before (count + sectors) offset.toNat modchip)
    (aligned : offset.toNat % 4096 = 0) (behind : 4096 ≤ offset.toNat)
    (rest : offset.toNat + 4096 * sectors = update.size.toNat) (fits : update.size.toNat < updateType.size config) :
    ∃ next, writeSectors config updateType.partitionIdx update (BitVec.ofNat 32 flashSectorSize) offset modchip =
        (true, next) ∧ Sending updateType update before count update.size.toNat next := by
  induction sectors generalizing offset modchip with
  | zero =>
    have finished : ¬ offset < update.size := by
      rw [BitVec.lt_def]
      omega
    have reached : offset.toNat = update.size.toNat := by omega
    rw [writeSectors, if_neg finished, ← reached]
    exact ⟨modchip, rfl, sending⟩
  | succ sectors ih =>
    have more : offset < update.size := by
      rw [BitVec.lt_def]
      omega
    have limit := UpdateType.inside_flash config updateType
    obtain ⟨next, sent, later⟩ := @Sending.write config _ _ _ _ (count + sectors) _ sending aligned behind (by omega)
    have moved : (offset + BitVec.ofNat 32 flashSectorSize).toNat = offset.toNat + 4096 := by
      rw [BitVec.toNat_add, show (BitVec.ofNat 32 flashSectorSize).toNat = 4096 from rfl]
      omega
    rw [← moved] at later
    rw [writeSectors, if_pos more, sent, if_pos rfl]
    exact ih later (by omega) (by omega) (by omega)

theorem Lossless.fewer {more : Nat} {deliveries : List Delivery} (lossless : Lossless more deliveries)
    (fewer : count ≤ more) : Lossless count deliveries :=
  ⟨Nat.le_trans fewer lossless.enough, lossless.answered⟩

theorem unlock_answered (lossless : Lossless (count + 1) modchip.deliveries) (lock : Bool) :
    ∃ busy, modchip.sendWithRetry config (.setWriteLock lock) = (true, modchip.log
        ⟨.setWriteLock lock, .answered busy, .ok, { modchip.world with flashWriteLock := lock }⟩) ∧
      Lossless count (modchip.log
        ⟨.setWriteLock lock, .answered busy, .ok, { modchip.world with flashWriteLock := lock }⟩).deliveries := by
  apply Modchip.sendWithRetry_answered lossless ?_ rfl
  intro busy
  cases lock <;> rfl

theorem erase_answered (lossless : Lossless (count + 1) modchip.deliveries)
    (unlocked : modchip.world.flashWriteLock = false) :
    ∃ attempt, modchip.sendWithRetry config (.eraseFlashSector updateType.partitionIdx 0 1) =
        (true, modchip.log attempt) ∧ Lossless count (modchip.log attempt).deliveries ∧ attempt.Accepted ∧
      attempt.world.flashWriteLock = false ∧
      ∀ address, address < updateType.start ∨ updateType.start + 4096 ≤ address →
        attempt.world.flash address = modchip.world.flash address := by
  obtain ⟨place, valid⟩ := @sector_place config updateType 0 rfl (Nat.zero_le _)
  rw [show (0 : U32) / BitVec.ofNat 32 flashSectorSize = 0 from rfl] at place valid
  have large : 4096 < updateType.size config := by
    cases updateType with
    | fw => exact (by decide : 4096 < updatePartitionSizeBytes)
    | apps =>
      show _ < appsPartitionSizeBytes config.flashSize
      cases config.flashSize <;> decide
  have accepts : Accepts config modchip.world updateType.partitionIdx 0 := ⟨unlocked, valid.mpr large⟩
  obtain ⟨flash, finishes, _, outside⟩ := erase_accepted accepts
  have answers (busy : Nat) := runAnswer_finishes rfl finishes (by decide) busy
  obtain ⟨busy, sent, later⟩ := Modchip.sendWithRetry_answered lossless answers rfl
  rw [place] at outside
  exact ⟨_, sent, later, Attempt.Acknowledged.accepted ⟨⟨_, rfl⟩, rfl⟩, unlocked, outside⟩

theorem sectorSize_answered (lossless : Lossless (count + 1) modchip.deliveries) (sectorSize : U32) :
    ∃ attempt, modchip.getFlashSectorSizeWithRetry config sectorSize =
        (true, modchip.log attempt, BitVec.ofNat 32 flashSectorSize) ∧
      Lossless count (modchip.log attempt).deliveries ∧ attempt.Accepted ∧ attempt.world = modchip.world := by
  obtain ⟨world, deliveries, history⟩ := modchip
  obtain ⟨busy, rest, rfl, later⟩ := lossless.next
  have answer : runAnswer config .getFlashSectorSize world busy =
      (world, .data (bytes32 (BitVec.ofNat 32 flashSectorSize))) :=
    congrArg (fun read => (world, (read.map (·.1)).getD .failed))
      (@peekChecked_word config world (BitVec.ofNat 32 flashSectorSize) world.flash busy (.placeholder, 0))
  have size : wordOf (bytes32 (BitVec.ofNat 32 flashSectorSize)) 0 = BitVec.ofNat 32 flashSectorSize := by decide
  refine ⟨⟨.getFlashSectorSize, .answered busy, .data (bytes32 (BitVec.ofNat 32 flashSectorSize)), world⟩, ?_, later,
    Attempt.Acknowledged.accepted ⟨⟨_, rfl⟩, rfl⟩, rfl⟩
  have sent : Modchip.send config .getFlashSectorSize ⟨world, .answered busy :: rest, history⟩ =
      (.data (bytes32 (BitVec.ofNat 32 flashSectorSize)), Modchip.log ⟨world, .answered busy :: rest, history⟩
        ⟨.getFlashSectorSize, .answered busy, .data (bytes32 (BitVec.ofNat 32 flashSectorSize)), world⟩) := by
    rw [Modchip.send]
    simp only [List.head?_cons, List.tail_cons]
    rw [answer]
    rfl
  simp only [Modchip.getFlashSectorSizeWithRetry, modchipCmdRetries, withRetry, sent, size, ite_true]

theorem writeUpdate_sent (done : (writeUpdate config updateType.partitionIdx update modchip).1 = .ok ())
    {offset : Nat} (sector : offset % 4096 = 0) (high : offset < update.size.toNat) :
    SectorSent config updateType offset (writeUpdateReads config updateType.partitionIdx update modchip) := by
  have large := UpdateType.sector_fits config updateType
  unfold writeUpdate at done
  unfold writeUpdateReads
  dsimp only at done ⊢
  split at done
  · cases done
  next unlocked =>
  rw [if_neg unlocked]
  split at done
  · cases done
  next erased =>
  rw [if_neg erased]
  split at done
  · cases done
  next known =>
  rw [if_neg known]
  obtain ⟨_, size⟩ := (@getFlashSectorSize_leads config _ (fun _ => True) (fun _ _ _ _ => trivial) trivial 0).succeeded
    (Decidable.not_not.mp known)
  rw [size] at done ⊢
  split at done
  · cases done
  next written =>
  rw [if_neg written]
  split at done
  · cases done
  next first =>
  rcases Nat.lt_or_ge offset 4096 with early | late
  · obtain rfl : offset = 0 := by omega
    exact @writeUpdateSector_sent config updateType update _ 0 rfl (Nat.zero_le _) (Decidable.not_not.mp first) _
      fun position member => List.mem_append_right _ member
  · exact @writeSectors_sent config updateType update _ (BitVec.ofNat 32 flashSectorSize) rfl large
      (Decidable.not_not.mp written) offset sector late high _ fun position member => List.mem_append_left _ member

/-- An image of whole sectors is all that the scene reads. -/
theorem writeUpdateReads_inside (whole : update.size.toNat % 4096 = 0) (some : 0 < update.size.toNat) :
    ∀ position ∈ writeUpdateReads config updateType.partitionIdx update modchip, position < update.size.toNat := by
  unfold writeUpdateReads
  dsimp only
  split
  · exact List.forall_mem_nil _
  split
  · exact List.forall_mem_nil _
  split
  · exact List.forall_mem_nil _
  next known =>
  obtain ⟨_, size⟩ := (@getFlashSectorSize_leads config _ (fun _ => True) (fun _ _ _ _ => trivial) trivial 0).succeeded
    (Decidable.not_not.mp known)
  rw [size]
  have sectors (modchip : Modchip) := @writeSectorsReads_inside config updateType update modchip whole
    (BitVec.ofNat 32 flashSectorSize) rfl
  split
  · exact sectors _
  · intro position member
    rcases List.mem_append.mp member with behind | first
    · exact sectors _ position behind
    · have bounds := mem_updateSectorReads.mp first
      have zero : (0 : U32).toNat = 0 := rfl
      omega

theorem writeUpdate_answered_more {world : World} {deliveries : List Delivery} (more : Nat)
    (whole : update.size.toNat % 4096 = 0) (some : 0 < update.size.toNat)
    (fits : update.size.toNat < updateType.size config)
    (lossless : Lossless (more + (update.size.toNat / 4096 + 4)) deliveries) :
    ∃ attempt next, writeUpdate config updateType.partitionIdx update ⟨world, deliveries, []⟩ =
        (.ok (), Modchip.log next attempt) ∧ Lossless (more + 1) (Modchip.log next attempt).deliveries ∧
      Sending updateType update world (more + 2) update.size.toNat next ∧ attempt.Accepted ∧
      (∀ index < 4096, attempt.world.flash (updateType.start + index) = update.byte index) ∧
      ∀ address, address < updateType.start ∨ updateType.start + 4096 ≤ address →
        attempt.world.flash address = next.world.flash address := by
  obtain ⟨sectors, count⟩ : ∃ sectors, update.size.toNat = 4096 * (sectors + 1) :=
    ⟨update.size.toNat / 4096 - 1, by omega⟩
  have frames : more + (update.size.toNat / 4096 + 4) = more + sectors + 4 + 1 := by omega
  rw [frames] at lossless
  obtain ⟨busy, unlocked, lossless⟩ :=
    @unlock_answered config ⟨world, deliveries, []⟩ (more + sectors + 4) lossless false
  obtain ⟨erase, erased, lossless, eraseAccepted, open_, outside⟩ :=
    @erase_answered config updateType _ (more + sectors + 3) lossless rfl
  obtain ⟨ask, known, lossless, askAccepted, same⟩ :=
    @sectorSize_answered config _ (more + sectors + 2) lossless 0
  have start : Sending updateType update world (more + 2 + sectors) (BitVec.ofNat 32 flashSectorSize).toNat
      (Modchip.log (Modchip.log (Modchip.log ⟨world, deliveries, []⟩
        ⟨.setWriteLock false, .answered busy, .ok, { world with flashWriteLock := false }⟩) erase) ask) := by
    refine ⟨lossless.fewer (by omega), ?_, ?_, fun index low high => absurd low (Nat.not_le_of_lt high), ?_⟩
    · show ask.world.flashWriteLock = false
      rw [same]
      exact open_
    · exact List.forall_mem_cons.mpr ⟨askAccepted, List.forall_mem_cons.mpr ⟨eraseAccepted,
        List.forall_mem_singleton.mpr (Attempt.Acknowledged.accepted ⟨⟨_, rfl⟩, rfl⟩)⟩⟩
    · intro address apart
      show ask.world.flash address = _
      rw [same]
      exact outside address apart
  obtain ⟨next, looped, sending⟩ := start.loop rfl (Nat.le_refl 4096)
    (show 4096 + 4096 * sectors = update.size.toNat by omega) fits
  obtain ⟨attempt, written, lossless, accepted, _, sector, apart⟩ :=
    @writeUpdateSector_answered config updateType update next (more + 1) 0 rfl
      (show 0 + 4096 < updateType.size config by omega) sending.lossless sending.unlocked
  refine ⟨attempt, next, ?_, lossless, sending, accepted, ?_, apart⟩
  · simp only [writeUpdate, unlocked, erased, known, looped, written, not_true, ite_false]
  · intro index within
    have byte := sector index within
    rwa [show (0 : U32).toNat + index = index from Nat.zero_add index] at byte

theorem writeUpdate_answered {world : World} {deliveries : List Delivery}
    (whole : update.size.toNat % 4096 = 0) (some : 0 < update.size.toNat)
    (fits : update.size.toNat < updateType.size config)
    (lossless : Lossless (update.size.toNat / 4096 + 4) deliveries) :
    ∃ attempt next, writeUpdate config updateType.partitionIdx update ⟨world, deliveries, []⟩ =
        (.ok (), Modchip.log next attempt) ∧ Lossless 1 (Modchip.log next attempt).deliveries ∧
      Sending updateType update world 2 update.size.toNat next ∧ attempt.Accepted ∧
      (∀ index < 4096, attempt.world.flash (updateType.start + index) = update.byte index) ∧
      ∀ address, address < updateType.start ∨ updateType.start + 4096 ≤ address →
        attempt.world.flash address = next.world.flash address :=
  writeUpdate_answered_more 0 whole some fits (by rwa [Nat.zero_add])

theorem imageSectors_whole (whole : update.size.toNat % 4096 = 0) :
    imageSectors update * flashSectorSize = update.size.toNat := by
  have sector : flashSectorSize = 4096 := rfl
  rw [imageSectors, sector]
  omega

/-- The last sector is read as a whole, and it is not the last one of the partition. -/
theorem ImageWritten.fits {world : World} {deliveries : List Delivery} (some : 0 < update.size.toNat)
    (pages : update.size.toNat % 256 = 0) (room : update.size.toNat ≤ updateType.size config)
    (written : ImageWritten config updateType update ⟨world, deliveries, []⟩
      (sceneTickHandlerUpdateWriting config updateType update ⟨world, deliveries, []⟩)) :
    update.size.toNat % flashSectorSize = 0 ∧ update.size.toNat < updateType.size config := by
  have sent {offset : Nat} (aligned : offset % 4096 = 0) (high : offset < update.size.toNat) :=
    @writeUpdate_sent config updateType update _ written.rebooting offset aligned high
  have whole : update.size.toNat % 4096 = 0 := by
    apply Decidable.not_not.mp
    intro partly
    have read := (@sent (update.size.toNat / 4096 * 4096) (by omega) (by omega)).read 4095 (by decide)
    have beyond := written.inside _ read
    omega
  have last := (@sent (update.size.toNat - 4096) (by omega) (by omega)).fits
  exact ⟨whole, by omega⟩

/-- Over a lossless bus, an image ends up in the target partition just as it is
exactly when it fills its last sector and leaves the last one of the partition. -/
theorem update_written_iff (config : Config) (updateType : UpdateType) (update : Update) (world : World)
    {deliveries : List Delivery} (some : 0 < update.size.toNat) (pages : update.size.toNat % 256 = 0)
    (room : update.size.toNat ≤ updateType.size config) (lossless : Lossless (updateFrames update) deliveries) :
    ImageWritten config updateType update ⟨world, deliveries, []⟩
        (sceneTickHandlerUpdateWriting config updateType update ⟨world, deliveries, []⟩) ↔
      update.size.toNat % flashSectorSize = 0 ∧ update.size.toNat < updateType.size config := by
  have sector : flashSectorSize = 4096 := rfl
  constructor
  · exact ImageWritten.fits some pages room
  · rintro ⟨whole, fits⟩
    have aligned : update.size.toNat % 4096 = 0 := whole
    have enough : update.size.toNat / 4096 + 4 ≤ updateFrames update := by
      rw [updateFrames, sector]
      show _ ≤ 3 * _
      omega
    obtain ⟨attempt, next, done, lossless, sending, accepted, first, apart⟩ :=
      @writeUpdate_answered config updateType update world deliveries whole some fits (lossless.fewer enough)
    obtain ⟨busy, locked, _⟩ := @unlock_answered config _ 0 lossless true
    rw [sceneTickHandlerUpdateWriting, done]
    dsimp only
    rw [locked]
    refine ⟨writeUpdateReads_inside aligned some, ?_, rfl, ?_, ?_⟩
    · exact List.forall_mem_cons.mpr ⟨Attempt.Acknowledged.accepted ⟨⟨_, rfl⟩, rfl⟩,
        List.forall_mem_cons.mpr ⟨accepted, sending.accepted⟩⟩
    · rw [imageSectors_whole aligned]
      intro index within
      rw [if_pos within]
      show attempt.world.flash _ = _
      rcases Nat.lt_or_ge index 4096 with early | late
      · exact first index early
      · rw [apart _ (.inr (Nat.add_le_add_left late _))]
        exact sending.written index late within
    · rw [imageSectors_whole aligned]
      intro address outside
      show attempt.world.flash _ = _
      rw [apart address (by omega)]
      exact sending.outside address outside

def oneSector : Update := ⟨fun _ => 0, 4096⟩

def lossless (count : Nat) : List Delivery := List.replicate count (.answered 0)

theorem lossless_replicate (count : Nat) : Lossless count (lossless count) := by
  refine ⟨Nat.le_of_eq List.length_replicate.symm, fun delivery member => ⟨0, ?_⟩⟩
  exact List.eq_of_mem_replicate member

def blankWorld : World := .powerUp (fun _ => 0xFF) ⟨.defaults, WearLeveling.clearCache⟩

theorem update_written_one_sector :
    ImageWritten default .apps oneSector ⟨blankWorld, lossless 18, []⟩
        (sceneTickHandlerUpdateWriting default .apps oneSector ⟨blankWorld, lossless 18, []⟩) ↔
      oneSector.size.toNat % flashSectorSize = 0 ∧ oneSector.size.toNat < UpdateType.apps.size default := by
  have frames : updateFrames oneSector = 18 := by decide
  have enough : Lossless (updateFrames oneSector) (lossless 18) := by
    rw [frames]
    exact lossless_replicate 18
  exact update_written_iff default .apps oneSector blankWorld (by decide) (by decide) (by decide) enough

/-- An image of one page is read beyond its end. -/
theorem one_page_overread :
    ¬ ImageWritten default .apps ⟨fun _ => 0, 256⟩ ⟨blankWorld, lossless 15, []⟩
      (sceneTickHandlerUpdateWriting default .apps ⟨fun _ => 0, 256⟩ ⟨blankWorld, lossless 15, []⟩) := by
  intro written
  obtain ⟨whole, _⟩ := written.fits (by decide) (by decide) (by decide)
  exact absurd whole (by decide)

end Fruitchip.Menu
