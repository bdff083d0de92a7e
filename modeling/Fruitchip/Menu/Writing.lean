import Fruitchip.Proofs.Session

/-! `scene/settings/update/writing.c`: the menu sends an update to the modchip,
sector by sector. Frames and answers get lost. -/

namespace Fruitchip.Menu
open Embedded Client Firmware

/-- What becomes of a frame and of the answer to it. -/
inductive Delivery where
  /-- The command handlers do not get it. -/
  | lost
  | unanswered
  /-- The answer begins with a number of busy words. -/
  | answered (busy : Nat)
  deriving DecidableEq, Repr

/-- A frame that was sent, what the modchip has to say to it, and its state
afterwards. -/
structure Attempt where
  call : Call
  delivery : Delivery
  reply : Reply
  world : World

/-- The modchip as the menu sees it. The latest attempt comes first. After the
last delivery nothing gets through, as when power is lost. -/
structure Modchip where
  world : World
  deliveries : List Delivery
  history : List Attempt

/-- The firmware runs a command and puts the answer on the bus. -/
def runAnswer (config : Config) (call : Call) (world : World) (busy : Nat) : World × Reply :=
  let (next, events) := runCall config call world
  let answer := call.peek (emit config next.flash busy (.placeholder, 0) events)
  (next, (answer.map (·.1)).getD .failed)

/-- A client function: send one frame, read the answer. -/
def Modchip.send (config : Config) (call : Call) (modchip : Modchip) : Reply × Modchip :=
  let after (delivery : Delivery) (next : World × Reply) : Modchip :=
    ⟨next.1, modchip.deliveries.tail, ⟨call, delivery, next.2, next.1⟩ :: modchip.history⟩
  match modchip.deliveries.head? with
  | none | some .lost => (.failed, after .lost (modchip.world, .failed))
  | some .unanswered => (.failed, after .unanswered (runAnswer config call modchip.world 0))
  | some (.answered busy) =>
    let next := runAnswer config call modchip.world busy
    (next.2, after (.answered busy) next)

/-- The `_with_retry` functions that return nothing but success. -/
def Modchip.sendWithRetry (config : Config) (call : Call) (modchip : Modchip) : Bool × Modchip :=
  withRetry (fun _ modchip =>
    let (reply, modchip) := modchip.send config call
    (reply.isOk, modchip)) modchipCmdRetries 0 modchip

/-- `modchip_get_flash_sector_size_with_retry`, with what is stored at its argument. -/
def Modchip.getFlashSectorSizeWithRetry (config : Config) (modchip : Modchip) (sectorSize : U32) :
    Bool × Modchip × U32 :=
  withRetry (fun _ (modchip, sectorSize) =>
    let (reply, modchip) := modchip.send config .getFlashSectorSize
    match reply with
    | .data bytes => (true, modchip, wordOf bytes 0)
    | other => (other.isOk, modchip, sectorSize)) modchipCmdRetries 0 (modchip, sectorSize)

/-- `state->update_type`. -/
inductive UpdateType where
  | fw
  | apps
  deriving DecidableEq, Repr

def UpdateType.partitionIdx : UpdateType → U8
  | .fw => modchipPartitionIdxFwUpdate
  | .apps => modchipPartitionIdxApps

/-- The statics `update` and `size`: memory from `update` on. Only the first
`size` bytes of it belong to the update. -/
structure Update where
  byte : Nat → U8
  size : U32

def flashEraseByte : U8 := 0xFF

/-- Copying to the start of a buffer. -/
def memcpy (dst src : List U8) : List U8 := src ++ dst.drop src.length

/-- The positions behind `update` that a sector is copied from. -/
def updateSectorReads (offset sectorSize : U32) : List Nat := (List.range sectorSize.toNat).map (offset.toNat + ·)

/-- The buffer `sector`. -/
def updateSector (update : Update) (offset sectorSize : U32) : List U8 :=
  let wholeSector := offset + sectorSize ≤ update.size
  -- what `malloc` returns is all overwritten
  let sector : List U8 := List.replicate sectorSize.toNat 0
  let sector := if wholeSector then sector else List.replicate sectorSize.toNat flashEraseByte
  memcpy sector ((updateSectorReads offset sectorSize).map update.byte)

def writeUpdateSector (config : Config) (partitionIdx : U8) (update : Update) (offset sectorSize : U32)
    (modchip : Modchip) : Bool × Modchip :=
  let sectorIdx := offset / sectorSize
  -- the modchip knows one sector size only
  if whole : (updateSector update offset sectorSize).length = flashSectorSize then
    modchip.sendWithRetry config (.writeFlashSector partitionIdx sectorIdx ⟨updateSector update offset sectorSize, whole⟩)
  else (false, modchip)

theorem writeUpdateSector_whole (config : Config) (partitionIdx : U8) {update : Update} {offset sectorSize : U32}
    (whole : (updateSector update offset sectorSize).length = flashSectorSize) (modchip : Modchip) :
    writeUpdateSector config partitionIdx update offset sectorSize modchip =
      modchip.sendWithRetry config (.writeFlashSector partitionIdx (offset / sectorSize) ⟨_, whole⟩) :=
  dif_pos whole

theorem Modchip.send_deliveries (config : Config) (call : Call) (modchip : Modchip) :
    (modchip.send config call).2.deliveries = modchip.deliveries.tail := by
  unfold Modchip.send
  dsimp only
  split <;> rfl

theorem Modchip.send_silent (config : Config) (call : Call) {modchip : Modchip} (nothing : modchip.deliveries = []) :
    (modchip.send config call).1 = .failed := by
  unfold Modchip.send
  rw [nothing]
  rfl

theorem Modchip.sendWithRetry_deliveries (config : Config) (call : Call) (modchip : Modchip)
    (sent : (modchip.sendWithRetry config call).1 = true) :
    (modchip.sendWithRetry config call).2.deliveries.length < modchip.deliveries.length := by
  have spent : Leads (fun other => other.deliveries.length ≤ modchip.deliveries.length)
      (fun other => other.deliveries.length < modchip.deliveries.length) (modchip.sendWithRetry config call) := by
    refine withRetry_leads (fun _ other bound => ?_) modchipCmdRetries 0 (Nat.le_refl _)
    have length := congrArg List.length (other.send_deliveries config call)
    rw [List.length_tail] at length
    constructor
    · intro done
      have some : other.deliveries ≠ [] := by
        intro nothing
        have silent := congrArg Reply.isOk (Modchip.send_silent config call nothing)
        exact Bool.false_ne_true (silent.symm.trans done)
      have positive := List.length_pos_iff.mpr some
      show (other.send config call).2.deliveries.length < modchip.deliveries.length
      omega
    · intro _
      show (other.send config call).2.deliveries.length ≤ modchip.deliveries.length
      omega
  exact spent.succeeded sent

theorem writeUpdateSector_deliveries {config : Config} {partitionIdx : U8} {update : Update} {offset sectorSize : U32}
    {modchip : Modchip} (written : (writeUpdateSector config partitionIdx update offset sectorSize modchip).1 = true) :
    (writeUpdateSector config partitionIdx update offset sectorSize modchip).2.deliveries.length <
      modchip.deliveries.length := by
  unfold writeUpdateSector at written ⊢
  dsimp only at written ⊢
  split at written
  next whole =>
    rw [dif_pos whole]
    exact Modchip.sendWithRetry_deliveries config _ modchip written
  · cases written

/-- The loop over `current_offset`. -/
def writeSectors (config : Config) (partitionIdx : U8) (update : Update) (sectorSize currentOffset : U32)
    (modchip : Modchip) : Bool × Modchip :=
  if currentOffset < update.size then
    if (writeUpdateSector config partitionIdx update currentOffset sectorSize modchip).1 = true then
      writeSectors config partitionIdx update sectorSize (currentOffset + sectorSize)
        (writeUpdateSector config partitionIdx update currentOffset sectorSize modchip).2
    else writeUpdateSector config partitionIdx update currentOffset sectorSize modchip
  else (true, modchip)
termination_by modchip.deliveries.length
decreasing_by
  next written => exact writeUpdateSector_deliveries written

/-- The body of the tick handler down to `exit`. It fails with the text of a
message, and otherwise switches to the rebooting scene. -/
def writeUpdate (config : Config) (partitionIdx : U8) (update : Update) (modchip : Modchip) :
    Except String Unit × Modchip :=
  let (unlocked, modchip) := modchip.sendWithRetry config (.setWriteLock false)
  if ¬ unlocked then (.error "Failed to unlock the write lock", modchip) else
  let (erased, modchip) := modchip.sendWithRetry config (.eraseFlashSector partitionIdx 0 1)
  if ¬ erased then (.error "Failed to erase first sector", modchip) else
  let (known, modchip, sectorSize) := modchip.getFlashSectorSizeWithRetry config 0
  if ¬ known then (.error "Failed to get flash sector size", modchip) else
  -- start from second sector
  let (written, modchip) := writeSectors config partitionIdx update sectorSize sectorSize modchip
  if ¬ written then (.error "Failed to write flash sector", modchip) else
  -- first sector
  let (written, modchip) := writeUpdateSector config partitionIdx update 0 sectorSize modchip
  if ¬ written then (.error "Failed to write flash sector", modchip) else
  (.ok (), modchip)

def sceneTickHandlerUpdateWriting (config : Config) (updateType : UpdateType) (update : Update) (modchip : Modchip) :
    Except String Unit × Modchip :=
  let (result, modchip) := writeUpdate config updateType.partitionIdx update modchip
  let (_, modchip) := modchip.sendWithRetry config (.setWriteLock true)
  (result, modchip)

end Fruitchip.Menu
