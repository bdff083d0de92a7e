import Fruitchip.Menu.PinConfig
import Fruitchip.Menu.State

/-! `scene/settings/update/checking.c`: an update file is read, block by block,
and tested before anything is written. -/

namespace Fruitchip.Menu
open Embedded Client Firmware

/-! `uf2.h`. -/

/-- `struct UF2_Block` without its two counters. -/
structure Uf2Block where
  magicStart0 : U32
  magicStart1 : U32
  flags : U32
  targetAddr : U32
  payloadSize : U32
  /-- Or the family. -/
  fileSize : U32
  data : List U8
  magicEnd : U32

def uf2BlockSize : Nat := 512

def uf2MagicStart0 : U32 := 0x0A324655

def uf2MagicStart1 : U32 := 0x9E5D5157

def uf2MagicEnd : U32 := 0x0AB16F30

def uf2FlagFamilyIdPresent : U32 := 0x00002000

def uf2FamilyIdRp2040 : U32 := 0xe48bff56

def Uf2Block.ofBytes (bytes : List U8) : Uf2Block where
  magicStart0 := wordOf bytes 0
  magicStart1 := wordOf bytes 4
  flags := wordOf bytes 8
  targetAddr := wordOf bytes 12
  payloadSize := wordOf bytes 16
  fileSize := wordOf bytes 28
  data := (bytes.drop 32).take 476
  magicEnd := wordOf bytes 508

/-- A file on the mass storage, and which of its blocks `read` delivers as a whole. -/
structure UpdateFile where
  bytes : List U8
  reads : Nat → Bool

/-- The block that `read` delivers next, after a number of them. -/
def UpdateFile.block (file : UpdateFile) (index : Nat) : Uf2Block :=
  .ofBytes ((file.bytes.drop (uf2BlockSize * index)).take uf2BlockSize)

/-- How one `modchip_get_partition_size` ends. A failed one can leave any value
behind. -/
inductive SizeQuery where
  | ok
  | failed (left : Option U32)
  deriving DecidableEq, Repr

/-- All that the handler finds: the file, if it opens, memory from what `malloc`
returns on, the three local variables that are not initialised, and the modchip. -/
structure CheckingInputs where
  file : Option UpdateFile
  malloc : Nat → U8
  fwPartitionSize : U32
  updatePartitionSize : U32
  appsPartitionSize : U32
  sizeQueries : U8 → Nat → SizeQuery
  modchipPinConfig : U8 → U32

def blockSize : U32 := 256

/-- The variables of the loop, and memory from `update` on. -/
structure Copy where
  memory : Nat → U8
  updateSize : U32
  lastBlockAddr : U32

/-- `memcpy` to an offset. -/
def store (memory : Nat → U8) (offset : Nat) (src : List U8) : Nat → U8 := fun position =>
  if offset ≤ position ∧ position < offset + src.length then src.getD (position - offset) 0 else memory position

/-- The loop body. -/
def copyBlock (file : UpdateFile) (index : Nat) (copy : Copy) : Except CheckingError Copy :=
  let block := file.block index
  if ¬ file.reads index then .error .read
  else if ¬ (block.magicStart0 = uf2MagicStart0 ∧ block.magicStart1 = uf2MagicStart1 ∧
      block.magicEnd = uf2MagicEnd) then .error .magic
  else if block.flags &&& uf2FlagFamilyIdPresent ≠ 0 ∧ block.fileSize ≠ uf2FamilyIdRp2040 then .error .familyId
  else if blockSize ≠ block.payloadSize then .error .blockSize
  -- zero stands for no block yet
  else if copy.lastBlockAddr ≠ 0 ∧ copy.lastBlockAddr + blockSize ≠ block.targetAddr then .error .notLinear
  else .ok {
    memory := store copy.memory copy.updateSize.toNat (block.data.take block.payloadSize.toNat)
    updateSize := copy.updateSize + block.payloadSize
    lastBlockAddr := block.targetAddr }

/-- The loop from a block on. -/
def copyBlocks (file : UpdateFile) : (blocks index : Nat) → Copy → Except CheckingError Copy
  | 0, _, copy => .ok copy
  | blocks + 1, index, copy => (copyBlock file index copy).bind (copyBlocks file blocks (index + 1))

/-- The size in a `u32`. -/
def UpdateFile.size (file : UpdateFile) : U32 := BitVec.ofNat 32 file.bytes.length

def readUpdate (file : UpdateFile) (malloc : Nat → U8) : Except CheckingError Copy :=
  if file.size % BitVec.ofNat 32 uf2BlockSize ≠ 0 then .error .fileSize
  else copyBlocks file (file.size.toNat / uf2BlockSize) 0 ⟨malloc, 0, 0⟩

/-- The result, and the variable behind the pointer. -/
def modchipGetPartitionSize (config : Config) (idx : U8) : SizeQuery → U32 → Bool × U32
  | .ok, _ => (true, partitionSize config idx)
  | .failed left, flashSize => (false, left.getD flashSize)

def modchipGetPartitionSizeWithRetry (config : Config) (queries : Nat → SizeQuery) (idx : U8) (flashSize : U32) :
    Bool × U32 :=
  withRetry (fun attemp => modchipGetPartitionSize config idx (queries attemp)) modchipCmdRetries 0 flashSize

def CheckingInputs.partitionSize (inputs : CheckingInputs) (config : Config) (idx : U8) (flashSize : U32) : Bool × U32 :=
  modchipGetPartitionSizeWithRetry config (inputs.sizeQueries idx) idx flashSize

def checkSpace (config : Config) (updateType : UpdateType) (updateSize : U32) (inputs : CheckingInputs) :
    Except CheckingError Unit :=
  let (done, fwPartitionSize) := inputs.partitionSize config modchipPartitionIdxFw inputs.fwPartitionSize
  let failed := !done
  let (done, updatePartitionSize) :=
    inputs.partitionSize config modchipPartitionIdxFwUpdate inputs.updatePartitionSize
  let failed := failed || !done
  let (done, appsPartitionSize) := inputs.partitionSize config modchipPartitionIdxApps inputs.appsPartitionSize
  -- the third result replaces the first two
  let _ := failed
  let failed := !done
  if failed then .error .partitionSize
  else if (updateType = .fw ∧ (fwPartitionSize < updateSize ∨ updatePartitionSize < updateSize)) ∨
      (updateType = .apps ∧ appsPartitionSize < updateSize) then .error .space
  else .ok ()

def checkPins (info : BinaryInfo) (memory : Nat → U8) (inputs : CheckingInputs) : Option (Except CheckingError Unit) :=
  let current := pinConfigGetCurrent inputs.modchipPinConfig
  if ¬ current.all then some (.error .pinConfiguration)
  else
    (pinConfigGetFromUpdate info (fun address => memory address.toNat) .none).map fun update =>
      if update.all ∧ current.union ≠ update.union then .error .pinMismatch else .ok ()

/-- It fails with the text of a message, and otherwise hands the image over to
the writing scene. `none` is a handler that never returns. -/
def sceneTickHandlerUpdateChecking (config : Config) (info : BinaryInfo) (updateType : UpdateType) (inputs : CheckingInputs) :
    Option (Except CheckingError Update) :=
  match inputs.file with
  | none => some (.error .open)
  | some file =>
    match readUpdate file inputs.malloc with
    | .error error => some (.error error)
    | .ok copy =>
      match checkSpace config updateType copy.updateSize inputs with
      | .error error => some (.error error)
      | .ok _ =>
        let pins := if updateType = .fw then checkPins info copy.memory inputs else some (.ok ())
        pins.map fun checked => checked.map fun _ => ⟨copy.memory, copy.updateSize⟩

end Fruitchip.Menu
