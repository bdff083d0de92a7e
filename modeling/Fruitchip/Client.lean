import Fruitchip.Board
import Fruitchip.Cmd

/-! The client functions of `modchip/*.h`: what each call pokes into the bus and
how it reads the answer. -/

namespace Fruitchip.Client
open Embedded

/-! `io.h`. -/

def pokeU8 (byte : U8) : List U8 := [byte]

def pokeU16 (v : U16) : List U8 := bytes16 v

def pokeU32 (v : U32) : List U8 := bytes32 v

/-- Reading from the bus. It fails when the modchip has nothing left to send. -/
abbrev Peek (α : Type) := StateT (List U8) Option α

def peekU8 : Peek U8 := fun bus =>
  match bus with
  | byte :: bus => some (byte, bus)
  | [] => none

def peekU32 : Peek U32 := fun bus =>
  match bus with
  | b0 :: b1 :: b2 :: b3 :: bus => some (le32 b0 b1 b2 b3, bus)
  | _ => none

def peekMany {α : Type} (peek : Peek α) : Nat → Peek (List α)
  | 0 => pure []
  | count + 1 => do
    let first ← peek
    let rest ← peekMany peek count
    pure (first :: rest)

/-- `modchip_peek_n`: whole words first, then the bytes that are left. -/
def peekN (size : Nat) : Peek (List U8) := do
  let words ← peekMany peekU32 (size / 4)
  let bytes ← peekMany peekU8 (size % 4)
  pure (words.flatMap bytes32 ++ bytes)

/-- What `BOOT_ROM_ADDR` reads as while no modchip answers. -/
def bootRomAddrValue : U32 := 0

/-- The loop that skips busy words: the value of the first other word is OK. -/
def peekWhileBusy : Peek Bool
  | b0 :: b1 :: b2 :: b3 :: bus =>
    let r := le32 b0 b1 b2 b3
    if r = modchipCmdResultBusy then peekWhileBusy bus else some (r = modchipCmdResultOk, bus)
  | _ => none

/-- The buffer passed to `modchip_write_flash_sector`. -/
structure Sector where
  bytes : List U8
  whole : bytes.length = flashSectorSize

/-- The calls with their arguments. Enumerations travel as one byte. -/
inductive Call where
  | stage3Read (offset size : U32) (withCrc : Bool)
  | appsRead (offset size : U32) (appIdx : U8) (withCrc : Bool)
  | getPartitionSize (idx : U8)
  | getFlashSectorSize
  | setWriteLock (lock : Bool)
  | writeFlashSector (partitionIdx : U8) (sectorIdx : U32) (sector : Sector)
  | eraseFlashSector (partitionIdx : U8) (sectorIdx sectorCount : U32)
  | reboot (mode : U8)
  | settingsGet (key : U16)
  | settingsSet (key : U16) (value : U32)
  | pinConfig (pin : U8)
  | fwGitRev
  | bootloaderGitRev

/-- The bytes of a call in the order they are poked. -/
def Call.poked : Call → List U8
  | .stage3Read offset size withCrc =>
    pokeU32 Cmd.readEeStage3.code ++ pokeU32 offset ++ pokeU32 (offset ^^^ 0xFFFFFFFF) ++
      pokeU32 size ++ pokeU32 (size ^^^ 0xFFFFFFFF) ++
      pokeU8 (boolByte withCrc) ++ pokeU8 (boolByte withCrc ^^^ 0xFF)
  | .appsRead offset size appIdx withCrc =>
    pokeU32 Cmd.readApp.code ++ pokeU8 appIdx ++ pokeU8 (appIdx ^^^ 0xFF) ++
      pokeU32 offset ++ pokeU32 (offset ^^^ 0xFFFFFFFF) ++
      pokeU32 size ++ pokeU32 (size ^^^ 0xFFFFFFFF) ++
      pokeU8 (boolByte withCrc) ++ pokeU8 (boolByte withCrc ^^^ 0xFF)
  | .getPartitionSize idx =>
    pokeU32 Cmd.getPartitionSize.code ++ pokeU8 idx ++ pokeU8 (idx ^^^ 0xFF)
  | .getFlashSectorSize => pokeU32 Cmd.getFlashSectorSize.code
  | .setWriteLock lock =>
    pokeU32 Cmd.writeLock.code ++ pokeU8 (boolByte lock) ++ pokeU8 (boolByte lock ^^^ 0xFF)
  | .writeFlashSector partitionIdx sectorIdx sector =>
    let sectorCrc := crc32 sector.bytes
    pokeU32 Cmd.writeFlashSector.code ++ pokeU8 partitionIdx ++ pokeU8 (partitionIdx ^^^ 0xFF) ++
      pokeU32 sectorIdx ++ pokeU32 (sectorIdx ^^^ 0xFFFFFFFF) ++
      pokeU32 sectorCrc ++ pokeU32 (sectorCrc ^^^ 0xFFFFFFFF) ++ sector.bytes
  | .eraseFlashSector partitionIdx sectorIdx sectorCount =>
    pokeU32 Cmd.eraseFlashSector.code ++ pokeU8 partitionIdx ++ pokeU8 (partitionIdx ^^^ 0xFF) ++
      pokeU32 sectorIdx ++ pokeU32 (sectorIdx ^^^ 0xFFFFFFFF) ++
      pokeU32 sectorCount ++ pokeU32 (sectorCount ^^^ 0xFFFFFFFF)
  | .reboot mode => pokeU32 Cmd.reboot.code ++ pokeU8 mode ++ pokeU8 (mode ^^^ 0xFF)
  | .settingsGet key => pokeU32 Cmd.kvGet.code ++ pokeU16 key ++ pokeU16 (key ^^^ 0xFFFF)
  | .settingsSet key value =>
    pokeU32 Cmd.kvSet.code ++ pokeU16 key ++ pokeU16 (key ^^^ 0xFFFF) ++
      pokeU32 value ++ pokeU32 (value ^^^ 0xFFFFFFFF)
  | .pinConfig pin => pokeU32 Cmd.pinConfig.code ++ pokeU8 pin ++ pokeU8 (pin ^^^ 0xFF)
  | .fwGitRev => pokeU32 Cmd.fwGitRev.code
  | .bootloaderGitRev => pokeU32 Cmd.bootloaderGitRev.code

/-- What a call returns. -/
inductive Reply where
  | ok
  | failed
  | noDevice
  | ioError
  | data (bytes : List U8)
  deriving DecidableEq, Repr

/-- The data of an answer and, if asked for, its checksum. -/
def peekData (size : Nat) (withCrc : Bool) : Peek Reply := do
  let dst ← peekN size
  if withCrc then
    let crcExpected ← peekU32
    pure (if crcExpected = crc32 dst then .data dst else .ioError)
  else pure (.data dst)

/-- The two read functions. -/
def peekRead (size : U32) (withCrc : Bool) : Peek Reply := do
  let r ← peekU32
  if r = bootRomAddrValue then pure .noDevice
  else if r ≠ modchipCmdResultOk then pure .failed
  else peekData size.toNat withCrc

/-- A status word and, when it is OK, `size` bytes with their checksum. -/
def peekChecked (size : Nat) : Peek Reply := do
  let r ← peekU32
  if r ≠ modchipCmdResultOk then pure .failed else peekData size true

def peekStatus : Peek Reply := do
  let r ← peekU32
  pure (if r ≠ modchipCmdResultOk then .failed else .ok)

def peekBusy : Peek Reply := do
  let done ← peekWhileBusy
  pure (if done then .ok else .failed)

/-- How a call reads its answer. -/
def Call.peek : Call → Peek Reply
  | .stage3Read _ size withCrc => peekRead size withCrc
  | .appsRead _ size _ withCrc => peekRead size withCrc
  | .getPartitionSize _ => peekChecked 4
  | .getFlashSectorSize => peekChecked 4
  | .setWriteLock _ => peekStatus
  | .writeFlashSector _ _ _ => peekBusy
  | .eraseFlashSector _ _ _ => peekBusy
  | .reboot _ => peekStatus
  | .settingsGet _ => peekChecked 4
  | .settingsSet _ _ => peekBusy
  | .pinConfig _ => peekChecked 4
  | .fwGitRev => peekChecked 8
  | .bootloaderGitRev => peekChecked 8

/-- What the bus delivers behind a read command: the status word, the bytes of
`modchip_peek_n` and the checksum. -/
structure Answer where
  r : U32
  byte : Nat → U8
  crcExpected : U32

/-- The end of `modchip_stage3_read` and `modchip_apps_read`: what they return,
and what `dst` holds if it was written to. A wrong checksum is only noticed
once it is full. -/
def Answer.read (answer : Answer) (size : U32) (withCrc : Bool) : Reply × Option (List U8) :=
  if answer.r = bootRomAddrValue then (.noDevice, none)
  else if answer.r ≠ modchipCmdResultOk then (.failed, none)
  else
    let dst := (List.range size.toNat).map answer.byte
    if withCrc then (if answer.crcExpected = crc32 dst then .data dst else .ioError, some dst)
    else (.data dst, some dst)

/-- The result zero. -/
def Reply.isOk : Reply → Bool
  | .ok | .data _ => true
  | _ => false

def modchipCmdRetries : Nat := 3

/-- The `_with_retry` functions: the attempts from `attemp` on, until one of
them succeeds. -/
def withRetry {σ : Type} (attempt : Nat → σ → Bool × σ) : (attemps attemp : Nat) → σ → Bool × σ
  | 0, _, state => (false, state)
  | attemps + 1, attemp, state =>
    let (done, state) := attempt attemp state
    if done then (true, state) else withRetry attempt attemps (attemp + 1) state

theorem withRetry_preserves {σ : Type} {holds : σ → Prop} {attempt : Nat → σ → Bool × σ}
    (preserved : ∀ attemp state, holds state → holds (attempt attemp state).2) (attemps attemp : Nat) {state : σ}
    (start : holds state) : holds (withRetry attempt attemps attemp state).2 := by
  induction attemps generalizing attemp state with
  | zero => exact start
  | succ attemps ih =>
    simp only [withRetry]
    split
    · exact preserved attemp state start
    · exact ih _ (preserved attemp state start)

/-- What holds after success, and what after failure. -/
structure Leads {σ : Type} (before after : σ → Prop) (result : Bool × σ) : Prop where
  succeeded : result.1 = true → after result.2
  failed : ¬ result.1 = true → before result.2

/-- Attempts that fail leave things as they were. -/
theorem withRetry_leads {σ : Type} {before after : σ → Prop} {attempt : Nat → σ → Bool × σ}
    (leads : ∀ attemp state, before state → Leads before after (attempt attemp state))
    (attemps attemp : Nat) {state : σ} (start : before state) :
    Leads before after (withRetry attempt attemps attemp state) := by
  induction attemps generalizing attemp state with
  | zero => exact ⟨nofun, fun _ => start⟩
  | succ attemps ih =>
    have first := leads attemp state start
    rw [withRetry]
    dsimp only
    split
    next done => exact ⟨fun _ => first.succeeded done, fun failed => False.elim (failed rfl)⟩
    next failed => exact ih _ (first.failed failed)

theorem withRetry_related {σ τ : Type} {related : σ → τ → Prop} {attempt : Nat → σ → Bool × σ}
    {other : Nat → τ → Bool × τ}
    (alike : ∀ attemp s t, related s t → (attempt attemp s).1 = (other attemp t).1 ∧
      related (attempt attemp s).2 (other attemp t).2) (attemps attemp : Nat) {s : σ} {t : τ}
    (start : related s t) : (withRetry attempt attemps attemp s).1 = (withRetry other attemps attemp t).1 ∧
      related (withRetry attempt attemps attemp s).2 (withRetry other attemps attemp t).2 := by
  induction attemps generalizing attemp s t with
  | zero => exact ⟨rfl, start⟩
  | succ attemps ih =>
    obtain ⟨same, next⟩ := alike attemp s t start
    simp only [withRetry, ← same]
    split
    · exact ⟨rfl, next⟩
    · exact ih _ next

/-- Everything that can answer a call: the answer of each attempt. -/
abbrev Answers := Call → Nat → Answer

/-- `modchip_apps_read_with_retry`, with a way to store bytes at `dst`. -/
def modchipAppsReadWithRetry {σ : Type} (answers : Answers) (offset size : U32) (appIdx : U8)
    (store : σ → List U8 → σ) (withCrc : Bool) (attemps : Nat) (dst : σ) : Bool × σ :=
  withRetry (fun attemp dst =>
    let (reply, filled) := (answers (.appsRead offset size appIdx withCrc) attemp).read size withCrc
    (reply.isOk, filled.elim dst (store dst))) attemps 0 dst

end Fruitchip.Client
