import Fruitchip.Cmd
import Fruitchip.Settings
import Fruitchip.Library.Mealy

/-! The state of the write-side command parser: the current handler, the byte
counter, the static variables of every handler, and the world the handlers act
on. What a handler does to the hardware is recorded as events, in order. -/

namespace Fruitchip.Firmware
open Embedded

/-- A pointer passed to the data-out functions: a static four-byte object with
the value it holds, one of the linked objects, or an address in flash. -/
inductive DataRef where
  | word (value : U32)
  | eeStage1
  | iopStage1
  | gitRev
  | bootloaderGitRev
  | placeholder
  | xip (address : U32)
  deriving DecidableEq, Repr

/-- The call that a settings command makes, with its converted argument. -/
inductive Setter where
  | menuAutoboot (value : Bool)
  | menuAutobootDelaySec (value : U16)
  | menuAutobootItemIdx (value : U16)
  | menuOsdsysOptions (value : U8)
  deriving DecidableEq, Repr

inductive Event where
  | startStatusCode (statusCode : U32)
  | startDataWithStatusCode (statusCode : U32) (readAddr : DataRef) (transferCount : U32) (crc : Bool)
  | setData (readAddr : DataRef) (transferCount : U32)
  | startDataWithoutStatusCode (crc : Bool)
  | startBusyCode
  | stopBusyCode (statusCode : U32)
  | dmaCrc32 (data : List U8)
  | flash (op : FlashOp)
  | settingsSet (setter : Setter)
  | setFlashWriteLock (value : Bool)
  | setScratch0 (value : U32)
  | watchdogReboot
  deriving DecidableEq, Repr

/-- Everything the commands can read or change outside the parser. -/
structure World where
  flash : Flash
  flashWriteLock : Bool
  settings : SettingsState
  disableNextOsdsysHook : Bool
  scratch0 : U32
  rebooting : Bool

/-- The file-level statics of `write/flash.c`. -/
structure FlashStatics where
  partitionIdx : U8
  partitionIdxXor : U8
  sectorIdx : U32
  sectorIdxXor : U32
  sectorCrc : U32
  sectorCrcXor : U32
  sectorCount : U32
  sectorCountXor : U32
  /-- The buffer of `write_flash_sector`. -/
  sector : Nat → U8

structure WriteLockStatics where
  value : U8
  valueXor : U8

structure RebootStatics where
  mode : U8
  modeXor : U8

structure PinConfigStatics where
  idx : U8
  idxXor : U8

structure KvGetStatics where
  idx : U16
  idxXor : U16

structure KvSetStatics where
  idx : U16
  idxXor : U16
  value : U32
  valueXor : U32

/-- The statics of `write/get_payload.c`. -/
structure Stage3Statics where
  readOffset : U32
  readOffsetXor : U32
  readSize : U32
  readSizeXor : U32
  withCrc : Bool

/-- The statics of `write/read_app.c`. -/
structure ReadAppStatics where
  readOffset : U32
  readOffsetXor : U32
  readSize : U32
  readSizeXor : U32
  appIdx : U8
  appIdxXor : U8
  withCrc : Bool
  isValidAppsPartition : Bool
  isValidReadOffset : Bool
  isValidReadSize : Bool
  isValidAppIdx : Bool
  readAddr : U32

structure Statics where
  flash : FlashStatics
  writeLock : WriteLockStatics
  reboot : RebootStatics
  pinConfig : PinConfigStatics
  kvGet : KvGetStatics
  kvSet : KvSetStatics
  stage3 : Stage3Statics
  readApp : ReadAppStatics

/-- `write_handler`: the function that receives the next byte. -/
inductive Handler where
  | idle
  | cmd
  | cmdGroup0
  | cmdGroup1
  | command (cmd : Cmd)
  | readEeStage3
  | readAppsPartition
  | eraseFlashSector
  | writeFlashSector
  deriving DecidableEq, Repr

structure FirmwareState where
  writeHandler : Handler
  cmdByteCounter : Nat
  statics : Statics
  world : World

/-- Zero-initialised statics. -/
def Statics.zero : Statics where
  flash := ⟨0, 0, 0, 0, 0, 0, 0, 0, fun _ => 0⟩
  writeLock := ⟨0, 0⟩
  reboot := ⟨0, 0⟩
  pinConfig := ⟨0, 0⟩
  kvGet := ⟨0, 0⟩
  kvSet := ⟨0, 0, 0, 0⟩
  stage3 := ⟨0, 0, 0, 0, false⟩
  readApp := ⟨0, 0, 0, 0, 0, 0, false, false, false, false, false, 0⟩

/-- The world when the bus comes up: `settings_init` has run, flash is locked. -/
def World.powerUp (flash : Flash) (settings : SettingsState) : World where
  flash
  flashWriteLock := true
  settings
  disableNextOsdsysHook := false
  scratch0 := 0
  rebooting := false

def FirmwareState.powerUp (flash : Flash) (settings : SettingsState) : FirmwareState where
  writeHandler := .idle
  cmdByteCounter := 0
  statics := .zero
  world := .powerUp flash settings

end Fruitchip.Firmware
