import Fruitchip.Apps
import Fruitchip.Library.Crc
import Fruitchip.Firmware.State

/-! The handlers of `boot_rom/write`, one definition for each. All command
handlers are a switch over the byte counter with the same skeleton: case 3
checks the last opcode byte, each later case stores one argument byte, and the
last of them runs the command. -/

namespace Fruitchip.Firmware
open Embedded

/-- What one case of a switch does with the byte it receives. -/
abbrev Store := World → U8 → Statics → Statics

/-- What a command does once its last argument byte is stored. -/
abbrev Body := Statics → World → World × List Event

/-- A command handler: its cases from 4 on, the code behind the last of them,
and the handler that this code leaves in `write_handler`. -/
structure Switch where
  cmd : Cmd
  stores : List Store
  body : Body
  next : Handler

def toIdle (firmware : FirmwareState) : FirmwareState × List Event :=
  ({ firmware with writeHandler := .idle }, [])

def Switch.finish (switch : Switch) (firmware : FirmwareState) : FirmwareState × List Event :=
  let (world, events) := switch.body firmware.statics firmware.world
  ({ firmware with writeHandler := switch.next, world }, events)

def Switch.handle (switch : Switch) (firmware : FirmwareState) (w : U8) : FirmwareState × List Event :=
  let firmware := { firmware with cmdByteCounter := firmware.cmdByteCounter + 1 }
  if firmware.cmdByteCounter < 3 then toIdle firmware
  else if firmware.cmdByteCounter = 3 then
    if w ≠ switch.cmd.getByte 3 then toIdle firmware
    else if switch.stores.isEmpty then switch.finish firmware
    else (firmware, [])
  else match switch.stores[firmware.cmdByteCounter - 4]? with
    | none => toIdle firmware
    | some store =>
      let firmware := { firmware with statics := store firmware.world w firmware.statics }
      if firmware.cmdByteCounter - 3 = switch.stores.length then switch.finish firmware
      else (firmware, [])

/-! The stores of a multi-byte field: the first byte overwrites whatever the
variable held, the others are or-ed in. -/

def halfwordStores (get : Statics → U16) (set : U16 → Statics → Statics) : List Store :=
  [fun _ w s => set (w.setWidth 16) s,
    fun _ w s => set (orByte (get s) w 1) s]

/-- The cases of a word; `done` is what its last case does besides storing. -/
def wordStoresThen (get : Statics → U32) (set : U32 → Statics → Statics)
    (done : World → Statics → Statics) : List Store :=
  [fun _ w s => set (w.setWidth 32) s,
    fun _ w s => set (orByte (get s) w 1) s,
    fun _ w s => set (orByte (get s) w 2) s,
    fun world w s => done world (set (orByte (get s) w 3) s)]

def wordStores (get : Statics → U32) (set : U32 → Statics → Statics) : List Store :=
  wordStoresThen get set fun _ s => s

def answer (world : World) (statusCode : U32) : World × List Event :=
  (world, [.startStatusCode statusCode])

def answerData (world : World) (readAddr : DataRef) (transferCount : U32) (crc : Bool) :
    World × List Event :=
  (world, [.startDataWithStatusCode modchipCmdResultOk readAddr transferCount crc])

/-! `test.c`. -/

def handleWriteTestDataOutWithStatusNoDataNoCrc : Switch where
  cmd := .testDataOutWithStatusNoDataNoCrc
  stores := []
  body _ world := answer world modchipCmdResultOk
  next := .idle

def handleWriteTestDataOutWithStatusWithDataNoCrc : Switch where
  cmd := .testDataOutWithStatusWithDataNoCrc
  stores := []
  body _ world := answerData world .placeholder 15 false
  next := .idle

def handleWriteTestDataOutWithStatusWithDataWithCrc : Switch where
  cmd := .testDataOutWithStatusWithDataWithCrc
  stores := []
  body _ world := answerData world .placeholder 15 true
  next := .idle

def handleWriteTestDataOutNoStatusWithDataWithCrc : Switch where
  cmd := .testDataOutNoStatusWithDataWithCrc
  stores := []
  body _ world := (world, [.setData .placeholder 15, .startDataWithoutStatusCode true])
  next := .idle

def handleWriteTestDataOutNoStatusWithDataNoCrc : Switch where
  cmd := .testDataOutNoStatusWithDataNoCrc
  stores := []
  body _ world := (world, [.setData .placeholder 15, .startDataWithoutStatusCode false])
  next := .idle

def handleWriteTestDataOutBusyCode : Switch where
  cmd := .testDataOutBusy
  stores := []
  body _ world := (world, [.startBusyCode, .stopBusyCode modchipCmdResultOk])
  next := .idle

/-! `patch_control.c`. -/

def handleWriteDisableNextOsdsysHook : Switch where
  cmd := .disableNextOsdsysHook
  stores := []
  body _ world := answer { world with disableNextOsdsysHook := true } modchipCmdResultOk
  next := .idle

/-! `version.c`. -/

def handleWriteFwGitRev : Switch where
  cmd := .fwGitRev
  stores := []
  body _ world := answerData world .gitRev 8 true
  next := .idle

def handleWriteBootloaderGitRev : Switch where
  cmd := .bootloaderGitRev
  stores := []
  body _ world := answerData world .bootloaderGitRev 8 true
  next := .idle

/-! `configuration.c`. -/

/-- The mask that `handle_write_pin_config` answers with, if the pin is known. -/
def pinMask (config : Config) (idx : U8) : Option U32 :=
  if idx = modchipPinBootRomData then
    some ((List.range 8).foldl (fun mask i => mask ||| (1 <<< (config.bootRomQ0Pin + i))) 0)
  else if idx = modchipPinBootRomCe then some (1 <<< config.bootRomCePin)
  else if idx = modchipPinBootRomOe then some (1 <<< config.bootRomOePin)
  else if idx = modchipPinReset then some (1 <<< config.rstPin)
  else none

def pinConfigBody (config : Config) (s : PinConfigStatics) (world : World) : World × List Event :=
  if s.idx ^^^ s.idxXor = 0xFF then
    match pinMask config s.idx with
    | some mask => answerData world (.word mask) 4 true
    | none => answer world modchipCmdResultErr
  else answer world modchipCmdResultErr

def handleWritePinConfig (config : Config) : Switch where
  cmd := .pinConfig
  stores := [
    fun _ w s => { s with pinConfig.idx := w },
    fun _ w s => { s with pinConfig.idxXor := w }]
  body s world := pinConfigBody config s.pinConfig world
  next := .idle

/-! `get_payload.c`. -/

def handleWriteGetEeStage1Size (config : Config) : Switch where
  cmd := .getEeStage1Size
  stores := []
  body _ world := answerData world (.word config.loaderEeStage1Size) 4 false
  next := .idle

def handleWriteGetEeStage2Size (config : Config) : Switch where
  cmd := .getEeStage2Size
  stores := []
  body _ world := answerData world (.word config.loaderEeStage2Size) 4 false
  next := .idle

def handleWriteGetEeStage2 (config : Config) : Switch where
  cmd := .getEeStage2
  stores := []
  body _ world := answerData world (.xip config.loaderEeStage2) config.loaderEeStage2Size true
  next := .idle

/-- A `bool` promoted to `int`, next to a byte. -/
def boolXor (value : Bool) (byte : U8) : U8 := boolByte value ^^^ byte

/-- `read_ee_stage3`: the last byte of the frame is the complement of the flag. -/
def readEeStage3Body (config : Config) (s : Stage3Statics) (w : U8) (world : World) :
    World × List Event :=
  let withCrcXor := w
  let isValidReadOffset :=
    s.readOffset ^^^ s.readOffsetXor = 0xFFFFFFFF ∧ s.readOffset < config.loaderEeStage3Size
  let isValidReadSize := s.readSize ^^^ s.readSizeXor = 0xFFFFFFFF
  let isValidWithCrc := boolXor s.withCrc withCrcXor = 0xFF
  if isValidReadOffset ∧ isValidReadSize ∧ isValidWithCrc then
    answerData world (.xip (config.loaderEeStage3 + s.readOffset)) s.readSize s.withCrc
  else answer world modchipCmdResultErr

def readEeStage3 (config : Config) (firmware : FirmwareState) (w : U8) : FirmwareState × List Event :=
  let (world, events) := readEeStage3Body config firmware.statics.stage3 w firmware.world
  ({ firmware with writeHandler := .idle, world }, events)

def handleWriteReadEeStage3 : Switch where
  cmd := .readEeStage3
  stores :=
    wordStores (·.stage3.readOffset) (fun v s => { s with stage3.readOffset := v }) ++
    wordStores (·.stage3.readOffsetXor) (fun v s => { s with stage3.readOffsetXor := v }) ++
    wordStores (·.stage3.readSize) (fun v s => { s with stage3.readSize := v }) ++
    wordStores (·.stage3.readSizeXor) (fun v s => { s with stage3.readSizeXor := v }) ++
    [fun _ w s => { s with stage3.withCrc := w ≠ 0 }]
  body _ world := (world, [])
  next := .readEeStage3

/-! `read_app.c`. -/

def readAppsPartitionBody (s : ReadAppStatics) (w : U8) (world : World) : World × List Event :=
  let withCrcXor := w
  let isValidWithCrc := boolXor s.withCrc withCrcXor = 0xFF
  if s.isValidAppsPartition ∧ s.isValidReadOffset ∧ s.isValidReadSize ∧ s.isValidAppIdx ∧
      isValidWithCrc then
    answerData world (.xip s.readAddr) s.readSize s.withCrc
  else answer world modchipCmdResultErr

def readAppsPartition (firmware : FirmwareState) (w : U8) : FirmwareState × List Event :=
  let (world, events) := readAppsPartitionBody firmware.statics.readApp w firmware.world
  ({ firmware with writeHandler := .idle, world }, events)

/-! What the last byte of each field decides, while there is still time to
read flash. -/

def ReadAppStatics.checkAppIdx (s : ReadAppStatics) (flash : Flash) : ReadAppStatics :=
  let isValidAppIdx := s.appIdx ^^^ s.appIdxXor = 0xFF ∧
    s.appIdx.setWidth 32 < appsPartitionEntriesCount flash
  { s with isValidAppIdx }

def ReadAppStatics.checkAppsPartition (s : ReadAppStatics) (flash : Flash) : ReadAppStatics :=
  { s with isValidAppsPartition := appsPartitionDetect flash }

def ReadAppStatics.checkReadOffset (s : ReadAppStatics) (flash : Flash) : ReadAppStatics :=
  let isValidReadOffset := s.readOffset ^^^ s.readOffsetXor = 0xFFFFFFFF ∧
    s.readOffset < appsPartitionEntryLength flash (s.appIdx.setWidth 32)
  { s with isValidReadOffset }

def ReadAppStatics.locate (s : ReadAppStatics) (flash : Flash) : ReadAppStatics :=
  { s with readAddr := appsPartitionEntryAddr flash (s.appIdx.setWidth 32) + s.readOffset }

def ReadAppStatics.checkReadSize (s : ReadAppStatics) : ReadAppStatics :=
  let isValidReadSize := s.readSize ^^^ s.readSizeXor = 0xFFFFFFFF
  { s with isValidReadSize }

def handleWriteReadAppsPartition : Switch where
  cmd := .readApp
  stores :=
    [fun _ w s => { s with readApp.appIdx := w },
      fun world w s =>
        let s := { s with readApp.appIdxXor := w }
        { s with readApp := s.readApp.checkAppIdx world.flash }] ++
    wordStoresThen (·.readApp.readOffset) (fun v s => { s with readApp.readOffset := v })
      (fun world s => { s with readApp := s.readApp.checkAppsPartition world.flash }) ++
    wordStoresThen (·.readApp.readOffsetXor) (fun v s => { s with readApp.readOffsetXor := v })
      (fun world s => { s with readApp := s.readApp.checkReadOffset world.flash }) ++
    wordStoresThen (·.readApp.readSize) (fun v s => { s with readApp.readSize := v })
      (fun world s => { s with readApp := s.readApp.locate world.flash }) ++
    wordStoresThen (·.readApp.readSizeXor) (fun v s => { s with readApp.readSizeXor := v })
      (fun _ s => { s with readApp := s.readApp.checkReadSize }) ++
    [fun _ w s => { s with readApp.withCrc := w ≠ 0 }]
  body _ world := (world, [])
  next := .readAppsPartition

/-! `kv.c`. -/

def kvGetResponse (settings : SettingsState) (idx : U16) : U32 :=
  if idx = modchipSettingsMenuAutoboot then
    (boolByte (settingsGetMenuAutoboot settings)).setWidth 32
  else if idx = modchipSettingsMenuAutobootDelay then
    (settingsGetMenuAutobootDelaySec settings).setWidth 32
  else if idx = modchipSettingsMenuAutobootItemIdx then
    (settingsGetMenuAutobootItemIdx settings).setWidth 32
  else (settingsGetMenuOsdsysOptions settings).setWidth 32

def kvGetBody (s : KvGetStatics) (world : World) : World × List Event :=
  let isValidIdx := s.idx ^^^ s.idxXor = 0xFFFF ∧ s.idx < modchipSettingsKeysTotal
  if isValidIdx then answerData world (.word (kvGetResponse world.settings s.idx)) 4 true
  else answer world modchipCmdResultErr

def handleWriteKvGet : Switch where
  cmd := .kvGet
  stores :=
    halfwordStores (·.kvGet.idx) (fun v s => { s with kvGet.idx := v }) ++
    halfwordStores (·.kvGet.idxXor) (fun v s => { s with kvGet.idxXor := v })
  body s world := kvGetBody s.kvGet world
  next := .idle

/-- The setter call of `handle_write_kv_set`, with the value converted to the
type of the setter's parameter. -/
def kvSetter (idx : U16) (value : U32) : Setter :=
  if idx = modchipSettingsMenuAutoboot then .menuAutoboot (value ≠ 0)
  else if idx = modchipSettingsMenuAutobootDelay then .menuAutobootDelaySec (value.setWidth 16)
  else if idx = modchipSettingsMenuAutobootItemIdx then .menuAutobootItemIdx (value.setWidth 16)
  else .menuOsdsysOptions (value.setWidth 8)

def Setter.run (setter : Setter) (settings : SettingsState) : SettingsState × List FlashOp :=
  match setter with
  | .menuAutoboot value => settingsSetMenuAutoboot settings value
  | .menuAutobootDelaySec value => settingsSetMenuAutobootDelaySec settings value
  | .menuAutobootItemIdx value => settingsSetMenuAutobootItemIdx settings value
  | .menuOsdsysOptions value => settingsSetMenuOsdsysOptions settings value

def runSetter (world : World) (setter : Setter) : World × List Event :=
  let (settings, ops) := setter.run world.settings
  ({ world with settings, flash := applyAll ops world.flash },
    .settingsSet setter :: ops.map .flash)

def kvSetBody (s : KvSetStatics) (world : World) : World × List Event :=
  let isValidIdx := s.idx ^^^ s.idxXor = 0xFFFF ∧ s.idx < modchipSettingsKeysTotal
  let isValidReadOffset := s.value ^^^ s.valueXor = 0xFFFFFFFF
  if isValidIdx ∧ isValidReadOffset then
    let (world, events) := runSetter world (kvSetter s.idx s.value)
    (world, .startBusyCode :: events ++ [.stopBusyCode modchipCmdResultOk])
  else answer world modchipCmdResultErr

def handleWriteKvSet : Switch where
  cmd := .kvSet
  stores :=
    halfwordStores (·.kvSet.idx) (fun v s => { s with kvSet.idx := v }) ++
    halfwordStores (·.kvSet.idxXor) (fun v s => { s with kvSet.idxXor := v }) ++
    wordStores (·.kvSet.value) (fun v s => { s with kvSet.value := v }) ++
    wordStores (·.kvSet.valueXor) (fun v s => { s with kvSet.valueXor := v })
  body s world := kvSetBody s.kvSet world
  next := .idle

/-! `flash.c`. -/

def partitionSize (config : Config) (partitionIdx : U8) : U32 :=
  if partitionIdx = modchipPartitionIdxFw then BitVec.ofNat 32 fwPartitionSizeBytes
  else if partitionIdx = modchipPartitionIdxFwUpdate then BitVec.ofNat 32 updatePartitionSizeBytes
  else if partitionIdx = modchipPartitionIdxApps then
    BitVec.ofNat 32 (appsPartitionSizeBytes config.flashSize)
  else 0

def getPartitionSizeBody (config : Config) (s : FlashStatics) (world : World) : World × List Event :=
  let isValidValue := s.partitionIdx ^^^ s.partitionIdxXor = 0xFF ∧ 0 ≤ s.partitionIdx ∧
    s.partitionIdx < modchipPartitionIdxTotal
  if isValidValue then answerData world (.word (partitionSize config s.partitionIdx)) 4 true
  else answer world modchipCmdResultErr

/-- The two stores that every handler with a partition argument begins with. -/
def partitionStores : List Store := [
  fun _ w s => { s with flash.partitionIdx := w },
  fun _ w s => { s with flash.partitionIdxXor := w }]

def handleWriteGetPartitionSize (config : Config) : Switch where
  cmd := .getPartitionSize
  stores := partitionStores
  body s world := getPartitionSizeBody config s.flash world
  next := .idle

def handleWriteGetFlashSectorSize : Switch where
  cmd := .getFlashSectorSize
  stores := []
  body _ world := answerData world (.word (BitVec.ofNat 32 flashSectorSize)) 4 true
  next := .idle

def writeLockBody (s : WriteLockStatics) (world : World) : World × List Event :=
  if s.value ^^^ s.valueXor = 0xFF then
    ({ world with flashWriteLock := s.value ≠ 0 },
      [.setFlashWriteLock (s.value ≠ 0), .startStatusCode modchipCmdResultOk])
  else answer world modchipCmdResultErr

def handleWriteWriteLock : Switch where
  cmd := .writeLock
  stores := [
    fun _ w s => { s with writeLock.value := w },
    fun _ w s => { s with writeLock.valueXor := w }]
  body s world := writeLockBody s.writeLock world
  next := .idle

/-- `flash_offset` and `is_valid_addr` of both sector commands, in wrapping
32-bit arithmetic. Only the first sector is looked at. -/
def sectorAddr (config : Config) (partitionIdx : U8) (sectorIdx : U32) : U32 × Bool :=
  let sectorSize := BitVec.ofNat 32 flashSectorSize
  let offset := sectorIdx * sectorSize
  if partitionIdx = modchipPartitionIdxFwUpdate then
    let base := BitVec.ofNat 32 updatePartitionOffset
    let flashOffset := base + offset
    (flashOffset, flashOffset + sectorSize < base + BitVec.ofNat 32 updatePartitionSizeBytes)
  else if partitionIdx = modchipPartitionIdxApps then
    let base := BitVec.ofNat 32 appsPartitionOffset
    let flashOffset := base + offset
    (flashOffset,
      flashOffset + sectorSize < base + BitVec.ofNat 32 (appsPartitionSizeBytes config.flashSize))
  else (0, false)

/-- `sectorAddr` behind the complement tests of its two arguments. -/
def checkedSectorAddr (config : Config) (s : FlashStatics) : U32 × Bool :=
  let isValidPartitionIdx := s.partitionIdx ^^^ s.partitionIdxXor = 0xFF
  let isValidSectorIdx := s.sectorIdx ^^^ s.sectorIdxXor = 0xFFFFFFFF
  if isValidPartitionIdx ∧ isValidSectorIdx then sectorAddr config s.partitionIdx s.sectorIdx
  else (0, false)

def FlashStatics.sectorBytes (s : FlashStatics) : List U8 := (List.range flashSectorSize).map s.sector

/-- `dma_crc32` as the sniffer computes it. -/
def dmaCrc32 (data : List U8) (crc : U32) : U32 := Crc.crc32 crc data

/-- The end of `write_flash_sector`, once the buffer is full. -/
def writeFlashSectorBody (config : Config) (s : FlashStatics) (world : World) : World × List Event :=
  let (flashOffset, isValidAddr) := checkedSectorAddr config s
  let isComplementCrc := s.sectorCrc ^^^ s.sectorCrcXor = 0xFFFFFFFF
  let sector := s.sectorBytes
  -- the helper runs only behind the `&&`
  let crcEvents := if isComplementCrc then [Event.dmaCrc32 sector] else []
  let isValidBlockCrc := isComplementCrc ∧ dmaCrc32 sector 0xFFFFFFFF = s.sectorCrc
  if world.flashWriteLock = false ∧ isValidAddr ∧ isValidBlockCrc then
    let isEq := xipBytes world.flash (xipBase + flashOffset) flashSectorSize = sector
    let ops := if isEq then [] else
      [.rangeErase flashOffset.toNat flashSectorSize, .rangeProgram flashOffset.toNat sector]
    ({ world with flash := applyAll ops world.flash },
      .startBusyCode :: crcEvents ++ ops.map .flash ++ [.stopBusyCode modchipCmdResultOk])
  else (world, .startBusyCode :: crcEvents ++ [.stopBusyCode modchipCmdResultErr])

def writeFlashSector (config : Config) (firmware : FirmwareState) (w : U8) : FirmwareState × List Event :=
  let firmware := { firmware with cmdByteCounter := firmware.cmdByteCounter + 1 }
  let counter := firmware.cmdByteCounter
  if 22 ≤ counter ∧ counter ≤ flashSectorSize + 22 - 1 then
    let sector := firmware.statics.flash.sector
    let firmware := { firmware with statics.flash.sector := fun index =>
      if index = counter - 22 then w else sector index }
    if counter = flashSectorSize + 22 - 1 then
      let (world, events) := writeFlashSectorBody config firmware.statics.flash firmware.world
      ({ firmware with writeHandler := .idle, world }, events)
    else (firmware, [])
  else toIdle firmware

def sectorIdxStores : List Store :=
  wordStores (·.flash.sectorIdx) (fun v s => { s with flash.sectorIdx := v }) ++
  wordStores (·.flash.sectorIdxXor) (fun v s => { s with flash.sectorIdxXor := v })

def handleWriteWriteFlashSector : Switch where
  cmd := .writeFlashSector
  stores := partitionStores ++ sectorIdxStores ++
    wordStores (·.flash.sectorCrc) (fun v s => { s with flash.sectorCrc := v }) ++
    wordStores (·.flash.sectorCrcXor) (fun v s => { s with flash.sectorCrcXor := v })
  body _ world := (world, [])
  next := .writeFlashSector

/-- The body of `erase_flash_sector` at byte 21. -/
def eraseFlashSectorBody (config : Config) (s : FlashStatics) (world : World) : World × List Event :=
  let (flashOffset, isValidAddr) := checkedSectorAddr config s
  let isValidSectorCount := s.sectorCount ^^^ s.sectorCountXor = 0xFFFFFFFF
  if world.flashWriteLock = false ∧ isValidAddr ∧ isValidSectorCount then
    let sectorsSize := s.sectorCount * BitVec.ofNat 32 flashSectorSize
    -- only the first sector decides whether anything is erased
    let isSectorEmpty := (xipBytes world.flash (xipBase + flashOffset) flashSectorSize).all (· = 0xFF)
    let ops := if isSectorEmpty then [] else [.rangeErase flashOffset.toNat sectorsSize.toNat]
    ({ world with flash := applyAll ops world.flash },
      .startBusyCode :: ops.map .flash ++ [.stopBusyCode modchipCmdResultOk])
  else (world, [.startBusyCode, .stopBusyCode modchipCmdResultErr])

def eraseFlashSector (config : Config) (firmware : FirmwareState) (w : U8) : FirmwareState × List Event :=
  let firmware := { firmware with cmdByteCounter := firmware.cmdByteCounter + 1 }
  if firmware.cmdByteCounter = 21 then
    let firmware := { firmware with
      statics.flash.sectorCountXor := orByte firmware.statics.flash.sectorCountXor w 3 }
    let (world, events) := eraseFlashSectorBody config firmware.statics.flash firmware.world
    ({ firmware with writeHandler := .idle, world }, events)
  else toIdle firmware

def handleWriteEraseFlashSector : Switch where
  cmd := .eraseFlashSector
  stores := partitionStores ++ sectorIdxStores ++
    wordStores (·.flash.sectorCount) (fun v s => { s with flash.sectorCount := v }) ++
    -- the last byte of the complement goes to `erase_flash_sector`
    (wordStores (·.flash.sectorCountXor) (fun v s => { s with flash.sectorCountXor := v })).take 3
  body _ world := (world, [])
  next := .eraseFlashSector

def rebootBody (s : RebootStatics) (world : World) : World × List Event :=
  let isValidValue := s.mode ^^^ s.modeXor = 0xFF ∧ 0 ≤ s.mode ∧ s.mode < modchipRebootModeTotal
  if isValidValue then
    let isUpdate := s.mode = modchipRebootModeUpdate
    let scratch0 := if isUpdate then modchipUpdateMagic else world.scratch0
    ({ world with scratch0, rebooting := true },
      (if isUpdate then [.setScratch0 modchipUpdateMagic] else []) ++
        [.startStatusCode modchipCmdResultOk, .watchdogReboot])
  else answer world modchipCmdResultErr

def handleWriteReboot : Switch where
  cmd := .reboot
  stores := [
    fun _ w s => { s with reboot.mode := w },
    fun _ w s => { s with reboot.modeXor := w }]
  body s world := rebootBody s.reboot world
  next := .idle

/-! `idle.c`. -/

/-- The handler that belongs to a command. -/
def switchOf (config : Config) : Cmd → Switch
  | .testDataOutWithStatusNoDataNoCrc => handleWriteTestDataOutWithStatusNoDataNoCrc
  | .testDataOutWithStatusWithDataNoCrc => handleWriteTestDataOutWithStatusWithDataNoCrc
  | .testDataOutWithStatusWithDataWithCrc => handleWriteTestDataOutWithStatusWithDataWithCrc
  | .testDataOutNoStatusWithDataWithCrc => handleWriteTestDataOutNoStatusWithDataWithCrc
  | .testDataOutNoStatusWithDataNoCrc => handleWriteTestDataOutNoStatusWithDataNoCrc
  | .testDataOutBusy => handleWriteTestDataOutBusyCode
  | .disableNextOsdsysHook => handleWriteDisableNextOsdsysHook
  | .getEeStage1Size => handleWriteGetEeStage1Size config
  | .getEeStage2Size => handleWriteGetEeStage2Size config
  | .getEeStage2 => handleWriteGetEeStage2 config
  | .readEeStage3 => handleWriteReadEeStage3
  | .readApp => handleWriteReadAppsPartition
  | .kvGet => handleWriteKvGet
  | .kvSet => handleWriteKvSet
  | .fwGitRev => handleWriteFwGitRev
  | .bootloaderGitRev => handleWriteBootloaderGitRev
  | .getPartitionSize => handleWriteGetPartitionSize config
  | .getFlashSectorSize => handleWriteGetFlashSectorSize
  | .writeLock => handleWriteWriteLock
  | .eraseFlashSector => handleWriteEraseFlashSector
  | .writeFlashSector => handleWriteWriteFlashSector
  | .reboot => handleWriteReboot
  | .pinConfig => handleWritePinConfig config

/-- The cases of `handle_write_cmd_group0`, matched on the third opcode byte. -/
def group0Cases : List Cmd := [
  .disableNextOsdsysHook, .getEeStage1Size, .getEeStage2Size, .getEeStage2, .readEeStage3,
  .readApp, .kvGet, .kvSet, .fwGitRev, .bootloaderGitRev, .getPartitionSize,
  .getFlashSectorSize, .writeLock, .eraseFlashSector, .writeFlashSector, .reboot, .pinConfig]

def group1Cases : List Cmd := [
  .testDataOutWithStatusNoDataNoCrc, .testDataOutWithStatusWithDataNoCrc,
  .testDataOutWithStatusWithDataWithCrc, .testDataOutNoStatusWithDataWithCrc,
  .testDataOutNoStatusWithDataNoCrc, .testDataOutBusy]

def caseOf (cases : List Cmd) (w : U8) : Option Cmd := cases.find? (fun cmd => cmd.getByte 2 = w)

def handleGroup (cases : List Cmd) (firmware : FirmwareState) (w : U8) : FirmwareState × List Event :=
  let firmware := { firmware with cmdByteCounter := firmware.cmdByteCounter + 1 }
  match caseOf cases w with
  | some cmd => ({ firmware with writeHandler := .command cmd }, [])
  | none => toIdle firmware

def handleWriteCmdGroup0 : FirmwareState → U8 → FirmwareState × List Event := handleGroup group0Cases

def handleWriteCmdGroup1 : FirmwareState → U8 → FirmwareState × List Event := handleGroup group1Cases

def handleWriteCmd (firmware : FirmwareState) (w : U8) : FirmwareState × List Event :=
  let firmware := { firmware with cmdByteCounter := firmware.cmdByteCounter + 1 }
  if w = modchipCmdGroup0.setWidth 8 then ({ firmware with writeHandler := .cmdGroup0 }, [])
  else if w = modchipCmdGroup1.setWidth 8 then ({ firmware with writeHandler := .cmdGroup1 }, [])
  else toIdle firmware

def handleWriteIdle (firmware : FirmwareState) (w : U8) : FirmwareState × List Event :=
  let firmware := { firmware with cmdByteCounter := 0 }
  if w = modchipCmdPrefix.setWidth 8 then ({ firmware with writeHandler := .cmd }, [])
  else (firmware, [])

/-- `write_handler(byte)`. -/
def handle (config : Config) (firmware : FirmwareState) (w : U8) : FirmwareState × List Event :=
  match firmware.writeHandler with
  | .idle => handleWriteIdle firmware w
  | .cmd => handleWriteCmd firmware w
  | .cmdGroup0 => handleWriteCmdGroup0 firmware w
  | .cmdGroup1 => handleWriteCmdGroup1 firmware w
  | .command cmd => (switchOf config cmd).handle firmware w
  | .readEeStage3 => readEeStage3 config firmware w
  | .readAppsPartition => readAppsPartition firmware w
  | .eraseFlashSector => eraseFlashSector config firmware w
  | .writeFlashSector => writeFlashSector config firmware w

/-- The firmware as a machine over the bytes of the write sniffer. -/
def machine (config : Config) : Mealy FirmwareState U8 Event := ⟨handle config⟩

end Fruitchip.Firmware
