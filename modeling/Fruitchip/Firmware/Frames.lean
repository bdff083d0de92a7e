import Fruitchip.Library.Framing
import Fruitchip.Firmware.Handlers

/-! The command protocol without the byte-level parser: a frame is an opcode
with a fixed number of argument bytes, and a complete frame is executed as a
whole. `FrameRefinement` shows that the handlers implement exactly this. -/

namespace Fruitchip.Firmware
open Embedded

def cmdOf (group id : U8) : Option Cmd :=
  if group = modchipCmdGroup0.setWidth 8 then caseOf group0Cases id
  else if group = modchipCmdGroup1.setWidth 8 then caseOf group1Cases id
  else none

/-- Argument bytes of a command, up to the end of its frame. -/
def argLength : Cmd → Nat
  | .pinConfig | .getPartitionSize | .writeLock | .reboot => 2
  | .kvGet => 4
  | .kvSet => 12
  | .readEeStage3 | .eraseFlashSector => 18
  | .readApp => 20
  | .writeFlashSector => 18 + flashSectorSize
  | _ => 0

/-- What the bytes received since the parser was idle amount to. -/
def verdict : List U8 → Verdict (Cmd × List U8)
  | [] => .growing
  | [b0] => if b0 = modchipCmdPrefix.setWidth 8 then .growing else .reject
  | [b0, b1] =>
    if b0 = modchipCmdPrefix.setWidth 8 ∧
        (b1 = modchipCmdGroup0.setWidth 8 ∨ b1 = modchipCmdGroup1.setWidth 8) then .growing
    else .reject
  | [b0, b1, b2] =>
    if b0 = modchipCmdPrefix.setWidth 8 ∧ (cmdOf b1 b2).isSome then .growing else .reject
  | b0 :: b1 :: b2 :: b3 :: args =>
    match cmdOf b1 b2 with
    | none => .reject
    | some cmd =>
      if b0 = modchipCmdPrefix.setWidth 8 ∧ b3 = cmd.getByte 3 then
        if args.length < argLength cmd then .growing
        else if args.length = argLength cmd then .complete (cmd, args)
        else .reject
      else .reject

/-! The fields of a frame, by the position of their bytes among the arguments. -/

def halfwordAt (byte : Nat → U8) (index : Nat) : U16 := le16 (byte index) (byte (index + 1))

def wordAt (byte : Nat → U8) (index : Nat) : U32 :=
  le32 (byte index) (byte (index + 1)) (byte (index + 2)) (byte (index + 3))

def kvGetArgs (byte : Nat → U8) : KvGetStatics where
  idx := halfwordAt byte 0
  idxXor := halfwordAt byte 2

def kvSetArgs (byte : Nat → U8) : KvSetStatics where
  idx := halfwordAt byte 0
  idxXor := halfwordAt byte 2
  value := wordAt byte 4
  valueXor := wordAt byte 8

def stage3Args (byte : Nat → U8) : Stage3Statics where
  readOffset := wordAt byte 0
  readOffsetXor := wordAt byte 4
  readSize := wordAt byte 8
  readSizeXor := wordAt byte 12
  withCrc := byte 16 ≠ 0

/-- The fields of a READ_APP frame with the tests made on them. -/
def readAppArgs (flash : Flash) (byte : Nat → U8) : ReadAppStatics where
  appIdx := byte 0
  appIdxXor := byte 1
  readOffset := wordAt byte 2
  readOffsetXor := wordAt byte 6
  readSize := wordAt byte 10
  readSizeXor := wordAt byte 14
  withCrc := byte 18 ≠ 0
  isValidAppsPartition := appsPartitionDetect flash
  isValidAppIdx := byte 0 ^^^ byte 1 = 0xFF ∧
    (byte 0).setWidth 32 < appsPartitionEntriesCount flash
  isValidReadOffset := wordAt byte 2 ^^^ wordAt byte 6 = 0xFFFFFFFF ∧
    wordAt byte 2 < appsPartitionEntryLength flash ((byte 0).setWidth 32)
  isValidReadSize := wordAt byte 10 ^^^ wordAt byte 14 = 0xFFFFFFFF
  readAddr := appsPartitionEntryAddr flash ((byte 0).setWidth 32) + wordAt byte 2

/-- The arguments of the sector commands. Erasing sends a sector count where
writing sends the checksum of the sector that follows. -/
def flashArgs (byte : Nat → U8) : FlashStatics where
  partitionIdx := byte 0
  partitionIdxXor := byte 1
  sectorIdx := wordAt byte 2
  sectorIdxXor := wordAt byte 6
  sectorCrc := wordAt byte 10
  sectorCrcXor := wordAt byte 14
  sectorCount := wordAt byte 10
  sectorCountXor := wordAt byte 14
  sector index := byte (18 + index)

/-- The effect of one complete frame. -/
def execute (config : Config) (frame : Cmd × List U8) (world : World) : World × List Event :=
  let byte (index : Nat) : U8 := frame.2.getD index 0
  match frame.1 with
  | .pinConfig => pinConfigBody config ⟨byte 0, byte 1⟩ world
  | .getPartitionSize => getPartitionSizeBody config (flashArgs byte) world
  | .writeLock => writeLockBody ⟨byte 0, byte 1⟩ world
  | .reboot => rebootBody ⟨byte 0, byte 1⟩ world
  | .kvGet => kvGetBody (kvGetArgs byte) world
  | .kvSet => kvSetBody (kvSetArgs byte) world
  | .readEeStage3 => readEeStage3Body config (stage3Args byte) (byte 17) world
  | .readApp => readAppsPartitionBody (readAppArgs world.flash byte) (byte 19) world
  | .eraseFlashSector => eraseFlashSectorBody config (flashArgs byte) world
  | .writeFlashSector => writeFlashSectorBody config (flashArgs byte) world
  | .testDataOutWithStatusNoDataNoCrc => answer world modchipCmdResultOk
  | .testDataOutWithStatusWithDataNoCrc => answerData world .placeholder 15 false
  | .testDataOutWithStatusWithDataWithCrc => answerData world .placeholder 15 true
  | .testDataOutNoStatusWithDataWithCrc =>
    (world, [.setData .placeholder 15, .startDataWithoutStatusCode true])
  | .testDataOutNoStatusWithDataNoCrc =>
    (world, [.setData .placeholder 15, .startDataWithoutStatusCode false])
  | .testDataOutBusy => (world, [.startBusyCode, .stopBusyCode modchipCmdResultOk])
  | .disableNextOsdsysHook =>
    answer { world with disableNextOsdsysHook := true } modchipCmdResultOk
  | .getEeStage1Size => answerData world (.word config.loaderEeStage1Size) 4 false
  | .getEeStage2Size => answerData world (.word config.loaderEeStage2Size) 4 false
  | .getEeStage2 => answerData world (.xip config.loaderEeStage2) config.loaderEeStage2Size true
  | .fwGitRev => answerData world .gitRev 8 true
  | .bootloaderGitRev => answerData world .bootloaderGitRev 8 true
  | .getFlashSectorSize => answerData world (.word (BitVec.ofNat 32 flashSectorSize)) 4 true

def protocol (config : Config) : Framing U8 (Cmd × List U8) World Event where
  verdict := verdict
  execute := execute config

end Fruitchip.Firmware
