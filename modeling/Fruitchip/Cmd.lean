import Fruitchip.Library.Bytes

/-! The command words of `modchip/cmd.h`, the result words of `modchip/errno.h` and
the checksum of `crc32.h`. -/

namespace Fruitchip
open Embedded

def modchipCmdPrefix : U32 := 0xcf

def modchipCmdGroup0 : U32 := 0x0c

def modchipCmdGroup1 : U32 := 0x1c

/-- Every command the firmware knows. -/
inductive Cmd where
  | testDataOutWithStatusNoDataNoCrc
  | testDataOutWithStatusWithDataNoCrc
  | testDataOutWithStatusWithDataWithCrc
  | testDataOutNoStatusWithDataWithCrc
  | testDataOutNoStatusWithDataNoCrc
  | testDataOutBusy
  | disableNextOsdsysHook
  | getEeStage1Size
  | getEeStage2Size
  | getEeStage2
  | readEeStage3
  | readApp
  | kvGet
  | kvSet
  | fwGitRev
  | bootloaderGitRev
  | getPartitionSize
  | getFlashSectorSize
  | writeLock
  | eraseFlashSector
  | writeFlashSector
  | reboot
  | pinConfig
  deriving DecidableEq, Repr

private def word (id group : U32) : U32 := (id <<< 16) ||| (group <<< 8) ||| modchipCmdPrefix

def Cmd.code : Cmd → U32
  | .testDataOutWithStatusNoDataNoCrc => word 0x18cd modchipCmdGroup1
  | .testDataOutWithStatusWithDataNoCrc => word 0x2a0b modchipCmdGroup1
  | .testDataOutWithStatusWithDataWithCrc => word 0x7864 modchipCmdGroup1
  | .testDataOutNoStatusWithDataWithCrc => word 0x241d modchipCmdGroup1
  | .testDataOutNoStatusWithDataNoCrc => word 0x111f modchipCmdGroup1
  | .testDataOutBusy => word 0x5ca7 modchipCmdGroup1
  | .disableNextOsdsysHook => word 0x1c61 modchipCmdGroup0
  | .getEeStage1Size => word 0xd008 modchipCmdGroup0
  | .getEeStage2Size => word 0xc46e modchipCmdGroup0
  | .getEeStage2 => word 0x882c modchipCmdGroup0
  | .readEeStage3 => word 0x7338 modchipCmdGroup0
  | .readApp => word 0x33b8 modchipCmdGroup0
  | .kvGet => word 0x1d27 modchipCmdGroup0
  | .kvSet => word 0x40b1 modchipCmdGroup0
  | .fwGitRev => word 0x1e6a modchipCmdGroup0
  | .bootloaderGitRev => word 0x1b57 modchipCmdGroup0
  | .getPartitionSize => word 0x503a modchipCmdGroup0
  | .getFlashSectorSize => word 0x675d modchipCmdGroup0
  | .writeLock => word 0x0797 modchipCmdGroup0
  | .eraseFlashSector => word 0x289a modchipCmdGroup0
  | .writeFlashSector => word 0x3477 modchipCmdGroup0
  | .reboot => word 0x6d06 modchipCmdGroup0
  | .pinConfig => word 0x0431 modchipCmdGroup0

/-- `GET_BYTE` of a command word. -/
def Cmd.getByte (cmd : Cmd) (index : Nat) : U8 := byteAt cmd.code index

/-- The four bytes of a command word in the order they cross the bus. -/
def Cmd.opcode (cmd : Cmd) : List U8 := bytes32 cmd.code

def modchipCmdResultOk : U32 := 0x56276fb7

def modchipCmdResultErr : U32 := 0x0b4f7d09

def modchipCmdResultBusy : U32 := 0x77941eda

/-- `modchip/update.h`. -/
def modchipUpdateMagic : U32 := 0x3d0f56d0

def modchipSettingsMenuAutoboot : U16 := 0

def modchipSettingsMenuAutobootDelay : U16 := 1

def modchipSettingsMenuAutobootItemIdx : U16 := 2

def modchipSettingsMenuOsdsysSettings : U16 := 3

def modchipSettingsKeysTotal : U16 := 4

def modchipPartitionIdxFw : U8 := 0

def modchipPartitionIdxFwUpdate : U8 := 1

def modchipPartitionIdxApps : U8 := 2

def modchipPartitionIdxTotal : U8 := 3

def modchipRebootModeSimple : U8 := 0

def modchipRebootModeUpdate : U8 := 1

def modchipRebootModeTotal : U8 := 2

def modchipPinBootRomData : U8 := 0

def modchipPinBootRomCe : U8 := 1

def modchipPinBootRomOe : U8 := 2

def modchipPinReset : U8 := 3

/-! The checksum with a lookup table for half bytes. -/

def crc32Lut : List U32 := [
  0x00000000, 0x04C11DB7, 0x09823B6E, 0x0D4326D9,
  0x130476DC, 0x17C56B6B, 0x1A864DB2, 0x1E475005,
  0x2608EDB8, 0x22C9F00F, 0x2F8AD6D6, 0x2B4BCB61,
  0x350C9B64, 0x31CD86D3, 0x3C8EA00A, 0x384FBDBD]

def crc32Nibble (crc : U32) : U32 := (crc <<< 4) ^^^ crc32Lut.getD (crc >>> 28).toNat 0

def crc32Byte (crc : U32) (byte : U8) : U32 :=
  crc32Nibble (crc32Nibble (crc ^^^ (byte.setWidth 32 <<< 24)))

def crc32 (data : List U8) : U32 := data.foldl crc32Byte 0xFFFFFFFF

end Fruitchip
