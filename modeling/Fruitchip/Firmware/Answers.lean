import Fruitchip.Firmware.State
import Fruitchip.Library.Crc

/-! The bytes that the data-out functions put on the bus, without the dummy
byte that ends every answer. -/

namespace Fruitchip.Firmware
open Embedded

/-- The buffer of `write/test.c`. -/
def placeholder : List U8 :=
  [0x11, 0x22, 0x33, 0x44, 0x55, 0x66, 0x77, 0x88, 0x99, 0xaa, 0xbb, 0xcc, 0xdd, 0xee, 0xff]

/-- Byte `index` of the object behind a pointer. -/
def refByte (config : Config) (flash : Flash) (ref : DataRef) (index : Nat) : U8 :=
  match ref with
  | .word value => byteAt value index
  | .eeStage1 => config.loaderEeStage1.getD index 0
  -- `LOADER_IOP_STAGE_1` is an empty array
  | .iopStage1 => 0
  | .gitRev => config.gitRev.getD index 0
  | .bootloaderGitRev => config.bootloaderGitRev.getD index 0
  | .placeholder => placeholder.getD index 0
  | .xip address => xipByte flash (address + BitVec.ofNat 32 index)

def refBytes (config : Config) (flash : Flash) (ref : DataRef) (count : Nat) : List U8 :=
  (List.range count).map (refByte config flash ref)

@[simp] theorem refBytes_length (config : Config) (flash : Flash) (ref : DataRef) (count : Nat) :
    (refBytes config flash ref count).length = count := by
  simp [refBytes]

/-- Data and, if asked for, the checksum of the sniffer. -/
def dataOut (data : List U8) (crc : Bool) : List U8 :=
  data ++ if crc then bytes32 (Crc.crc32 0xFFFFFFFF data) else []

/-- What a list of events sends. `set` is the buffer of the last `set_data`,
and `busy` is how often the busy word goes out before the result is ready. -/
def emit (config : Config) (flash : Flash) (busy : Nat) : DataRef × U32 → List Event → List U8
  | _, [] => []
  | set, .startStatusCode statusCode :: events =>
    bytes32 statusCode ++ emit config flash busy set events
  | _, .startDataWithStatusCode statusCode readAddr transferCount crc :: events =>
    bytes32 statusCode ++ dataOut (refBytes config flash readAddr transferCount.toNat) crc ++
      emit config flash busy (readAddr, transferCount) events
  | _, .setData readAddr transferCount :: events => emit config flash busy (readAddr, transferCount) events
  | set, .startDataWithoutStatusCode crc :: events =>
    dataOut (refBytes config flash set.1 set.2.toNat) crc ++ emit config flash busy set events
  | set, .startBusyCode :: events =>
    (List.replicate busy (bytes32 modchipCmdResultBusy)).flatten ++ emit config flash busy set events
  | set, .stopBusyCode statusCode :: events => bytes32 statusCode ++ emit config flash busy set events
  | set, .dmaCrc32 _ :: events => emit config flash busy set events
  | set, .flash _ :: events => emit config flash busy set events
  | set, .settingsSet _ :: events => emit config flash busy set events
  | set, .setFlashWriteLock _ :: events => emit config flash busy set events
  | set, .setScratch0 _ :: events => emit config flash busy set events
  | set, .watchdogReboot :: events => emit config flash busy set events

end Fruitchip.Firmware
