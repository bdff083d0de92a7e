import Fruitchip.Firmware.DataOut
import Fruitchip.Firmware.ReadHandlers

/-! The main loop together with the data-out channels. Both kinds of handlers
use the same channels. The loop takes the next byte from a FIFO as soon as a
handler returns, whether or not an answer is still on its way. -/

namespace Fruitchip.DataOut
open Embedded Firmware

/-- What the core writes at once. The channels move between two of these. -/
inductive Store where
  | statusCode (statusCode : U32)
  /-- `CONTROL_BLOCKS_DATA_OUT[0].read_addr` and `.trans_count`. -/
  | readAddr (ref : DataRef)
  | transCount (encodedTransferCount : Nat)
  | pointCtrl2
  | pointCtrl1 (list : ControlList) (trigger : Bool)
  | startCtrl2
  | pongToPing
  | startPing
  | pongToCtrl1
  /-- All of the helper, which waits for its transfer. -/
  | dmaCrc32 (data : List U8)
  deriving DecidableEq, Repr

def Store.perform (state : State) : Store → Option State
  | .statusCode code => some (setStatusCode state code)
  | .readAddr ref => some (state.setMemory { state.engine.memory with readAddr := at0 (.data ref) })
  | .transCount count => some (state.setMemory { state.engine.memory with transCount := count })
  | .pointCtrl2 => some (dmaChannelSetReadAddr state ctrl2Chan (at0 .controlBlocksDataOut) false)
  | .pointCtrl1 list trigger => some (dmaChannelSetReadAddr state ctrl1Chan (at0 (.controlList list)) trigger)
  | .startCtrl2 => some (dmaChannelStart state ctrl2Chan)
  | .pongToPing => some (dmaChannelSetChainTo state busyPong busyPing false)
  | .startPing => some (dmaChannelSetChainTo state busyPing busyPong true)
  | .pongToCtrl1 => some (dmaChannelSetChainTo state busyPong ctrl1Chan false)
  | .dmaCrc32 data => DataOut.dmaCrc32 state data 0xFFFFFFFF

/-- The stores of `boot_rom_data_out_set_data`. -/
def setDataStores (ref : DataRef) (encodedTransferCount : U32) : List Store :=
  [.readAddr ref, .transCount encodedTransferCount.toNat, .pointCtrl2]

/-- An event in the order of the source. -/
def eventStores : Event → List Store
  | .startStatusCode statusCode => [.statusCode statusCode, .pointCtrl1 .withStatusNoDataNoCrc true]
  | .startDataWithStatusCode statusCode ref encodedTransferCount crc =>
    .statusCode statusCode :: setDataStores ref encodedTransferCount ++
      [.pointCtrl2, .pointCtrl1 (if crc then .withStatusWithDataWithCrc else .withStatusWithDataNoCrc) true]
  | .setData ref encodedTransferCount => setDataStores ref encodedTransferCount
  | .startDataWithoutStatusCode crc =>
    if crc then [.pointCtrl1 .noStatusWithDataWithCrc true]
    else [.pointCtrl1 .noStatusWithDataNoCrc false, .startCtrl2]
  | .startBusyCode => [.pongToPing, .startPing]
  | .stopBusyCode statusCode =>
    [.statusCode statusCode, .pointCtrl1 .withStatusNoDataNoCrc false, .pongToCtrl1]
  | .dmaCrc32 data => [.dmaCrc32 data]
  | .flash _ | .settingsSet _ | .setFlashWriteLock _ | .setScratch0 _ | .watchdogReboot => []

/-- The handlers, what the last byte has still to store, and the DMA. -/
structure LoopDevice where
  loop : Loop
  pending : List Store
  dma : State

def LoopDevice.powerUp (flash : Flash) (settings : SettingsState) : LoopDevice :=
  ⟨.powerUp flash settings, [], .initial⟩

/-- A byte from one of the FIFOs, the next store, or one unit of a channel. -/
inductive LoopAction where
  | byte (input : BusByte)
  | store
  | unit (channel : Nat)
  deriving DecidableEq, Repr

/-- `none` is an action that cannot happen, the panic of the SDK, or a word in
a register that it does not fit. -/
def LoopDevice.step (config : Config) (board : LoopDevice) : LoopAction → Option LoopDevice
  | .byte input =>
    if board.pending = [] then
      let (loop, events) := board.loop.step config input
      some { board with loop, pending := events.flatMap eventStores }
    else none
  | .store =>
    match board.pending with
    | [] => none
    | store :: pending => (store.perform board.dma).map fun dma => { board with pending, dma }
  | .unit channel =>
    (board.dma.engine.step (bus (refByte config board.loop.firmware.world.flash)) channel).map fun engine =>
      { board with dma.engine := engine }

def LoopDevice.run (config : Config) : LoopDevice → List LoopAction → Option LoopDevice
  | board, [] => some board
  | board, action :: rest => (board.step config action).bind (run config · rest)

def LoopAction.input? : LoopAction → Option BusByte
  | .byte input => some input
  | _ => none

/-- The bytes that the sniffers deliver. -/
def inputs (actions : List LoopAction) : List BusByte := actions.filterMap LoopAction.input?

end Fruitchip.DataOut
