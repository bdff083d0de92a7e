import Fruitchip.Firmware.Answers
import Fruitchip.Firmware.Handlers
import Fruitchip.Library.Dma

/-! `data_out.c`: the DMA channels that put answers on the bus, what its
functions write to them, and the checksum helper of `write/flash.c` that takes
a channel from the same pool. -/

namespace Fruitchip.DataOut
open Embedded Embedded.Dma Firmware

def ctrl1Chan : Nat := 0

def ctrl2Chan : Nat := 1

def data1Chan : Nat := 2

def data2Chan : Nat := 3

def busyPing : Nat := 4

def busyPong : Nat := 5

def numDmaChannels : Nat := 12

/-- The arrays of control blocks. -/
inductive ControlList where
  | withStatusWithDataWithCrc
  | noStatusWithDataWithCrc
  | noStatusWithDataNoCrc
  | withStatusWithDataNoCrc
  | withStatusNoDataNoCrc
  deriving DecidableEq, Repr

/-- What the DMA channels can point at. -/
inductive Object where
  | null
  | channel (index : Nat)
  | sniffer
  /-- The transmit FIFO of the data-out state machine. -/
  | txf
  | statusCode
  | busyCode
  | busyCodePtr
  | zero
  | sniffSetup
  | controlList (list : ControlList)
  | controlBlocksDataOut
  | data (ref : DataRef)
  /-- The buffer of `write_flash_sector`. -/
  | sector
  /-- A local variable. -/
  | stack
  deriving DecidableEq, Repr

def dreqForce : Nat := 63

/-- `PIO_DREQ_NUM` of the data-out state machine. -/
def dataOutDreq : Nat := 2

/-- `dma_channel_get_default_config`. -/
def defaultConfig (channel : Nat) : Ctrl :=
  { Ctrl.null with en := true, dataSize := 2, incrRead := true, chainTo := channel, treqSel := dreqForce }

/-- `DMA_CTRL_DATA_OUT` with a channel to chain to. -/
def dmaCtrlDataOut (chainTo : Nat) : Ctrl :=
  { Ctrl.null with
    en := true, highPriority := true, incrRead := true, chainTo, treqSel := dataOutDreq, irqQuiet := true }

def at0 (object : Object) : Address Object := ⟨object, 0⟩

def controlBlockSnifferSetup (chainTo : Nat) : Block Object where
  readAddr := at0 .sniffSetup
  writeAddr := at0 .sniffer
  transCount := 2
  ctrl := { Ctrl.null with
    en := true, dataSize := 2, incrRead := true, incrWrite := true, chainTo, treqSel := dreqForce, irqQuiet := true }

def controlBlockStatusCode (chainTo : Nat) : Block Object where
  readAddr := at0 .statusCode
  writeAddr := at0 .txf
  transCount := 4
  ctrl := dmaCtrlDataOut chainTo

def controlBlockCrc : Block Object where
  readAddr := ⟨.sniffer, 4⟩
  writeAddr := at0 .txf
  transCount := 4
  ctrl := dmaCtrlDataOut ctrl1Chan

def controlBlockEot : Block Object where
  readAddr := at0 .zero
  writeAddr := at0 .txf
  transCount := 1
  ctrl := dmaCtrlDataOut ctrl1Chan

def controlBlockNull : Block Object where
  readAddr := at0 .null
  writeAddr := at0 .null
  transCount := 0
  ctrl := .null

def controlBlocks : ControlList → List (Block Object)
  | .withStatusWithDataWithCrc => [controlBlockSnifferSetup ctrl1Chan, controlBlockStatusCode ctrl2Chan,
    controlBlockCrc, controlBlockEot, controlBlockNull]
  | .noStatusWithDataWithCrc => [controlBlockSnifferSetup ctrl2Chan, controlBlockCrc, controlBlockEot,
    controlBlockNull]
  | .noStatusWithDataNoCrc => [controlBlockEot, controlBlockNull]
  | .withStatusWithDataNoCrc => [controlBlockStatusCode ctrl2Chan, controlBlockEot, controlBlockNull]
  | .withStatusNoDataNoCrc => [controlBlockStatusCode ctrl1Chan, controlBlockEot, controlBlockNull]

/-- The variables and peripherals that the channels reach. -/
structure Memory where
  dataOutStatusCode : U32
  /-- `CONTROL_BLOCKS_DATA_OUT[0].read_addr` and `.trans_count`. -/
  readAddr : Address Object
  transCount : Nat
  sniffEnabled : Bool
  sniffChannel : Nat
  sniffData : U32
  /-- All bytes pushed to the transmit FIFO, in order. -/
  pushed : List U8

def controlBlocksDataOut (memory : Memory) : List (Block Object) := [
  { readAddr := memory.readAddr
    writeAddr := at0 .txf
    transCount := memory.transCount
    ctrl := { dmaCtrlDataOut ctrl1Chan with sniffEn := true } },
  controlBlockNull]

/-- The word that a control channel finds in an array of control blocks. -/
def blockWord (blocks : List (Block Object)) (offset : Nat) : Option (Word Object) :=
  blocks[offset / 16]?.map (fun block => block.word (offset % 16 / 4))

def byteWord (byte : U8) : Word Object := .bits (byte.setWidth 32)

/-- `read` is the byte at an index of the object behind a pointer. -/
def load (read : DataRef → Nat → U8) (memory : Memory) (address : Address Object) : Option (Word Object) :=
  match address.object with
  | .controlList list => blockWord (controlBlocks list) address.offset
  | .controlBlocksDataOut => blockWord (controlBlocksDataOut memory) address.offset
  | .statusCode => some (byteWord (byteAt memory.dataOutStatusCode address.offset))
  | .busyCode => some (byteWord (byteAt modchipCmdResultBusy address.offset))
  | .busyCodePtr => some (.address (at0 .busyCode))
  | .zero => some (byteWord 0)
  -- `sniff_ctrl`, with the data-out channel and the enable bit, then `sniff_data`
  | .sniffSetup => some (if address.offset = 0 then .count data2Chan else .bits 0xFFFFFFFF)
  | .sniffer => some (byteWord (byteAt memory.sniffData (address.offset - 4)))
  | .data ref => some (byteWord (read ref address.offset))
  | _ => none

def store (memory : Memory) (address : Address Object) (word : Word Object) : Option Memory :=
  match address.object, word with
  | .txf, .bits value => some { memory with pushed := memory.pushed ++ [value.setWidth 8] }
  | .sniffer, .count channel => some { memory with sniffEnabled := true, sniffChannel := channel }
  | .sniffer, .bits value => some { memory with sniffData := value }
  | .stack, _ => some memory
  | _, _ => none

/-- The sniffer adds the bytes of its channel to the checksum. -/
def sniff (memory : Memory) (channel : Nat) (ctrl : Ctrl) (word : Word Object) : Memory :=
  match word with
  | .bits value =>
    if memory.sniffEnabled ∧ memory.sniffChannel = channel ∧ ctrl.sniffEn then
      { memory with sniffData := Crc.shiftByte memory.sniffData (value.setWidth 8) }
    else memory
  | _ => memory

def bus (read : DataRef → Nat → U8) : Bus Object Memory where
  registers object :=
    match object with
    | .channel index => some index
    | _ => none
  load := load read
  store
  sniff

structure State where
  engine : Engine Object Memory
  /-- The claim bits of the SDK. -/
  claimed : Nat → Bool

namespace State

def setChannel (state : State) (index : Nat) (channel : Channel Object) : State :=
  { state with engine := state.engine.set index channel }

def setMemory (state : State) (memory : Memory) : State := { state with engine.memory := memory }

end State

def dmaChannelClaim (state : State) (channel : Nat) : State :=
  { state with claimed := fun other => if other = channel then true else state.claimed other }

def dmaChannelUnclaim (state : State) (channel : Nat) : State :=
  { state with claimed := fun other => if other = channel then false else state.claimed other }

/-- `dma_claim_unused_channel(true)`; `none` is its panic. -/
def dmaClaimUnusedChannel (state : State) : Option (Nat × State) :=
  ((List.range numDmaChannels).find? (fun channel => !state.claimed channel)).map fun channel =>
    (channel, dmaChannelClaim state channel)

def dmaChannelStart (state : State) (channel : Nat) : State :=
  { state with engine := state.engine.trigger channel }

def dmaChannelSetReadAddr (state : State) (channel : Nat) (readAddr : Address Object) (trigger : Bool) : State :=
  let state := state.setChannel channel { state.engine.channels channel with readAddr }
  if trigger then dmaChannelStart state channel else state

def dmaChannelSetWriteAddr (state : State) (channel : Nat) (writeAddr : Address Object) : State :=
  state.setChannel channel { state.engine.channels channel with writeAddr }

def dmaChannelSetTransferCount (state : State) (channel transCount : Nat) : State :=
  state.setChannel channel { state.engine.channels channel with transCount }

def dmaChannelSetConfig (state : State) (channel : Nat) (ctrl : Ctrl) : State :=
  state.setChannel channel { state.engine.channels channel with ctrl }

def dmaChannelSetChainTo (state : State) (channel chainTo : Nat) (trigger : Bool) : State :=
  let state := dmaChannelSetConfig state channel { (state.engine.channels channel).ctrl with chainTo }
  if trigger then dmaChannelStart state channel else state

/-- The configuration of the two control channels. -/
def controlConfig (chainTo : Nat) : Ctrl :=
  { defaultConfig chainTo with incrWrite := true, ringSize := 4, ringSel := true }

def busyPingConfig : Ctrl := { defaultConfig busyPing with dataSize := 0, treqSel := dataOutDreq }

def busyPongConfig : Ctrl := { defaultConfig busyPong with incrRead := false, chainTo := busyPing }

def bootRomDataOutInitDma (state : State) : State :=
  let state := dmaChannelClaim state ctrl1Chan
  let state := dmaChannelSetWriteAddr state ctrl1Chan (at0 (.channel data1Chan))
  let state := dmaChannelSetTransferCount state ctrl1Chan 4
  let state := dmaChannelSetConfig state ctrl1Chan (controlConfig ctrl1Chan)
  let state := dmaChannelClaim state ctrl2Chan
  let state := dmaChannelSetWriteAddr state ctrl2Chan (at0 (.channel data2Chan))
  let state := dmaChannelSetTransferCount state ctrl2Chan 4
  let state := dmaChannelSetConfig state ctrl2Chan (controlConfig ctrl2Chan)
  let state := dmaChannelClaim state data1Chan
  let state := dmaChannelClaim state data2Chan
  let state := dmaChannelClaim state busyPing
  let state := dmaChannelSetReadAddr state busyPing (at0 .busyCode) false
  let state := dmaChannelSetWriteAddr state busyPing (at0 .txf)
  let state := dmaChannelSetTransferCount state busyPing 4
  let state := dmaChannelSetConfig state busyPing busyPingConfig
  let state := dmaChannelClaim state busyPong
  let state := dmaChannelSetReadAddr state busyPong (at0 .busyCodePtr) false
  let state := dmaChannelSetWriteAddr state busyPong (at0 (.channel busyPing))
  let state := dmaChannelSetTransferCount state busyPong 1
  dmaChannelSetConfig state busyPong busyPongConfig

def bootRomDataOutSetData (state : State) (readAddr : Address Object) (encodedTransferCount : Nat) : State :=
  let state := state.setMemory { state.engine.memory with readAddr, transCount := encodedTransferCount }
  dmaChannelSetReadAddr state ctrl2Chan (at0 .controlBlocksDataOut) false

def bootRomDataOutStartDataWithoutStatusCode (state : State) (crc : Bool) : State :=
  if crc then dmaChannelSetReadAddr state ctrl1Chan (at0 (.controlList .noStatusWithDataWithCrc)) true
  else
    let state := dmaChannelSetReadAddr state ctrl1Chan (at0 (.controlList .noStatusWithDataNoCrc)) false
    dmaChannelStart state ctrl2Chan

def setStatusCode (state : State) (statusCode : U32) : State :=
  state.setMemory { state.engine.memory with dataOutStatusCode := statusCode }

def bootRomDataOutStartDataWithStatusCode (state : State) (statusCode : U32) (readAddr : Address Object)
    (encodedTransferCount : Nat) (crc : Bool) : State :=
  let state := setStatusCode state statusCode
  let state := bootRomDataOutSetData state readAddr encodedTransferCount
  let controlBlocks : ControlList := if crc then .withStatusWithDataWithCrc else .withStatusWithDataNoCrc
  let state := dmaChannelSetReadAddr state ctrl2Chan (at0 .controlBlocksDataOut) false
  dmaChannelSetReadAddr state ctrl1Chan (at0 (.controlList controlBlocks)) true

def bootRomDataOutStartStatusCode (state : State) (statusCode : U32) : State :=
  let state := setStatusCode state statusCode
  dmaChannelSetReadAddr state ctrl1Chan (at0 (.controlList .withStatusNoDataNoCrc)) true

def bootRomDataOutStartBusyCode (state : State) : State :=
  let state := dmaChannelSetChainTo state busyPong busyPing false
  dmaChannelSetChainTo state busyPing busyPong true

def bootRomDataOutStopBusyCode (state : State) (statusCode : U32) : State :=
  let state := setStatusCode state statusCode
  let state := dmaChannelSetReadAddr state ctrl1Chan (at0 (.controlList .withStatusNoDataNoCrc)) false
  dmaChannelSetChainTo state busyPong ctrl1Chan false

/-- The configuration of the checksum helper. -/
def crcConfig (channel : Nat) : Ctrl :=
  { defaultConfig channel with dataSize := 0, sniffEn := true }

/-- `dma_crc32` of `write/flash.c`, whose `channel` is a `bool`. The transfer
runs to its end while the helper waits. -/
def dmaCrc32 (state : State) (data : List U8) (crc : U32) : Option State := do
  let (unused, state) ← dmaClaimUnusedChannel state
  let channel := if unused ≠ 0 then 1 else 0
  let state := state.setMemory { state.engine.memory with
    sniffEnabled := true, sniffChannel := channel, sniffData := Crc.crc32 crc data }
  let state := state.setChannel channel {
    readAddr := ⟨.sector, data.length⟩
    writeAddr := at0 .stack
    transCount := data.length
    ctrl := crcConfig channel
    busy := false
    remaining := 0 }
  some (dmaChannelUnclaim state channel)

/-- What an event of a command does to the channels. -/
def perform (state : State) : Event → Option State
  | .startStatusCode statusCode => some (bootRomDataOutStartStatusCode state statusCode)
  | .startDataWithStatusCode statusCode readAddr transferCount crc =>
    some (bootRomDataOutStartDataWithStatusCode state statusCode (at0 (.data readAddr)) transferCount.toNat crc)
  | .setData readAddr transferCount =>
    some (bootRomDataOutSetData state (at0 (.data readAddr)) transferCount.toNat)
  | .startDataWithoutStatusCode crc => some (bootRomDataOutStartDataWithoutStatusCode state crc)
  | .startBusyCode => some (bootRomDataOutStartBusyCode state)
  | .stopBusyCode statusCode => some (bootRomDataOutStopBusyCode state statusCode)
  | .dmaCrc32 data => dmaCrc32 state data 0xFFFFFFFF
  | .flash _ | .settingsSet _ | .setFlashWriteLock _ | .setScratch0 _ | .watchdogReboot => some state

/-- What the core does next. Commands answer while no channel is busy, except
that `boot_rom_data_out_stop_busy_code` runs against the busy code, so its three
stores are tasks of their own. -/
inductive Task where
  | event (event : Event)
  | setStatusCode (statusCode : U32)
  | setStatusList
  | chainToStatus
  deriving DecidableEq, Repr

def tasks : Event → List Task
  | .stopBusyCode statusCode => [.setStatusCode statusCode, .setStatusList, .chainToStatus]
  | event => [.event event]

def Task.perform (state : State) : Task → Option State
  | .event simple => DataOut.perform state simple
  | .setStatusCode statusCode => some (DataOut.setStatusCode state statusCode)
  | .setStatusList =>
    some (dmaChannelSetReadAddr state ctrl1Chan (at0 (.controlList .withStatusNoDataNoCrc)) false)
  | .chainToStatus => some (dmaChannelSetChainTo state busyPong ctrl1Chan false)

/-- The controller after reset. -/
def State.reset : State where
  engine := {
    channels := fun _ => ⟨at0 .null, at0 .null, 0, .null, false, 0⟩
    memory := ⟨0, at0 .null, 0, false, 0, 0, []⟩ }
  claimed _ := false

def State.initial : State := bootRomDataOutInitDma .reset

/-- The parser, what its last byte has still to do, and the DMA. -/
structure Device where
  firmware : FirmwareState
  pending : List Task
  dma : State

/-- Everything that can happen next: a byte for the write sniffer, the next
task of the running command, or one unit of a DMA channel. -/
inductive Action where
  | byte (w : U8)
  | task
  | unit (channel : Nat)
  deriving DecidableEq, Repr

def State.quiet (state : State) : Bool :=
  (List.range numDmaChannels).all (fun channel => !(state.engine.channels channel).busy)

/-- The command is over and its answer is out: the sniffers run again. -/
def Device.Resting (device : Device) : Prop := device.pending = [] ∧ device.dma.quiet

instance (device : Device) : Decidable device.Resting := inferInstanceAs (Decidable (_ ∧ _))

/-- `none` is an action that cannot happen, or the panic of the SDK. -/
def Device.step (config : Config) (device : Device) : Action → Option Device
  | .byte w =>
    if device.Resting then
      let (firmware, events) := handle config device.firmware w
      some { device with firmware, pending := events.flatMap tasks }
    else none
  | .task =>
    match device.pending with
    | [] => none
    | task :: pending => (task.perform device.dma).map fun dma => { device with pending, dma }
  | .unit channel =>
    (device.dma.engine.step (bus (refByte config device.firmware.world.flash)) channel).map fun engine =>
      { device with dma.engine := engine }

def Device.run (config : Config) : Device → List Action → Option Device
  | device, [] => some device
  | device, action :: rest => (device.step config action).bind (Device.run config · rest)

end Fruitchip.DataOut
