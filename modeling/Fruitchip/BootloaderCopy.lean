import Fruitchip.Bootloader
import Fruitchip.Library.RingCopy

/-! The update of `main.c` as the bootloader makes it: a DMA channel copies each
sector to a buffer, and the buffer is what is programmed. The write address of
the channel is set once. -/

namespace Fruitchip.Bootloader
open Embedded Embedded.Dma

inductive Object where
  | flash
  | sectorBuffer
  deriving DecidableEq, Repr

structure Memory where
  flash : Flash
  sectorBuffer : Nat → U8

def load (memory : Memory) (address : Address Object) : Option (Word Object) :=
  match address.object with
  | .flash => some (.bits ((memory.flash address.offset).setWidth 32))
  | .sectorBuffer =>
    if address.offset < flashSectorSize then some (.bits ((memory.sectorBuffer address.offset).setWidth 32)) else none

def store (memory : Memory) (address : Address Object) (word : Word Object) : Option Memory :=
  match address.object, word with
  | .sectorBuffer, .bits value =>
    if address.offset < flashSectorSize then
      some { memory with
        sectorBuffer := fun index => if index = address.offset then value.setWidth 8 else memory.sectorBuffer index }
    else none
  | _, _ => none

def bus : Bus Object Memory where
  registers _ := none
  load := load
  store := store
  sniff memory _ _ _ := memory

/-- The bootloader while it runs, and the flash operations so far. -/
structure Machine where
  engine : Engine Object Memory
  /-- Channels that are claimed, from the first one on. -/
  claimed : Nat
  memcpyChannel : Nat
  ops : List FlashOp

namespace Machine

def flash (machine : Machine) : Flash := machine.engine.memory.flash

def sectorBuffer (machine : Machine) : List U8 :=
  (List.range flashSectorSize).map machine.engine.memory.sectorBuffer

def perform (machine : Machine) (ops : List FlashOp) : Machine :=
  { machine with
    engine.memory.flash := applyAll ops machine.flash
    ops := machine.ops ++ ops }

def flashRangeErase (machine : Machine) (offset count : Nat) : Machine := machine.perform [.rangeErase offset count]

def flashRangeProgram (machine : Machine) (offset : Nat) (data : List U8) : Machine :=
  machine.perform (Bootloader.flashRangeProgram offset data)

/-- The default configuration with what both functions set. -/
def memcpyConfig (channel : Nat) : Ctrl :=
  { Ctrl.null with
    en := true, dataSize := 0, incrRead := true, incrWrite := true, ringSel := true, ringSize := 12, chainTo := channel
    -- no pacing
    treqSel := 63 }

def dmaInitMemcpy (machine : Machine) : Machine :=
  let memcpyChannel := machine.claimed
  { machine with
    claimed := machine.claimed + 1
    memcpyChannel
    engine := machine.engine.set memcpyChannel { machine.engine.channels memcpyChannel with
      writeAddr := ⟨.sectorBuffer, 0⟩, transCount := flashSectorSize, ctrl := memcpyConfig memcpyChannel } }

def dmaChannelWaitForFinishBlocking (machine : Machine) (channel : Nat) : Option Machine :=
  (machine.engine.wait bus channel ((machine.engine.channels channel).remaining + 1)).map
    fun engine => { machine with engine }

def dmaMemcpySector (machine : Machine) (src : Nat) : Option Machine :=
  let channel := machine.memcpyChannel
  let addressed := machine.engine.set channel { machine.engine.channels channel with readAddr := ⟨.flash, src⟩ }
  dmaChannelWaitForFinishBlocking { machine with engine := addressed.trigger channel } channel

/-- The loop body. -/
def copySector (machine : Machine) (offset : Nat) : Option Machine :=
  let isCopied := machine.flash.read (fwPartitionOffset + offset) flashSectorSize =
    machine.flash.read (updatePartitionOffset + offset) flashSectorSize
  if isCopied then some machine
  else
    let fwOffset := fwPartitionOffset + offset
    (machine.dmaMemcpySector (updatePartitionOffset + offset)).map fun machine =>
      (machine.flashRangeErase fwOffset flashSectorSize).flashRangeProgram fwOffset machine.sectorBuffer

def copySectors (machine : Machine) (offset : Nat) : Option Machine :=
  if offset < fwPartitionSizeBytes then
    (machine.copySector offset).bind fun machine => machine.copySectors (offset + flashSectorSize)
  else some machine
termination_by fwPartitionSizeBytes - offset
decreasing_by
  simp only [flashSectorSize]
  omega

/-- `none` is a transfer that does not end. -/
def tryUpdateFirmware (machine : Machine) : Option Machine :=
  if isUpdateValid machine.flash then
    let machine := machine.dmaInitMemcpy.flashRangeErase fwPartitionOffset flashSectorSize
    (machine.copySectors flashSectorSize).bind fun machine =>
      (machine.dmaMemcpySector updatePartitionOffset).map fun machine =>
        machine.flashRangeProgram fwPartitionOffset machine.sectorBuffer
  else some machine

end Machine

end Fruitchip.Bootloader
