import Fruitchip.Board
import Fruitchip.Cmd
import Fruitchip.Library.Crc

/-! The bootloader's `main.c`: the update of the firmware partition, as the flash
operations that power can be lost between. Erasing a sector and programming a
page are single operations. -/

namespace Fruitchip.Bootloader
open Embedded

/-- `dma_crc32` as the sniffer computes it. -/
def dmaCrc32 (data : List U8) (crc : U32) : U32 := Crc.crc32 crc data

/-- The checksum that the second stage bootloader carries at its end. -/
def bl2crc (flash : Flash) (x : Nat) : U32 :=
  le32 (flash (x + 0xfc)) (flash (x + 0xfd)) (flash (x + 0xfe)) (flash (x + 0xff))

def isFwValid (flash : Flash) : Bool :=
  dmaCrc32 (flash.read fwPartitionOffset 252) 0xffffffff = bl2crc flash fwPartitionOffset

def isUpdateValid (flash : Flash) : Bool :=
  dmaCrc32 (flash.read updatePartitionOffset 252) 0xffffffff = bl2crc flash updatePartitionOffset

/-- `flash_range_program` goes page by page. -/
def flashRangeProgram (offset : Nat) (data : List U8) : List FlashOp :=
  (List.range (data.length / flashPageSize)).map fun page =>
    .pageProgram (offset + flashPageSize * page) ((data.drop (flashPageSize * page)).take flashPageSize)

/-- The loop body of `try_update_firmware`: a sector that is copied already is left alone. -/
def copySector (flash : Flash) (offset : Nat) : List FlashOp :=
  let sector := flash.read (updatePartitionOffset + offset) flashSectorSize
  if flash.read (fwPartitionOffset + offset) flashSectorSize = sector then []
  else .rangeErase (fwPartitionOffset + offset) flashSectorSize ::
    flashRangeProgram (fwPartitionOffset + offset) sector

def copySectors (flash : Flash) (offset : Nat) : List FlashOp :=
  if offset < fwPartitionSizeBytes then
    let ops := copySector flash offset
    ops ++ copySectors (applyAll ops flash) (offset + flashSectorSize)
  else []
termination_by fwPartitionSizeBytes - offset
decreasing_by
  simp only [flashSectorSize]
  omega

/-- Erasing the first sector breaks the firmware; writing it back comes last. -/
def eraseFirstSector : FlashOp := .rangeErase fwPartitionOffset flashSectorSize

def tryUpdateFirmware (flash : Flash) : List FlashOp :=
  if isUpdateValid flash then
    let erased := eraseFirstSector.apply flash
    let copied := copySectors erased flashSectorSize
    let sector := (applyAll copied erased).read updatePartitionOffset flashSectorSize
    eraseFirstSector :: copied ++ flashRangeProgram fwPartitionOffset sector
  else []

/-- The flash operations of `main` when scratch 0 holds `scratch0`. -/
def main (flash : Flash) (scratch0 : U32) : List FlashOp :=
  let isFwOk := isFwValid flash
  let updateRequested := scratch0 = modchipUpdateMagic
  if updateRequested ∨ ¬ isFwOk then tryUpdateFirmware flash else []

/-- `try_start_firmware` jumps to the firmware. -/
def tryStartFirmware (flash : Flash) : Bool := isFwValid flash

/-- One time that the bootloader runs. Power is lost after `steps` flash
operations, unless there are no more. -/
structure Boot where
  scratch0 : U32
  steps : Nat
  deriving DecidableEq, Repr

namespace Boot

def ops (boot : Boot) (flash : Flash) : List FlashOp := main flash boot.scratch0

/-- Flash after the boot, interrupted or not. -/
def flash (boot : Boot) (flash : Flash) : Flash := applyAll ((boot.ops flash).take boot.steps) flash

/-- The boot gets to `try_start_firmware`, which finds a valid firmware. -/
def Starts (boot : Boot) (flash : Flash) : Prop :=
  (boot.ops flash).length ≤ boot.steps ∧ tryStartFirmware (boot.flash flash)

end Boot

def runBoots (flash : Flash) (boots : List Boot) : Flash :=
  boots.foldl (fun flash boot => boot.flash flash) flash

@[simp] theorem runBoots_nil (flash : Flash) : runBoots flash [] = flash := rfl

@[simp] theorem runBoots_cons (flash : Flash) (boot : Boot) (boots : List Boot) :
    runBoots flash (boot :: boots) = runBoots (boot.flash flash) boots := rfl

def fwImage (flash : Flash) : List U8 := flash.read fwPartitionOffset fwPartitionSizeBytes

def updateImage (flash : Flash) : List U8 := flash.read updatePartitionOffset updatePartitionSizeBytes

end Fruitchip.Bootloader
