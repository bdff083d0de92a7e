import Fruitchip.Library.NorFlash

/-! The flash layout of `board_configuration.cmake` and the constants the
firmware is built with. -/

namespace Fruitchip
open Embedded

inductive FlashSize where
  | mb2
  | mb4
  | mb8
  | mb16
  deriving DecidableEq, Repr, Inhabited

def flashSectorSize : Nat := 4096

def flashPageSize : Nat := 256

def bootloaderPartitionSizeBytes : Nat := 32 * 1024

def fwPartitionOffset : Nat := bootloaderPartitionSizeBytes

def fwPartitionSizeBytes : Nat := 680 * 1024 - bootloaderPartitionSizeBytes

def updatePartitionOffset : Nat := bootloaderPartitionSizeBytes + fwPartitionSizeBytes

def updatePartitionSizeBytes : Nat := fwPartitionSizeBytes

def wearLevelingBackingSize : Nat := 8192

def settingsPartitionOffset : Nat :=
  bootloaderPartitionSizeBytes + fwPartitionSizeBytes + updatePartitionSizeBytes

def settingsPartitionSizeBytes : Nat := wearLevelingBackingSize

def appsPartitionOffset : Nat :=
  bootloaderPartitionSizeBytes + fwPartitionSizeBytes + updatePartitionSizeBytes +
    settingsPartitionSizeBytes

def appsPartitionSizeBytes : FlashSize → Nat
  | .mb2 => 712 * 1024
  | .mb4 => 2760 * 1024
  | .mb8 => 6856 * 1024
  | .mb16 => 15048 * 1024

/-- What the build fixes: the board file, the images linked into the firmware
and the two revision strings. -/
structure Config where
  flashSize : FlashSize
  bootRomQ0Pin : Nat
  bootRomCePin : Nat
  bootRomOePin : Nat
  rstPin : Nat
  loaderEeStage1 : List U8
  /-- Address of the stage 2 image, which is linked into flash. -/
  loaderEeStage2 : U32
  loaderEeStage2Size : U32
  /-- Address of the stage 3 image, which is linked into flash. -/
  loaderEeStage3 : U32
  loaderEeStage3Size : U32
  gitRev : List U8
  bootloaderGitRev : List U8
  deriving Inhabited

def Config.loaderEeStage1Size (config : Config) : U32 := BitVec.ofNat 32 config.loaderEeStage1.length

def xipBase : U32 := 0x10000000

/-- A load through the execute-in-place window. -/
def xipByte (flash : Flash) (address : U32) : U8 := flash (address - xipBase).toNat

def xipWord (flash : Flash) (address : U32) : U32 :=
  le32 (xipByte flash address) (xipByte flash (address + 1)) (xipByte flash (address + 2))
    (xipByte flash (address + 3))

def xipBytes (flash : Flash) (address : U32) (size : Nat) : List U8 :=
  (List.range size).map (fun index => xipByte flash (address + BitVec.ofNat 32 index))

/-- The calls that change flash: the two SDK functions, and the page program
command that the settings driver sends itself. -/
inductive FlashOp where
  | rangeErase (offset count : Nat)
  | rangeProgram (offset : Nat) (data : List U8)
  | pageProgram (address : Nat) (data : List U8)
  deriving DecidableEq, Repr

def FlashOp.apply : FlashOp → Flash → Flash
  | .rangeErase offset count, flash => flash.erase offset count
  | .rangeProgram offset data, flash => flash.program offset data
  | .pageProgram address data, flash => flash.program address data

/-- The addresses an operation can change. -/
def FlashOp.covers : FlashOp → Nat → Prop
  | .rangeErase offset count, address => offset ≤ address ∧ address < offset + count
  | .rangeProgram offset data, address => offset ≤ address ∧ address < offset + data.length
  | .pageProgram offset data, address => offset ≤ address ∧ address < offset + data.length

theorem FlashOp.apply_outside {op : FlashOp} {flash : Flash} {address : Nat}
    (outside : ¬ op.covers address) : op.apply flash address = flash address := by
  cases op with
  | rangeErase offset count =>
    apply Flash.erase_outside
    simp only [covers] at outside
    omega
  | rangeProgram offset data | pageProgram offset data =>
    apply Flash.program_outside
    simp only [covers] at outside
    omega

def applyAll (ops : List FlashOp) (flash : Flash) : Flash :=
  ops.foldl (fun current op => op.apply current) flash

@[simp] theorem applyAll_nil (flash : Flash) : applyAll [] flash = flash := rfl

@[simp] theorem applyAll_cons (op : FlashOp) (ops : List FlashOp) (flash : Flash) :
    applyAll (op :: ops) flash = applyAll ops (op.apply flash) := rfl

theorem applyAll_append (first rest : List FlashOp) (flash : Flash) :
    applyAll (first ++ rest) flash = applyAll rest (applyAll first flash) :=
  List.foldl_append

theorem applyAll_outside {ops : List FlashOp} {flash : Flash} {address : Nat}
    (outside : ∀ op ∈ ops, ¬ op.covers address) : applyAll ops flash address = flash address := by
  induction ops generalizing flash with
  | nil => rfl
  | cons op ops ih =>
    rw [applyAll_cons, ih fun other member => outside other (List.mem_cons_of_mem _ member)]
    exact FlashOp.apply_outside (outside op List.mem_cons_self)

end Fruitchip
