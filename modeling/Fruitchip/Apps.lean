import Fruitchip.Board

/-! The apps partition: the readers of `apps.h`, which load from it with 32-bit
pointer arithmetic, `build_apps_partition.py`, and the loop of the menu that reads
the index of apps back. -/

namespace Fruitchip
open Embedded

/-- "APPS". -/
def appsPartitionMagic1 : List U8 := [0x41, 0x50, 0x50, 0x53]

def appsPartitionMagic2 : U32 := 0x4FB80AB4

def appsPartitionVersion : U32 := 2

def appsPartitionAddr : U32 := xipBase + BitVec.ofNat 32 appsPartitionOffset

def appsPartitionDetect (flash : Flash) : Bool :=
  let isMagic1Valid := xipBytes flash appsPartitionAddr 4 = appsPartitionMagic1
  if ¬ isMagic1Valid then false else
  let isMagic2Valid := xipWord flash (appsPartitionAddr + 0x4) = appsPartitionMagic2
  if ¬ isMagic2Valid then false else
  let isVersionValid := xipWord flash (appsPartitionAddr + 0x8) = appsPartitionVersion
  if ¬ isVersionValid then false else true

def appsPartitionEntriesCount (flash : Flash) : U32 := xipWord flash (appsPartitionAddr + 0xC)

def appsPartitionEntryAddr (flash : Flash) (idx : U32) : U32 :=
  let offset := xipWord flash (appsPartitionAddr + 0x10 + idx * 2 * 4)
  appsPartitionAddr + offset

def appsPartitionEntryLength (flash : Flash) (idx : U32) : U32 :=
  xipWord flash (appsPartitionAddr + 0x14 + idx * 2 * 4)

end Fruitchip

namespace Fruitchip.AppsBuilder
open Embedded

def sectorSize : Nat := 4096

def sectorEraseValue : U8 := 0xFF

def version : Nat := 2

def magic2 : Nat := 0x4FB80AB4

/-- An item of `apps`, with the contents of its file. -/
structure App where
  name : List Char
  data : List U8
  attrs : Nat

/-! The checksum on unbounded integers. -/

def crc32Lut : List Nat := [
  0x00000000, 0x04C11DB7, 0x09823B6E, 0x0D4326D9,
  0x130476DC, 0x17C56B6B, 0x1A864DB2, 0x1E475005,
  0x2608EDB8, 0x22C9F00F, 0x2F8AD6D6, 0x2B4BCB61,
  0x350C9B64, 0x31CD86D3, 0x3C8EA00A, 0x384FBDBD]

def crc32Half (crc : Nat) : Nat := ((crc <<< 4) ^^^ crc32Lut.getD (crc >>> 28) 0) &&& 0xFFFFFFFF

def crc32Step (crc : Nat) (byte : U8) : Nat := crc32Half (crc32Half (crc ^^^ (byte.toNat <<< 24)))

def crc32 (data : List U8) : Nat := data.foldl crc32Step 0xFFFFFFFF

/-! `struct.pack`, which fails on a number that does not fit. -/

def packB (n : Nat) : Option (List U8) := if n < 256 then some [BitVec.ofNat 8 n] else none

def packI (n : Nat) : Option (List U8) := if n < 2 ^ 32 then some (bytes32 (BitVec.ofNat 32 n)) else none

def packII (first second : Nat) : Option (List U8) := do
  let first ← packI first
  let second ← packI second
  pure (first ++ second)

/-- `name.encode('ascii')`. -/
def encodeAscii (name : List Char) : Option (List U8) :=
  name.mapM fun c => if c.toNat < 128 then some (BitVec.ofNat 8 c.toNat) else none

def calculatePaddingForLen (dataLen : Nat) : Nat :=
  if dataLen % sectorSize ≠ 0 then (dataLen + sectorSize - 1) / sectorSize * sectorSize - dataLen else 0

def packEntry (data : List U8) (attrs : Nat) : Option (List U8) := do
  let head ← packII data.length attrs
  let crc ← packI (crc32 data)
  let entry := head ++ data ++ crc
  pure (entry ++ List.replicate (calculatePaddingForLen entry.length) sectorEraseValue)

def packName (name : List Char) : Option (List U8) := do
  let nameEncoded ← encodeAscii name
  let length ← packB nameEncoded.length
  pure (length ++ nameEncoded)

def appNames (apps : List App) : Option (List U8) := do
  let names ← apps.mapM (fun app => packName app.name)
  let count ← packB apps.length
  pure (count ++ names.flatten)

def lookupTable (offset : Nat) : List (List U8) → Option (List U8)
  | [] => some []
  | entry :: entries => do
    let row ← packII offset entry.length
    let rows ← lookupTable (offset + entry.length) entries
    pure (row ++ rows)

def header (count : Nat) : Option (List U8) := do
  let words ← packII magic2 version
  let count ← packI count
  pure (appsPartitionMagic1 ++ words ++ count)

def packEntries (apps : List App) : Option (List (List U8)) := do
  let names ← appNames apps
  let first ← packEntry names 0
  let rest ← apps.mapM (fun app => packEntry app.data app.attrs)
  pure (first :: rest)

/-- `main`: the bytes of the output file. -/
def main (apps : List App) : Option (List U8) := do
  let entries ← packEntries apps
  let hdr ← header entries.length
  let lookupTableLen := 2 * 4 * entries.length
  let hdrLen := hdr.length + lookupTableLen
  let hdrPaddingLen := calculatePaddingForLen hdrLen
  let table ← lookupTable (hdrLen + hdrPaddingLen) entries
  pure (hdr ++ table ++ List.replicate hdrPaddingLen sectorEraseValue ++ entries.flatten)

/-- The loop over the index: what is passed to `wstring_new_copied_str`, with
`app_idx`. `ptr` is the rest of the buffer. -/
def populateLoop (appsCount idx : U8) (ptr : List U8) : List (List U8 × U8) :=
  if below : idx < appsCount then
    let nameLen := ptr.headD 0
    let ptr := ptr.drop 1
    (ptr.take nameLen.toNat, idx + 1) :: populateLoop appsCount (idx + 1) (ptr.drop nameLen.toNat)
  else []
termination_by appsCount.toNat - idx.toNat
decreasing_by
  have := BitVec.lt_def.mp below
  have := appsCount.isLt
  rw [BitVec.toNat_add]
  simp
  omega

def appsListPopulate (appsIndex : List U8) : List (List U8 × U8) :=
  populateLoop (appsIndex.headD 0) 0 (appsIndex.drop 1)

end Fruitchip.AppsBuilder
