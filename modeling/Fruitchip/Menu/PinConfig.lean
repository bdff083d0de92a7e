import Fruitchip.Board
import Fruitchip.Cmd

/-! `pin_config.c` with `binary_info_parser.h`: the pins that a firmware image
says it was built for. Pointers are 32-bit distances from the start of the
image, wherever they lead. -/

namespace Fruitchip.Menu
open Embedded

/-- What `pico/binary_info` of the Pico SDK defines: the markers around the
pointers to the entries, what tells an entry from others, and where its fields are. -/
structure BinaryInfo where
  markerStart : U32
  markerEnd : U32
  tagRaspberryPi : U16
  typePinsWithName : U16
  typeOffset : U32
  tagOffset : U32
  pinMaskOffset : U32
  labelOffset : U32

def picoSdk : BinaryInfo where
  markerStart := 0x7188ebf2
  markerEnd := 0xe71aa390
  tagRaspberryPi := 0x5052
  typePinsWithName := 9
  typeOffset := 0
  tagOffset := 2
  pinMaskOffset := 4
  labelOffset := 8

/-- Memory by the distance from the start of the image. -/
abbrev Memory := U32 → U8

def Memory.halfword (memory : Memory) (address : U32) : U16 := le16 (memory address) (memory (address + 1))

def Memory.word (memory : Memory) (address : U32) : U32 :=
  le32 (memory address) (memory (address + 1)) (memory (address + 2)) (memory (address + 3))

/-- `strcmp` finds no difference. -/
def Memory.equals (memory : Memory) (address : U32) : List U8 → Bool
  | [] => memory address = 0
  | byte :: rest => memory address = byte && memory.equals (address + 1) rest

/-! `binary_info_parser.h`. -/

def boot2Size : U32 := 256

def binaryInfoFindMarker (info : BinaryInfo) (memory : Memory) : Option U32 :=
  let markers := (List.range 64).map fun index => boot2Size + BitVec.ofNat 32 (4 * index)
  markers.find? fun marker => memory.word marker = info.markerStart ∧ memory.word (marker + 16) = info.markerEnd

/-- The loop of `binary_info_map_address` from an index on. -/
def mapAddressFrom (memory : Memory) (mappingTable addr : U32) : (steps : Nat) → (i : U32) → Option U32
  | 0, _ => none
  | steps + 1, i =>
    let sourceAddrStart := memory.word (mappingTable + 4 * i)
    if sourceAddrStart = 0 then some addr
    else
      let destAddrStart := memory.word (mappingTable + 4 * (i + 1))
      let destAddrEnd := memory.word (mappingTable + 4 * (i + 2))
      let inRange := destAddrStart ≤ addr ∧ addr ≤ destAddrEnd
      if inRange then some (sourceAddrStart + addr - destAddrStart)
      else mapAddressFrom memory mappingTable addr steps (i + 3)

/-- After 2^30 entries the addresses repeat, and the loop never ends. -/
def binaryInfoMapAddress (memory : Memory) (mappingTable addr : U32) : Option U32 :=
  mapAddressFrom memory mappingTable addr (2 ^ 30) 0

/-! `pin_config.c`. -/

def baseAddress : U32 := 0x10000000 + BitVec.ofNat 32 fwPartitionOffset

/-- `convert_ram_address`, as the distance from `program`. -/
def convertRamAddress (address : U32) : U32 := address - baseAddress

/-- One mask for each role. -/
structure PinMasks where
  data : U32
  ce : U32
  oe : U32
  rst : U32
  deriving DecidableEq, Repr

def PinMasks.none : PinMasks := ⟨0, 0, 0, 0⟩

/-- `a && b && c && d`. -/
def PinMasks.all (masks : PinMasks) : Prop := masks.data ≠ 0 ∧ masks.ce ≠ 0 ∧ masks.oe ≠ 0 ∧ masks.rst ≠ 0

instance (masks : PinMasks) : Decidable masks.all := inferInstanceAs (Decidable (_ ∧ _))

def PinMasks.union (masks : PinMasks) : U32 := masks.data ||| masks.ce ||| masks.oe ||| masks.rst

def ascii (text : List Char) : List U8 := text.map fun char => BitVec.ofNat 8 char.toNat

/-- "Boot ROM " and a name. -/
def bootRomLabel (name : List Char) : List U8 := ascii (['B', 'o', 'o', 't', ' ', 'R', 'O', 'M', ' '] ++ name)

def dataLabels : List (List U8) :=
  ['0', '1', '2', '3', '4', '5', '6', '7'].map fun digit => bootRomLabel ['Q', digit]

def ceLabel : List U8 := bootRomLabel ['C', 'E']

def oeLabel : List U8 := bootRomLabel ['O', 'E']

def rstLabel : List U8 := ascii ['R', 'S', 'T']

/-- The masks with the pins of one more label. -/
def PinMasks.add (masks : PinMasks) (memory : Memory) (label pinMask : U32) : PinMasks where
  data := if dataLabels.any (memory.equals label) then masks.data ||| pinMask else masks.data
  ce := if memory.equals label ceLabel then masks.ce ||| pinMask else masks.ce
  oe := if memory.equals label oeLabel then masks.oe ||| pinMask else masks.oe
  rst := if memory.equals label rstLabel then masks.rst ||| pinMask else masks.rst

/-- The loop body of `pin_config_get_from_update`. -/
def pinConfigEntry (info : BinaryInfo) (memory : Memory) (entriesStart mappingTable : U32) (masks : PinMasks)
    (i : Nat) : Option PinMasks :=
  let entryPtr := convertRamAddress (entriesStart + BitVec.ofNat 32 (4 * i))
  let entry := convertRamAddress (memory.word entryPtr)
  if memory.halfword (entry + info.tagOffset) ≠ info.tagRaspberryPi then some masks
  else if memory.halfword (entry + info.typeOffset) ≠ info.typePinsWithName then some masks
  else
    (binaryInfoMapAddress memory mappingTable (memory.word (entry + info.labelOffset))).map fun label =>
      masks.add memory (convertRamAddress label) (memory.word (entry + info.pinMaskOffset))

/-- `pin_config_get_from_update`. `none` is a mapping table without an end. -/
def pinConfigGetFromUpdate (info : BinaryInfo) (memory : Memory) (masks : PinMasks) : Option PinMasks :=
  match binaryInfoFindMarker info memory with
  | none => some masks
  | some markerStart =>
    let entriesStart := memory.word (markerStart + 4)
    let entriesEnd := memory.word (markerStart + 8)
    let mappingTable := convertRamAddress (memory.word (markerStart + 12))
    let entriesSize := entriesEnd - entriesStart
    let entriesCount := entriesSize / 4
    (List.range entriesCount.toNat).foldlM (pinConfigEntry info memory entriesStart mappingTable) masks

/-- `pin_config_get_current`, with what `modchip_pin_config_with_retry` returns. -/
def pinConfigGetCurrent (modchipPinConfig : U8 → U32) : PinMasks where
  data := modchipPinConfig modchipPinBootRomData
  ce := modchipPinConfig modchipPinBootRomCe
  oe := modchipPinConfig modchipPinBootRomOe
  rst := modchipPinConfig modchipPinReset

end Fruitchip.Menu
