import Fruitchip.Menu.PinConfig

/-! `pin_config.c` and `binary_info_parser.h` once more, on the buffer that holds
an update: a read that leaves the buffer is a fault, and so is a table without
an end. -/

namespace Fruitchip.Menu
open Embedded

inductive Fault where
  | outside
  | endless
  deriving DecidableEq, Repr

structure Buffer where
  memory : Memory
  size : U32

namespace Buffer

variable (buffer : Buffer)

/-- So many bytes from an address on lie inside. -/
def Holds (address : U32) (count : Nat) : Prop := address.toNat + count ≤ buffer.size.toNat

instance (address : U32) (count : Nat) : Decidable (buffer.Holds address count) := Nat.decLe _ _

def load {α : Type} (address : U32) (count : Nat) (value : α) : Except Fault α :=
  if buffer.Holds address count then .ok value else .error .outside

def byte (address : U32) : Except Fault U8 := buffer.load address 1 (buffer.memory address)

def halfword (address : U32) : Except Fault U16 := buffer.load address 2 (buffer.memory.halfword address)

def word (address : U32) : Except Fault U32 := buffer.load address 4 (buffer.memory.word address)

/-- `strcmp`, which reads up to the first difference. -/
def equals (address : U32) : List U8 → Except Fault Bool
  | [] => do
    let found ← buffer.byte address
    pure (found = 0)
  | byte :: rest => do
    let found ← buffer.byte address
    if found = byte then equals (address + 1) rest else pure false

/-- The loop of `binary_info_find_marker` from an offset on. -/
def findMarkerFrom (info : BinaryInfo) : (steps : Nat) → (offset : U32) → Except Fault (Option U32)
  | 0, _ => pure none
  | steps + 1, offset => do
    let markerStart := boot2Size + offset
    let first ← buffer.word markerStart
    if first ≠ info.markerStart then findMarkerFrom info steps (offset + 4)
    else
      let last ← buffer.word (markerStart + 16)
      if last ≠ info.markerEnd then findMarkerFrom info steps (offset + 4) else pure (some markerStart)

def binaryInfoFindMarker (info : BinaryInfo) : Except Fault (Option U32) := buffer.findMarkerFrom info 64 0

/-- The loop of `binary_info_map_address` from an index on. -/
def mapAddressFrom (mappingTable addr : U32) : (steps : Nat) → (i : U32) → Except Fault U32
  | 0, _ => .error .endless
  | steps + 1, i => do
    let sourceAddrStart ← buffer.word (mappingTable + 4 * i)
    if sourceAddrStart = 0 then pure addr
    else
      let destAddrStart ← buffer.word (mappingTable + 4 * (i + 1))
      let destAddrEnd ← buffer.word (mappingTable + 4 * (i + 2))
      if destAddrStart ≤ addr ∧ addr ≤ destAddrEnd then pure (sourceAddrStart + addr - destAddrStart)
      else mapAddressFrom mappingTable addr steps (i + 3)

def binaryInfoMapAddress (mappingTable addr : U32) : Except Fault U32 := buffer.mapAddressFrom mappingTable addr (2 ^ 30) 0

/-- One comparison of the label, and the pins of the entry if it succeeds. -/
def addPins (label pinMask : U32) (mask : U32) (name : List U8) : Except Fault U32 := do
  let same ← buffer.equals label name
  if same then
    let pins ← buffer.word pinMask
    pure (mask ||| pins)
  else pure mask

def addLabel (masks : PinMasks) (label pinMask : U32) : Except Fault PinMasks := do
  let data ← dataLabels.foldlM (buffer.addPins label pinMask) masks.data
  let ce ← buffer.addPins label pinMask masks.ce ceLabel
  let oe ← buffer.addPins label pinMask masks.oe oeLabel
  let rst ← buffer.addPins label pinMask masks.rst rstLabel
  pure ⟨data, ce, oe, rst⟩

/-- The loop body of `pin_config_get_from_update`. -/
def pinConfigEntry (info : BinaryInfo) (entriesStart mappingTable : U32) (masks : PinMasks) (i : Nat) :
    Except Fault PinMasks := do
  let entry ← buffer.word (convertRamAddress (entriesStart + BitVec.ofNat 32 (4 * i)))
  let entry := convertRamAddress entry
  let tag ← buffer.halfword (entry + info.tagOffset)
  if tag ≠ info.tagRaspberryPi then pure masks
  else
    let type ← buffer.halfword (entry + info.typeOffset)
    if type ≠ info.typePinsWithName then pure masks
    else
      let label ← buffer.word (entry + info.labelOffset)
      let label ← buffer.binaryInfoMapAddress mappingTable label
      buffer.addLabel masks (convertRamAddress label) (entry + info.pinMaskOffset)

def pinConfigGetFromUpdate (info : BinaryInfo) (masks : PinMasks) : Except Fault PinMasks := do
  match ← buffer.binaryInfoFindMarker info with
  | none => pure masks
  | some markerStart =>
    let entriesStart ← buffer.word (markerStart + 4)
    let entriesEnd ← buffer.word (markerStart + 8)
    let mappingTable ← buffer.word (markerStart + 12)
    let mappingTable := convertRamAddress mappingTable
    let entriesCount := (entriesEnd - entriesStart) / 4
    (List.range entriesCount.toNat).foldlM (buffer.pinConfigEntry info entriesStart mappingTable) masks

end Buffer

end Fruitchip.Menu
