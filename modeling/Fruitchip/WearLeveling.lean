import Fruitchip.Board

/-! The wear-leveling library and its RP2040 flash driver. The driver's functions
all return true, so the branches for a failing backing store, and the lock that
only guards calls to it, do not appear. -/

namespace Fruitchip
namespace WearLeveling
open Embedded

def backingStoreWriteSize : Nat := 2

def logicalSize : Nat := wearLevelingBackingSize / 2

inductive Status where
  | failed
  | success
  | consolidated
  deriving DecidableEq, Repr

structure State where
  cache : List U8
  writeAddress : Nat

/-! The driver. Values are stored as their complement, so erased flash reads as
zero. -/

def bulkCount : Nat := 64

/-- `pico_program_bulk`: batches of at most 64 halfwords. -/
def picoProgramBulk (flashAddress : Nat) (values : List U16) : List FlashOp :=
  if values = [] then [] else
    .pageProgram flashAddress ((values.take bulkCount).flatMap (fun value => bytes16 (~~~value))) ::
      picoProgramBulk (flashAddress + 2 * (values.take bulkCount).length) (values.drop bulkCount)
termination_by values.length
decreasing_by
  have := List.length_pos_iff.mpr ‹values ≠ []›
  simp [bulkCount]
  omega

def backingStoreErase : List FlashOp := [.rangeErase settingsPartitionOffset wearLevelingBackingSize]

def backingStoreWriteBulk (address : Nat) (values : List U16) : List FlashOp :=
  picoProgramBulk (settingsPartitionOffset + address) values

def backingStoreWrite (address : Nat) (value : U16) : List FlashOp :=
  backingStoreWriteBulk address [value]

def backingStoreRead (flash : Flash) (address : Nat) : U16 :=
  ~~~(le16 (flash (settingsPartitionOffset + address)) (flash (settingsPartitionOffset + address + 1)))

def backingStoreReadBulk (flash : Flash) (address count : Nat) : List U16 :=
  (List.range count).map (fun index => backingStoreRead flash (address + index * backingStoreWriteSize))

/-! The library. -/

/-- Offset basis of the 64-bit FNV-1a hash. -/
def fnv1a64Init : U64 := 0xcbf29ce484222325

def fnv64aByte (hval : U64) (byte : U8) : U64 :=
  let hval := hval ^^^ byte.setWidth 64
  hval + ((hval <<< 1) + (hval <<< 4) + (hval <<< 5) + (hval <<< 7) + (hval <<< 8) + (hval <<< 40))

def fnv64aBuf (buf : List U8) (hval : U64) : U64 := buf.foldl fnv64aByte hval

/-- The halfwords a byte buffer holds when it is read through a `uint16_t *`. -/
def halfwords : List U8 → List U16
  | low :: high :: rest => le16 low high :: halfwords rest
  | _ => []

def clearCache : State := ⟨List.replicate logicalSize 0, logicalSize + 8⟩

def readConsolidated (flash : Flash) (state : State) : State :=
  let cache := (backingStoreReadBulk flash 0 (logicalSize / backingStoreWriteSize)).flatMap bytes16
  let expected := fnv64aBuf cache fnv1a64Init
  let entry := (backingStoreReadBulk flash logicalSize 4).flatMap bytes16
  if entry = bytes64 expected then { state with cache } else clearCache

def writeConsolidated (cache : List U8) : List FlashOp :=
  backingStoreWriteBulk 0 (halfwords cache) ++
    backingStoreWriteBulk logicalSize (halfwords (bytes64 (fnv64aBuf cache fnv1a64Init)))

def consolidateForce (state : State) : State × Status × List FlashOp :=
  ({ state with writeAddress := logicalSize + 8 }, .consolidated,
    backingStoreErase ++ writeConsolidated state.cache)

def consolidateIfNeeded (state : State) : State × Status × List FlashOp :=
  if wearLevelingBackingSize ≤ state.writeAddress then consolidateForce state
  else (state, .success, [])

def appendRaw (state : State) (value : U16) : State × Status × List FlashOp :=
  let ops := backingStoreWrite state.writeAddress value
  let state := { state with writeAddress := state.writeAddress + backingStoreWriteSize }
  let (state, status, more) := consolidateIfNeeded state
  (state, status, ops ++ more)

/-- Go on after a successful step; a consolidation or a failure is passed on. -/
def andThen (result : State × Status × List FlashOp)
    (next : State → State × Status × List FlashOp) : State × Status × List FlashOp :=
  match result with
  | (state, .success, ops) =>
    let (state, status, more) := next state
    (state, status, ops ++ more)
  | other => other

def logEntryMultibyteMaxBytes : Nat := 5

/-- `LOG_ENTRY_MAKE_MULTIBYTE` with its value bytes, as the eight raw bytes. -/
def logEntryMakeMultibyte (address : Nat) (value : List U8) : List U8 :=
  let head : List U8 :=
    [((BitVec.ofNat 8 value.length &&& 0x7) <<< 3) ||| (BitVec.ofNat 8 (address >>> 16) &&& 0x7),
      BitVec.ofNat 8 (address >>> 8), BitVec.ofNat 8 address]
  (head ++ value ++ List.replicate 5 0).take 8

def logEntryMakeOptimized64 (address : Nat) (value : U8) : U16 :=
  le16 ((1 <<< 6) ||| (BitVec.ofNat 8 address &&& 0x3F)) value

def logEntryMakeWord01 (address : Nat) (value : U16) : U16 :=
  le16 ((2 <<< 6) ||| ((if value = 0 then 0 else 1) <<< 5) ||| (BitVec.ofNat 8 (address >>> 9) &&& 0x1F))
    (BitVec.ofNat 8 (address >>> 1))

def writeRawMultibyte (state : State) (address : Nat) (value : List U8) :
    State × Status × List FlashOp :=
  let raw16 := halfwords (logEntryMakeMultibyte address value)
  andThen (appendRaw state (raw16.getD 0 0)) fun state =>
  andThen (appendRaw state (raw16.getD 1 0)) fun state =>
  andThen (if 1 < value.length then appendRaw state (raw16.getD 2 0) else (state, .success, [])) fun state =>
  if 3 < value.length then appendRaw state (raw16.getD 3 0) else (state, .success, [])

/-- The small-write optimisation for halfwords 0 and 1 at even addresses. -/
def word01 (address : Nat) : List U8 → Option U16
  | low :: high :: _ =>
    let v := le16 low high
    if address % 2 = 0 ∧ address < 16384 ∧ (v = 0 ∨ v = 1) then some v else none
  | _ => none

def writeRaw (state : State) (address : Nat) (p : List U8) : State × Status × List FlashOp :=
  match p with
  | [] => (state, .success, [])
  | byte :: rest =>
    match word01 address (byte :: rest) with
    | some v =>
      andThen (appendRaw state (logEntryMakeWord01 address v)) fun state =>
        writeRaw state (address + 2) (rest.drop 1)
    | none =>
      if address < 64 then
        andThen (appendRaw state (logEntryMakeOptimized64 address byte)) fun state =>
          writeRaw state (address + 1) rest
      else
        let thisLength := min logEntryMultibyteMaxBytes (byte :: rest).length
        andThen (writeRawMultibyte state address ((byte :: rest).take thisLength)) fun state =>
          writeRaw state (address + thisLength) ((byte :: rest).drop thisLength)
termination_by p.length
decreasing_by
  all_goals simp only [List.length_drop, List.length_cons, logEntryMultibyteMaxBytes]
  all_goals omega

/-- `memcpy` into the cache. -/
def memcpy (cache : List U8) (address : Nat) (value : List U8) : List U8 :=
  cache.take address ++ value ++ cache.drop (address + value.length)

/-- The loop of `wear_leveling_playback_log`: the cache, the address where the
log ends, and whether the log made sense. -/
def playbackLoop (flash : Flash) (address : Nat) (cache : List U8) : List U8 × Nat × Status :=
  if wearLevelingBackingSize ≤ address then (cache, address, .success) else
  let value := backingStoreRead flash address
  if value = 0 then (cache, address, .success) else
  let next := address + backingStoreWriteSize
  let raw0 := byteAt value 0
  let raw1 := byteAt value 1
  if raw0 >>> 6 = 0 then
    let second := backingStoreRead flash next
    let next := next + backingStoreWriteSize
    let a := ((raw0 &&& 0x7).toNat <<< 16) + (raw1.toNat <<< 8) + (byteAt second 0).toNat
    let l := ((raw0 >>> 3) &&& 0x7).toNat
    if logicalSize < a + l then (cache, next, .failed) else
    let third := backingStoreRead flash next
    let next := if 1 < l then next + backingStoreWriteSize else next
    let fourth := backingStoreRead flash next
    let next := if 3 < l then next + backingStoreWriteSize else next
    let raw8 := byteAt second 1 :: (bytes16 third ++ bytes16 fourth)
    playbackLoop flash next (memcpy cache a (raw8.take l))
  else if raw0 >>> 6 = 1 then
    let a := (raw0 &&& 0x3F).toNat
    if logicalSize ≤ a then (cache, next, .failed) else
    playbackLoop flash next (cache.set a raw1)
  else if raw0 >>> 6 = 2 then
    let a := ((raw0 &&& 0x1F).toNat <<< 9) + (raw1.toNat <<< 1)
    let v := (raw0 >>> 5) &&& 1
    if logicalSize ≤ a + 1 then (cache, next, .failed) else
    playbackLoop flash next ((cache.set a v).set (a + 1) 0)
  else (cache, next, .failed)
termination_by wearLevelingBackingSize - address
decreasing_by
  all_goals simp only [backingStoreWriteSize]
  all_goals (try split) <;> (try split) <;> omega

def playbackLog (flash : Flash) (state : State) : State × Status × List FlashOp :=
  let (cache, writeAddress, status) := playbackLoop flash (logicalSize + 8) state.cache
  let state : State := { cache, writeAddress }
  if status = .failed then consolidateForce state else consolidateIfNeeded state

/-- `wear_leveling_init`. The first `clear_cache` makes what RAM held irrelevant. -/
def wearLevelingInit (flash : Flash) : State × Status × List FlashOp :=
  let (state, status, ops) := playbackLog flash (readConsolidated flash clearCache)
  if status = .failed then (clearCache, .failed, ops) else (state, status, ops)

def wearLevelingWrite (state : State) (address : Nat) (value : List U8) :
    State × Status × List FlashOp :=
  if logicalSize < address + value.length then (state, .failed, []) else
  -- the status of a skipped write is `true`, which is WEAR_LEVELING_SUCCESS
  if (state.cache.drop address).take value.length = value then (state, .success, []) else
  let state := { state with cache := memcpy state.cache address value }
  andThen (writeRaw state address value) consolidateIfNeeded

def wearLevelingRead (state : State) (address length : Nat) : List U8 :=
  (state.cache.drop address).take length

end WearLeveling
end Fruitchip
