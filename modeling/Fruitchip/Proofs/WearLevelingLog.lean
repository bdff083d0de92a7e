import Fruitchip.WearLeveling
import Fruitchip.Library.PowerCuts

/-! What the settings partition means: a checkpoint of the cache and the log of
one-halfword entries behind it. Every write keeps the log in step with the
cache, over consolidations in the middle of a write, and `wear_leveling_init`
reads it back. -/

namespace Fruitchip.WearLeveling
open Embedded

theorem memcpy_length {cache value : List U8} {address : Nat}
    (inside : address + value.length ≤ cache.length) :
    (memcpy cache address value).length = cache.length := by
  simp only [memcpy, List.length_append, List.length_take, List.length_drop]
  omega

theorem memcpy_nil (cache : List U8) (address : Nat) : memcpy cache address [] = cache := by
  simp [memcpy]

theorem memcpy_cons {cache rest : List U8} {address : Nat} {byte : U8}
    (inside : address < cache.length) :
    memcpy cache address (byte :: rest) = memcpy (cache.set address byte) (address + 1) rest := by
  have before : (cache.set address byte).take (address + 1) = cache.take address ++ [byte] := by
    rw [List.take_succ_eq_append_getElem (by simpa using inside), List.getElem_set_self,
      List.take_set_of_le (Nat.le_refl _)]
  have after : (cache.set address byte).drop (address + 1 + rest.length) =
      cache.drop (address + (byte :: rest).length) := by
    rw [List.drop_set_of_lt (by omega), List.length_cons, Nat.add_assoc, Nat.add_comm 1]
  rw [memcpy, memcpy, before, after]
  simp only [List.append_assoc, List.cons_append, List.nil_append]

theorem memcpy_same {cache value : List U8} {address : Nat}
    (same : (cache.drop address).take value.length = value) : memcpy cache address value = cache := by
  have tail : value ++ cache.drop (address + value.length) = cache.drop address := by
    have split := List.take_append_drop value.length (cache.drop address)
    rwa [same, List.drop_drop] at split
  rw [memcpy, List.append_assoc, tail, List.take_append_drop]

theorem getD_memcpy {cache value : List U8} {address : Nat} (index : Nat)
    (inside : address + value.length ≤ cache.length) :
    (memcpy cache address value).getD index 0 =
      if address ≤ index ∧ index < address + value.length then value.getD (index - address) 0
      else cache.getD index 0 := by
  have before : (cache.take address).length = address := by
    rw [List.length_take]
    omega
  simp only [memcpy, List.append_assoc, List.getD_eq_getElem?_getD]
  rcases Nat.lt_or_ge index address with low | high
  · rw [if_neg (by omega), List.getElem?_append_left (by omega), List.getElem?_take_of_lt low]
  · rw [List.getElem?_append_right (by omega), before]
    rcases Nat.lt_or_ge index (address + value.length) with within | beyond
    · rw [if_pos ⟨high, within⟩, List.getElem?_append_left (by omega)]
    · rw [if_neg (by omega), List.getElem?_append_right (by omega), List.getElem?_drop]
      congr 2
      omega

/-- The two formats of one halfword. They cover every address below 64. -/
inductive Entry where
  | optimized64 (address : Fin 64) (value : U8)
  | word01 (half : Fin 32) (value : Bool)

namespace Entry

def encode : Entry → U16
  | optimized64 address value => logEntryMakeOptimized64 address value
  | word01 half value => logEntryMakeWord01 (2 * half) (if value then 1 else 0)

def update (cache : List U8) : Entry → List U8
  | optimized64 address value => cache.set address value
  | word01 half value => (cache.set (2 * half) (boolByte value)).set (2 * half + 1) 0

@[simp] theorem update_length (cache : List U8) (entry : Entry) :
    (entry.update cache).length = cache.length := by
  cases entry <;> simp [update]

private theorem optimized64_tag (address : Fin 64) :
    let tag : U8 := (1 <<< 6) ||| (BitVec.ofNat 8 address &&& 0x3F)
    tag ≠ 0 ∧ tag >>> 6 = 1 ∧ (tag &&& 0x3F).toNat = address := by
  revert address
  decide

private theorem word01_tag (half : Fin 32) (value : Bool) :
    let v : U16 := if value then 1 else 0
    let tag : U8 := (2 <<< 6) ||| ((if v = 0 then 0 else 1) <<< 5) |||
      (BitVec.ofNat 8 ((2 * half.val) >>> 9) &&& 0x1F)
    tag ≠ 0 ∧ tag >>> 6 = 2 ∧ (tag >>> 5) &&& 1 = boolByte value ∧
      ((tag &&& 0x1F).toNat <<< 9) + ((BitVec.ofNat 8 ((2 * half.val) >>> 1)).toNat <<< 1) = 2 * half := by
  revert half value
  decide

theorem encode_ne_zero (entry : Entry) : entry.encode ≠ 0 := by
  intro zero
  have low := congrArg (byteAt · 0) zero
  cases entry with
  | optimized64 address value =>
    simp only [encode, logEntryMakeOptimized64, byteAt_le16_zero] at low
    exact (optimized64_tag address).1 low
  | word01 half value =>
    simp only [encode, logEntryMakeWord01, byteAt_le16_zero] at low
    exact (word01_tag half value).1 low

end Entry

/-- Where the log begins, behind the cache and its hash. -/
def logStart : Nat := logicalSize + 8

theorem playbackLoop_empty {flash : Flash} {address : Nat} (cache : List U8)
    (empty : address < wearLevelingBackingSize → backingStoreRead flash address = 0) :
    playbackLoop flash address cache = (cache, address, .success) := by
  rw [playbackLoop]
  split
  · rfl
  next inside => rw [if_pos (empty (Nat.lt_of_not_le inside))]

theorem playbackLoop_entry {flash : Flash} {address : Nat} {entry : Entry} (cache : List U8)
    (inside : address < wearLevelingBackingSize)
    (stored : backingStoreRead flash address = entry.encode) :
    playbackLoop flash address cache = playbackLoop flash (address + 2) (entry.update cache) := by
  rw [playbackLoop, if_neg (Nat.not_le_of_lt inside), stored, if_neg entry.encode_ne_zero]
  cases entry with
  | optimized64 slot value =>
    obtain ⟨_, kind, target⟩ := Entry.optimized64_tag slot
    have bounded : ¬ logicalSize ≤ slot.val := by
      have := slot.isLt
      simp only [logicalSize, wearLevelingBackingSize]
      omega
    simp only [Entry.encode, logEntryMakeOptimized64, byteAt_le16_zero, byteAt_le16_one, kind, target,
      bounded, Entry.update, backingStoreWriteSize]
    rfl
  | word01 half value =>
    obtain ⟨_, kind, stored, target⟩ := Entry.word01_tag half value
    have bounded : ¬ logicalSize ≤ 2 * half.val + 1 := by
      have := half.isLt
      simp only [logicalSize, wearLevelingBackingSize]
      omega
    simp only [Entry.encode, logEntryMakeWord01, byteAt_le16_zero, byteAt_le16_one, kind, stored, target,
      bounded, Entry.update, backingStoreWriteSize]
    rfl

theorem playbackLoop_entries {flash : Flash} (entries : List Entry) {address : Nat} (cache : List U8)
    (fits : address + 2 * entries.length ≤ wearLevelingBackingSize)
    (stored : ∀ index (inside : index < entries.length),
      backingStoreRead flash (address + 2 * index) = entries[index].encode) :
    playbackLoop flash address cache =
      playbackLoop flash (address + 2 * entries.length) (entries.foldl Entry.update cache) := by
  induction entries generalizing address cache with
  | nil => rfl
  | cons entry entries ih =>
    simp only [List.length_cons] at fits
    have first : backingStoreRead flash address = entry.encode := stored 0 (by simp)
    have rest := ih (entry.update cache) (show address + 2 + 2 * entries.length ≤ _ by omega) (by
      intro index inside
      have here := stored (index + 1) (by simpa using inside)
      rwa [List.getElem_cons_succ, show address + 2 * (index + 1) = address + 2 + 2 * index by omega] at here)
    rw [playbackLoop_entry cache (by omega) first, rest, List.foldl_cons, List.length_cons,
      show address + 2 + 2 * entries.length = address + 2 * (entries.length + 1) by omega]

/-- The bytes that hold a list of halfwords in flash. -/
private def storedBytes (values : List U16) : List U8 := values.flatMap (fun value => bytes16 (~~~value))

theorem flatMap_pairs {bytes : U16 → List U8} (pair : ∀ value, (bytes value).length = 2)
    (values : List U16) : (values.flatMap bytes).length = 2 * values.length := by
  induction values with
  | nil => rfl
  | cons value values ih =>
    rw [List.flatMap_cons, List.length_append, pair, ih, List.length_cons]
    omega

private theorem storedBytes_length (values : List U16) : (storedBytes values).length = 2 * values.length :=
  flatMap_pairs (fun _ => rfl) values

/-- The batches of a bulk write amount to one program operation. -/
theorem applyAll_picoProgramBulk (flashAddress : Nat) (values : List U16) (flash : Flash) :
    applyAll (picoProgramBulk flashAddress values) flash =
      flash.program flashAddress (storedBytes values) := by
  induction flashAddress, values using picoProgramBulk.induct generalizing flash with
  | case1 flashAddress =>
    rw [picoProgramBulk, if_pos rfl]
    exact (Flash.program_nil flash flashAddress).symm
  | case2 flashAddress values some ih =>
    have split : storedBytes values =
        storedBytes (values.take bulkCount) ++ storedBytes (values.drop bulkCount) := by
      rw [storedBytes, storedBytes, storedBytes, ← List.flatMap_append, List.take_append_drop]
    rw [picoProgramBulk, if_neg some, applyAll_cons, ih, split, Flash.program_append, storedBytes_length]
    rfl

theorem backingStoreRead_congr {first second : Flash} {address : Nat}
    (low : first (settingsPartitionOffset + address) = second (settingsPartitionOffset + address))
    (high : first (settingsPartitionOffset + address + 1) = second (settingsPartitionOffset + address + 1)) :
    backingStoreRead first address = backingStoreRead second address := by
  rw [backingStoreRead, backingStoreRead, low, high]

theorem backingStoreRead_erased {flash : Flash} {address : Nat}
    (low : flash (settingsPartitionOffset + address) = 0xFF)
    (high : flash (settingsPartitionOffset + address + 1) = 0xFF) : backingStoreRead flash address = 0 := by
  rw [backingStoreRead, low, high]
  decide

theorem backingStoreWriteBulk_outside {flash : Flash} {address other : Nat} (values : List U16)
    (outside : other < address ∨ address + 2 * values.length ≤ other) :
    applyAll (backingStoreWriteBulk address values) flash (settingsPartitionOffset + other) =
      flash (settingsPartitionOffset + other) := by
  rw [backingStoreWriteBulk, applyAll_picoProgramBulk]
  apply Flash.program_outside
  rw [storedBytes_length]
  omega

private theorem backingStoreRead_write {flash : Flash} {address : Nat} (value : U16)
    (low : flash (settingsPartitionOffset + address) = 0xFF)
    (high : flash (settingsPartitionOffset + address + 1) = 0xFF) :
    backingStoreRead (applyAll (backingStoreWrite address value) flash) address = value := by
  have first : flash.program (settingsPartitionOffset + address) (storedBytes [value])
      (settingsPartitionOffset + address) = byteAt (~~~value) 0 :=
    @Flash.program_erased flash (settingsPartitionOffset + address) 0 (storedBytes [value]) (by decide : 0 < 2) low
  have second : flash.program (settingsPartitionOffset + address) (storedBytes [value])
      (settingsPartitionOffset + address + 1) = byteAt (~~~value) 1 :=
    @Flash.program_erased flash (settingsPartitionOffset + address) 1 (storedBytes [value]) (by decide : 1 < 2) high
  rw [backingStoreRead, backingStoreWrite, backingStoreWriteBulk, applyAll_picoProgramBulk, first, second,
    le16_byteAt, BitVec.not_not]

theorem backingStoreRead_written {flash : Flash} {address index : Nat} {values : List U16}
    (inside : index < values.length)
    (erased : ∀ other, address ≤ other → other < address + 2 * values.length →
      flash (settingsPartitionOffset + other) = 0xFF) :
    backingStoreRead (applyAll (backingStoreWriteBulk address values) flash) (address + 2 * index) =
      values[index] := by
  induction values generalizing address index flash with
  | nil => cases inside
  | cons value values ih =>
    simp only [List.length_cons] at erased inside
    have split (current : Flash) : applyAll (backingStoreWriteBulk address (value :: values)) current =
        applyAll (backingStoreWriteBulk (address + 2) values) (applyAll (backingStoreWrite address value) current) := by
      simp only [backingStoreWrite, backingStoreWriteBulk, applyAll_picoProgramBulk]
      exact Flash.program_append current _ (bytes16 (~~~value)) (storedBytes values)
    rw [split]
    cases index with
    | zero =>
      have first : backingStoreRead (applyAll (backingStoreWrite address value) flash) address = value := by
        apply backingStoreRead_write
        · exact erased address (by omega) (by omega)
        · exact erased (address + 1) (by omega) (by omega)
      refine Eq.trans (backingStoreRead_congr ?_ ?_) first
      · exact backingStoreWriteBulk_outside values (.inl (by omega))
      · rw [Nat.add_assoc]
        exact backingStoreWriteBulk_outside values (.inl (by omega))
    | succ index =>
      rw [show address + 2 * (index + 1) = address + 2 + 2 * index by omega, ih (by omega)]
      · rfl
      · intro other low high
        rw [backingStoreWrite, backingStoreWriteBulk_outside [value] (.inr low)]
        exact erased other (by omega) (by omega)

theorem backingStoreReadBulk_congr {first second : Flash} {address count : Nat}
    (same : ∀ other, address ≤ other → other < address + 2 * count →
      first (settingsPartitionOffset + other) = second (settingsPartitionOffset + other)) :
    backingStoreReadBulk first address count = backingStoreReadBulk second address count := by
  apply List.map_congr_left
  intro index member
  have inside := List.mem_range.mp member
  simp only [backingStoreWriteSize]
  apply backingStoreRead_congr
  · exact same _ (by omega) (by omega)
  · exact same (address + index * 2 + 1) (by omega) (by omega)

theorem backingStoreReadBulk_written {flash : Flash} {address : Nat} {values : List U16}
    (erased : ∀ other, address ≤ other → other < address + 2 * values.length →
      flash (settingsPartitionOffset + other) = 0xFF) :
    backingStoreReadBulk (applyAll (backingStoreWriteBulk address values) flash) address values.length =
      values := by
  apply List.ext_getElem
  · simp [backingStoreReadBulk]
  · intro index _ inside
    have written := backingStoreRead_written inside erased
    simpa only [backingStoreReadBulk, List.getElem_map, List.getElem_range, backingStoreWriteSize,
      Nat.mul_comm] using written

theorem flatMap_halfwords {bytes : List U8} (even : bytes.length % 2 = 0) :
    (halfwords bytes).flatMap bytes16 = bytes := by
  induction bytes using halfwords.induct with
  | case1 low high rest ih =>
    have shorter := ih (by simp only [List.length_cons] at even; omega)
    rw [halfwords, List.flatMap_cons, shorter, bytes16_le16, List.cons_append, List.cons_append,
      List.nil_append]
  | case2 bytes short =>
    match bytes, short, even with
    | [], _, _ => rfl
    | low :: high :: rest, short, _ => exact absurd rfl (short low high rest)

theorem halfwords_length (bytes : List U8) : (halfwords bytes).length = bytes.length / 2 := by
  induction bytes using halfwords.induct with
  | case1 low high rest ih =>
    simp only [halfwords, List.length_cons, ih]
    omega
  | case2 bytes short =>
    match bytes, short with
    | [], _ => rfl
    | [_], _ => simp [halfwords]
    | low :: high :: rest, short => exact absurd rfl (short low high rest)

theorem readConsolidated_length (flash : Flash) :
    (readConsolidated flash clearCache).cache.length = logicalSize := by
  rw [readConsolidated]
  split
  · simp only [flatMap_pairs bytes16_length, backingStoreReadBulk, List.length_map, List.length_range]
    rfl
  · rw [clearCache, List.length_replicate]

theorem readConsolidated_congr {first second : Flash} (state : State)
    (same : ∀ other < logStart,
      first (settingsPartitionOffset + other) = second (settingsPartitionOffset + other)) :
    readConsolidated first state = readConsolidated second state := by
  have cache : backingStoreReadBulk first 0 (logicalSize / backingStoreWriteSize) =
      backingStoreReadBulk second 0 (logicalSize / backingStoreWriteSize) := by
    apply backingStoreReadBulk_congr
    intro other _ high
    simp only [logicalSize, wearLevelingBackingSize, backingStoreWriteSize] at high
    exact same other (by simp only [logStart, logicalSize, wearLevelingBackingSize]; omega)
  have hash : backingStoreReadBulk first logicalSize 4 = backingStoreReadBulk second logicalSize 4 := by
    apply backingStoreReadBulk_congr
    intro other _ high
    exact same other (by simp only [logStart]; omega)
  rw [readConsolidated, readConsolidated, cache, hash]

theorem readConsolidated_written {flash : Flash} {cache : List U8} (length : cache.length = logicalSize)
    (erased : ∀ other < logStart, flash (settingsPartitionOffset + other) = 0xFF) (state : State) :
    readConsolidated (applyAll (writeConsolidated cache) flash) state = { state with cache } := by
  have count : (halfwords cache).length = logicalSize / backingStoreWriteSize := by
    rw [halfwords_length, length]
    rfl
  have hashCount : (halfwords (bytes64 (fnv64aBuf cache fnv1a64Init))).length = 4 := by
    rw [halfwords_length, bytes64_length]
  have total : logStart = 2 * (logicalSize / backingStoreWriteSize) + 8 := rfl
  have half : logicalSize = 2 * (logicalSize / backingStoreWriteSize) := rfl
  have first : backingStoreReadBulk (applyAll (writeConsolidated cache) flash) 0
      (logicalSize / backingStoreWriteSize) = halfwords cache := by
    rw [writeConsolidated, applyAll_append, ← count]
    have kept : backingStoreReadBulk (applyAll (backingStoreWriteBulk logicalSize
        (halfwords (bytes64 (fnv64aBuf cache fnv1a64Init))))
          (applyAll (backingStoreWriteBulk 0 (halfwords cache)) flash)) 0 (halfwords cache).length =
        backingStoreReadBulk (applyAll (backingStoreWriteBulk 0 (halfwords cache)) flash) 0
          (halfwords cache).length := by
      apply backingStoreReadBulk_congr
      intro other _ high
      exact backingStoreWriteBulk_outside _ (.inl (by omega))
    rw [kept]
    apply backingStoreReadBulk_written
    intro other _ high
    exact erased other (by omega)
  have second : backingStoreReadBulk (applyAll (writeConsolidated cache) flash) logicalSize 4 =
      halfwords (bytes64 (fnv64aBuf cache fnv1a64Init)) := by
    rw [writeConsolidated, applyAll_append, ← hashCount]
    apply backingStoreReadBulk_written
    intro other low high
    rw [backingStoreWriteBulk_outside _ (.inr (by omega))]
    exact erased other (by omega)
  have even : cache.length % 2 = 0 := by
    rw [length]
    rfl
  have hashEven : (bytes64 (fnv64aBuf cache fnv1a64Init)).length % 2 = 0 := by
    rw [bytes64_length]
  rw [readConsolidated, first, second, flatMap_halfwords even, flatMap_halfwords hashEven]
  exact if_pos rfl

abbrev Log := Journal (List U8) Entry

/-- The settings partition holds a checkpoint and the entries logged since. -/
structure Represents (flash : Flash) (log : Log) : Prop where
  consolidated : readConsolidated flash clearCache = ⟨log.base, logStart⟩
  stored : ∀ index (inside : index < log.entries.length),
    backingStoreRead flash (logStart + 2 * index) = log.entries[index].encode
  erased : ∀ address, logStart + 2 * log.entries.length ≤ address → address < wearLevelingBackingSize →
    flash (settingsPartitionOffset + address) = 0xFF

/-- The driver knows where the next entry goes, and there is room for it. -/
structure Synced (flash : Flash) (state : State) (log : Log) : Prop extends Represents flash log where
  position : state.writeAddress = logStart + 2 * log.entries.length
  room : state.writeAddress < wearLevelingBackingSize

theorem Represents.base_length {flash : Flash} {log : Log} (represents : Represents flash log) :
    log.base.length = logicalSize := by
  rw [← readConsolidated_length flash, represents.consolidated]

theorem Represents.contents_length {flash : Flash} {log : Log} (represents : Represents flash log) :
    (log.contents Entry.update).length = logicalSize := by
  have kept (cache : List U8) (entry : Entry) (length : cache.length = logicalSize) :
      (entry.update cache).length = logicalSize := by rw [Entry.update_length, length]
  have whole := Journal.contents_keeps Entry.update kept represents.base_length
  exact whole

theorem Represents.append {flash : Flash} {log : Log} (represents : Represents flash log) (entry : Entry)
    (room : logStart + 2 * log.entries.length < wearLevelingBackingSize) :
    Represents (applyAll (backingStoreWrite (logStart + 2 * log.entries.length) entry.encode) flash)
      (log.append entry) where
  consolidated := by
    refine Eq.trans (readConsolidated_congr clearCache ?_) represents.consolidated
    intro other below
    exact backingStoreWriteBulk_outside [entry.encode] (.inl (by omega))
  stored := by
    intro index inside
    have even : wearLevelingBackingSize = 2 * 4096 := rfl
    have start : logStart = 2 * 2052 := rfl
    rw [Journal.append_length] at inside
    rcases Nat.lt_or_ge index log.entries.length with earlier | last
    · have kept : (log.append entry).entries[index] = log.entries[index] := List.getElem_append_left earlier
      rw [kept, ← represents.stored index earlier]
      apply backingStoreRead_congr
      · exact backingStoreWriteBulk_outside [entry.encode] (.inl (by omega))
      · rw [Nat.add_assoc]
        exact backingStoreWriteBulk_outside [entry.encode] (.inl (by omega))
    · obtain rfl : index = log.entries.length := by omega
      have added : (log.append entry).entries[log.entries.length] = entry := by simp [Journal.append]
      rw [added]
      apply backingStoreRead_write
      · exact represents.erased _ (Nat.le_refl _) room
      · rw [Nat.add_assoc]
        exact represents.erased _ (Nat.le_succ _) (by omega)
  erased := by
    intro address low high
    rw [Journal.append_length] at low
    apply Eq.trans (backingStoreWriteBulk_outside [entry.encode] (.inr low))
    exact represents.erased address (by omega) high

/-- Consolidation leaves a checkpoint with an empty log, whatever was there. -/
theorem represents_consolidated (flash : Flash) {cache : List U8} (length : cache.length = logicalSize) :
    Represents (applyAll (backingStoreErase ++ writeConsolidated cache) flash) (.checkpoint cache) := by
  have erased (address : Nat) (inside : address < wearLevelingBackingSize) :
      applyAll backingStoreErase flash (settingsPartitionOffset + address) = 0xFF :=
    Flash.erase_inside (Nat.le_add_right _ _) (Nat.add_lt_add_left inside _)
  have start : logStart < wearLevelingBackingSize := by decide
  refine ⟨?_, ?_, ?_⟩
  · rw [applyAll_append, readConsolidated_written length (fun other below => erased other (by omega))]
    rfl
  · intro index inside
    cases inside
  · intro address low high
    have hashCount : (halfwords (bytes64 (fnv64aBuf cache fnv1a64Init))).length = 4 := by
      rw [halfwords_length, bytes64_length]
    have total : logStart = 2 * (logicalSize / 2) + 8 := rfl
    have behind : logStart ≤ address := low
    rw [applyAll_append, writeConsolidated, applyAll_append,
      backingStoreWriteBulk_outside _ (.inr (by rw [hashCount]; exact behind)),
      backingStoreWriteBulk_outside _ (.inr (by rw [halfwords_length, length]; omega))]
    exact erased address high

theorem represents_erased {flash : Flash}
    (erased : ∀ address < wearLevelingBackingSize, flash (settingsPartitionOffset + address) = 0xFF) :
    Represents flash (.checkpoint clearCache.cache) where
  consolidated := by
    have zeros : (backingStoreReadBulk flash 0 (logicalSize / backingStoreWriteSize)).flatMap bytes16 =
        List.replicate logicalSize 0 := by
      apply List.eq_replicate_iff.mpr
      constructor
      · simp only [flatMap_pairs bytes16_length, backingStoreReadBulk, List.length_map, List.length_range]
        rfl
      · intro byte member
        obtain ⟨value, read, inside⟩ := List.mem_flatMap.mp member
        obtain ⟨index, below, rfl⟩ := List.mem_map.mp read
        have half : wearLevelingBackingSize = 4 * (logicalSize / backingStoreWriteSize) := rfl
        have bound := List.mem_range.mp below
        have zero : backingStoreRead flash (0 + index * backingStoreWriteSize) = 0 := by
          simp only [backingStoreWriteSize] at bound half ⊢
          apply backingStoreRead_erased
          · exact erased _ (by omega)
          · rw [Nat.add_assoc]
            exact erased _ (by omega)
        rw [zero] at inside
        simpa [bytes16, byteAt] using inside
    rw [readConsolidated]
    -- the hash of zeros may or may not read as zero: the cache is clear either way
    split
    · rw [zeros]
      rfl
    · rfl
  stored := by
    intro index inside
    cases inside
  erased := by
    intro address _ high
    exact erased address high

/-- How a write to the log ended: `target` is in the log, or the whole cache
is in a fresh checkpoint. The cache itself is only copied, never changed. -/
inductive Logged (flash : Flash) (target cache : List U8) : State × Status × List FlashOp → Prop where
  | appended {state : State} {ops : List FlashOp} (log : Log) (synced : Synced (applyAll ops flash) state log)
      (logged : log.contents Entry.update = target) (kept : state.cache = cache) :
      Logged flash target cache (state, .success, ops)
  | consolidated {state : State} {ops : List FlashOp}
      (synced : Synced (applyAll ops flash) state (.checkpoint cache)) (kept : state.cache = cache) :
      Logged flash target cache (state, .consolidated, ops)

theorem consolidateIfNeeded_room {state : State} (room : state.writeAddress < wearLevelingBackingSize) :
    consolidateIfNeeded state = (state, .success, []) := if_neg (Nat.not_le_of_lt room)

theorem appendRaw_logged {flash : Flash} {state : State} {log : Log} (synced : Synced flash state log)
    (length : state.cache.length = logicalSize) (entry : Entry) :
    Logged flash (entry.update (log.contents Entry.update)) state.cache (appendRaw state entry.encode) := by
  have room : logStart + 2 * log.entries.length < wearLevelingBackingSize := by
    rw [← synced.position]
    exact synced.room
  have grown := synced.toRepresents.append entry room
  simp only [appendRaw, consolidateIfNeeded, synced.position, backingStoreWriteSize]
  split
  · apply Logged.consolidated
    · rw [applyAll_append]
      exact ⟨represents_consolidated _ length, rfl, (by decide : logStart < wearLevelingBackingSize)⟩
    · rfl
  next space =>
    apply Logged.appended (log.append entry)
    · rw [List.append_nil]
      refine ⟨grown, ?_, Nat.lt_of_not_le space⟩
      rw [Journal.append_length, Nat.mul_add, ← Nat.add_assoc]
    · exact Journal.contents_append Entry.update log entry
    · rfl

/-- A consolidation ends the write; otherwise the next step goes on. -/
theorem Logged.andThen {flash : Flash} {middle target cache : List U8}
    {result : State × Status × List FlashOp} {next : State → State × Status × List FlashOp}
    (first : Logged flash middle cache result)
    (rest : ∀ flash state log, Synced flash state log → log.contents Entry.update = middle →
      state.cache = cache → Logged flash target cache (next state)) :
    Logged flash target cache (andThen result next) := by
  cases first with
  | consolidated synced kept => exact .consolidated synced kept
  | @appended state ops log synced logged kept =>
    have later := rest _ state log synced logged kept
    rw [WearLeveling.andThen]
    cases found : next state with
    | mk last outcome =>
      rw [found] at later
      cases later with
      | consolidated synced kept =>
        apply Logged.consolidated
        · rwa [applyAll_append]
        · exact kept
      | appended log synced logged kept =>
        apply Logged.appended log
        · rwa [applyAll_append]
        · exact logged
        · exact kept

theorem word01_some {address : Nat} {p : List U8} {v : U16} (found : word01 address p = some v) :
    ∃ value rest, p = boolByte value :: 0 :: rest ∧ v = (if value then 1 else 0) ∧ address % 2 = 0 := by
  match p with
  | [] | [_] => cases found
  | low :: high :: rest =>
    simp only [word01] at found
    split at found
    next small =>
      obtain ⟨even, _, zero | one⟩ := small
      · obtain ⟨rfl, rfl⟩ := le16_inj.mp (zero.trans (by decide : (0 : U16) = le16 0 0))
        exact ⟨false, rest, rfl, (Option.some.inj found).symm.trans zero, even⟩
      · obtain ⟨rfl, rfl⟩ := le16_inj.mp (one.trans (by decide : (1 : U16) = le16 1 0))
        exact ⟨true, rest, rfl, (Option.some.inj found).symm.trans one, even⟩
    · cases found

/-- Below address 64 a write is a sequence of one-halfword entries. -/
theorem writeRaw_logged {flash : Flash} {state : State} {log : Log} (synced : Synced flash state log)
    (length : state.cache.length = logicalSize) {address : Nat} {p : List U8}
    (inside : address + p.length ≤ 64) :
    Logged flash (memcpy (log.contents Entry.update) address p) state.cache (writeRaw state address p) := by
  induction state, address, p using writeRaw.induct generalizing flash log with
  | case1 state address =>
    rw [writeRaw]
    apply Logged.appended log
    · exact synced
    · rw [memcpy_nil]
    · rfl
  | case2 state address byte rest v found ih =>
    obtain ⟨value, tail, shape, rfl, even⟩ := word01_some found
    cases shape
    simp only [List.length_cons] at inside
    let entry : Entry := .word01 ⟨address / 2, by omega⟩ value
    have slot : 2 * (address / 2) = address := by omega
    have encoded : logEntryMakeWord01 address (if value then 1 else 0) = entry.encode := by
      simp only [entry, Entry.encode, slot]
    rw [writeRaw, found]
    simp only [encoded]
    apply (appendRaw_logged synced length entry).andThen
    intro flash state' log' synced' logged kept
    have bound := synced.contents_length
    have enough : 64 ≤ logicalSize := by decide
    have copied : memcpy (log'.contents Entry.update) (address + 2) tail =
        memcpy (log.contents Entry.update) address (boolByte value :: 0 :: tail) := by
      rw [logged, memcpy_cons (by omega), memcpy_cons (by rw [List.length_set]; omega)]
      simp only [entry, Entry.update, slot]
    have later := ih state' synced' (by rw [kept, length]) (by simp only [List.drop_succ_cons, List.drop_zero]; omega)
    rw [List.drop_succ_cons, List.drop_zero, copied, kept] at later
    exact later
  | case3 state address byte rest large low ih =>
    simp only [List.length_cons] at inside
    let entry : Entry := .optimized64 ⟨address, low⟩ byte
    rw [writeRaw, large]
    simp only [low, ite_true]
    apply (appendRaw_logged synced length entry).andThen
    intro flash state' log' synced' logged kept
    have bound := synced.contents_length
    have enough : 64 ≤ logicalSize := by decide
    have later := ih state' synced' (by rw [kept, length]) (by omega)
    rw [logged, kept] at later
    rw [memcpy_cons (by omega)]
    exact later
  | case4 state address byte rest large high =>
    simp only [List.length_cons] at inside
    omega

/-- Flash holds exactly what the cache holds. -/
structure Settled (flash : Flash) (state : State) : Prop where
  length : state.cache.length = logicalSize
  logged : ∃ log, Synced flash state log ∧ log.contents Entry.update = state.cache

theorem Synced.settled {flash : Flash} {state : State} {log : Log} (synced : Synced flash state log)
    (contents : log.contents Entry.update = state.cache) : Settled flash state where
  length := by rw [← contents, synced.contents_length]
  logged := ⟨log, synced, contents⟩

/-- A write below address 64 succeeds and reaches flash. -/
theorem wearLevelingWrite_settled {flash : Flash} {state : State} (settled : Settled flash state)
    {address : Nat} {value : List U8} (inside : address + value.length ≤ 64) :
    (wearLevelingWrite state address value).2.1 ≠ .failed ∧
      (wearLevelingWrite state address value).1.cache = memcpy state.cache address value ∧
      Settled (applyAll (wearLevelingWrite state address value).2.2 flash)
        (wearLevelingWrite state address value).1 := by
  obtain ⟨length, log, synced, contents⟩ := settled
  have enough : 64 ≤ logicalSize := by decide
  rw [wearLevelingWrite, if_neg (by omega)]
  split
  next same => exact ⟨by simp, (memcpy_same same).symm, synced.settled contents⟩
  · have copied : (memcpy state.cache address value).length = logicalSize := by
      rw [memcpy_length (by omega), length]
    have started : Synced flash { state with cache := memcpy state.cache address value } log :=
      ⟨synced.toRepresents, synced.position, synced.room⟩
    have written := writeRaw_logged started copied inside
    rw [contents] at written
    have finished : Logged flash (memcpy state.cache address value) (memcpy state.cache address value)
        (andThen (writeRaw { state with cache := memcpy state.cache address value } address value)
          consolidateIfNeeded) := by
      apply written.andThen
      intro flash state log synced logged kept
      rw [consolidateIfNeeded_room synced.room]
      exact .appended log synced logged kept
    generalize andThen (writeRaw _ address value) consolidateIfNeeded = result at finished
    cases finished with
    | appended log synced logged kept =>
      exact ⟨by simp, kept, synced.settled (logged.trans kept.symm)⟩
    | consolidated synced kept => exact ⟨by simp, kept, synced.settled kept.symm⟩

/-- After a reset the cache and the end of the log are found again. -/
theorem wearLevelingInit_settled {flash : Flash} {state : State} (settled : Settled flash state) :
    wearLevelingInit flash = (state, .success, []) := by
  obtain ⟨_, log, synced, contents⟩ := settled
  have position := synced.position
  have room := synced.room
  have replayed : playbackLoop flash (logicalSize + 8) log.base =
      (state.cache, state.writeAddress, .success) := by
    change playbackLoop flash logStart log.base = _
    rw [playbackLoop_entries log.entries log.base (by omega) synced.stored, position, ← contents]
    apply playbackLoop_empty
    intro inside
    have even : wearLevelingBackingSize = 2 * 4096 := rfl
    have start : logStart = 2 * 2052 := rfl
    apply backingStoreRead_erased
    · exact synced.erased _ (Nat.le_refl _) inside
    · rw [Nat.add_assoc]
      exact synced.erased _ (Nat.le_succ _) (by omega)
  have played : playbackLog flash ⟨log.base, logStart⟩ = (state, .success, []) := by
    simp only [playbackLog, replayed]
    exact consolidateIfNeeded_room room
  rw [wearLevelingInit, synced.consolidated, played]
  rfl

theorem clearCache_settled {flash : Flash}
    (erased : ∀ address < wearLevelingBackingSize, flash (settingsPartitionOffset + address) = 0xFF) :
    Settled flash clearCache := by
  have synced : Synced flash clearCache (.checkpoint clearCache.cache) :=
    ⟨represents_erased erased, rfl, (by decide : logStart < wearLevelingBackingSize)⟩
  exact synced.settled rfl

end Fruitchip.WearLeveling
