import Fruitchip.PowerCuts
import Fruitchip.Proofs.WearLevelingLog

/-! Power that is lost while the log is written. Before the partition is erased
it holds a part of the new entries. Afterwards it holds nothing or the log
without its checkpoint, until the first page of the new checkpoint is written. -/

namespace Fruitchip.WearLeveling
open Embedded

/-- The partition holds a checkpoint and a log, which may reach up to its end. -/
structure Replays (flash : Flash) (log : Log) : Prop extends Represents flash log where
  fits : logStart + 2 * log.entries.length ≤ wearLevelingBackingSize

variable {flash after : Flash} {log : Log} {state : State} {cache : List U8}

theorem Replays.checkpoint (represents : Represents flash (.checkpoint cache)) : Replays flash (.checkpoint cache) :=
  ⟨represents, (by decide : logStart ≤ wearLevelingBackingSize)⟩

theorem Replays.congr (replays : Replays flash log)
    (same : ∀ other < wearLevelingBackingSize,
      after (settingsPartitionOffset + other) = flash (settingsPartitionOffset + other)) : Replays after log where
  consolidated := by
    refine (readConsolidated_congr clearCache fun other below => same other (Nat.lt_trans below ?_)).trans
      replays.consolidated
    decide
  stored index inside := by
    have fits := replays.fits
    have even : wearLevelingBackingSize = 2 * 4096 := rfl
    have start : logStart = 2 * 2052 := rfl
    refine (backingStoreRead_congr ?_ ?_).trans (replays.stored index inside)
    · exact same _ (by omega)
    · rw [Nat.add_assoc]
      exact same _ (by omega)
  erased address low high := (same address high).trans (replays.erased address low high)
  fits := replays.fits

def blank : List U8 := clearCache.cache

theorem blank_length : blank.length = logicalSize := List.length_replicate

theorem flatMap_bytes16_take (values : List U16) (count : Nat) :
    (values.flatMap bytes16).take (2 * count) = (values.take count).flatMap bytes16 := by
  induction values generalizing count with
  | nil => simp
  | cons value values ih =>
    cases count with
    | zero => rfl
    | succ count =>
      rw [List.flatMap_cons, List.take_succ_cons, List.flatMap_cons, ← ih count]
      rfl

theorem flatMap_bytes16_zeros (count : Nat) :
    (List.replicate count (0 : U16)).flatMap bytes16 = List.replicate (2 * count) 0 := by
  induction count with
  | zero => rfl
  | succ count ih =>
    rw [List.replicate_succ, List.flatMap_cons, ih]
    rfl

theorem backingStoreReadBulk_erased {address count : Nat}
    (erased : ∀ other, address ≤ other → other < address + 2 * count → flash (settingsPartitionOffset + other) = 0xFF) :
    backingStoreReadBulk flash address count = List.replicate count 0 := by
  apply List.eq_replicate_iff.mpr
  refine ⟨by simp [backingStoreReadBulk], ?_⟩
  intro value member
  obtain ⟨index, below, rfl⟩ := List.mem_map.mp member
  have bound := List.mem_range.mp below
  simp only [backingStoreWriteSize]
  apply backingStoreRead_erased
  · exact erased _ (by omega) (by omega)
  · rw [Nat.add_assoc]
    exact erased _ (by omega) (by omega)

/-- Without a checkpoint the cache is blank, whatever hash is found. -/
theorem readConsolidated_blank (erased : ∀ other < logicalSize, flash (settingsPartitionOffset + other) = 0xFF) :
    readConsolidated flash clearCache = ⟨blank, logStart⟩ := by
  have zeros : (backingStoreReadBulk flash 0 (logicalSize / backingStoreWriteSize)).flatMap bytes16 = blank := by
    rw [backingStoreReadBulk_erased fun other _ high => erased other (by
      simp only [logicalSize, wearLevelingBackingSize, backingStoreWriteSize] at high ⊢
      omega), flatMap_bytes16_zeros]
    rfl
  rw [readConsolidated]
  split
  · rw [zeros]
    rfl
  · rfl

theorem readConsolidated_address (flash : Flash) : (readConsolidated flash clearCache).writeAddress = logStart := by
  rw [readConsolidated]
  split
  · rfl
  · rfl

theorem picoProgramBulk_whole (flashAddress : Nat) (values : List U16) :
    (∀ op ∈ picoProgramBulk flashAddress values, op.Whole) ∧
      (picoProgramBulk flashAddress values).flatMap FlashOp.pieces = picoProgramBulk flashAddress values := by
  induction flashAddress, values using picoProgramBulk.induct with
  | case1 flashAddress =>
    rw [picoProgramBulk, if_pos rfl]
    exact ⟨List.forall_mem_nil _, rfl⟩
  | case2 flashAddress values some ih =>
    rw [picoProgramBulk, if_neg some, List.flatMap_cons, ih.2]
    exact ⟨List.forall_mem_cons.mpr ⟨trivial, ih.1⟩, rfl⟩

theorem backingStoreWriteBulk_whole (address : Nat) (values : List U16) :
    (∀ op ∈ backingStoreWriteBulk address values, op.Whole) ∧
      (backingStoreWriteBulk address values).flatMap FlashOp.pieces = backingStoreWriteBulk address values :=
  picoProgramBulk_whole _ values

theorem picoProgramBulk_single (flashAddress : Nat) {values : List U16} (some : 0 < values.length)
    (few : values.length ≤ bulkCount) :
    picoProgramBulk flashAddress values = [.pageProgram flashAddress (values.flatMap fun value => bytes16 (~~~value))] := by
  rw [picoProgramBulk, if_neg (List.length_pos_iff.mp some), List.take_of_length_le few, List.drop_eq_nil_of_le few,
    picoProgramBulk, if_pos rfl]

theorem picoProgramBulk_take (flashAddress : Nat) (values : List U16) (batches : Nat) :
    (picoProgramBulk flashAddress values).take batches =
      picoProgramBulk flashAddress (values.take (bulkCount * batches)) := by
  induction batches generalizing flashAddress values with
  | zero =>
    rw [Nat.mul_zero, List.take_zero, List.take_zero, picoProgramBulk, if_pos rfl]
  | succ batches ih =>
    by_cases empty : values = []
    · rw [empty, List.take_nil, picoProgramBulk, if_pos rfl, List.take_nil]
    · have some : values.take (bulkCount * (batches + 1)) ≠ [] := by
        rw [ne_eq, List.take_eq_nil_iff]
        exact fun none => none.elim (by simp [bulkCount]) empty
      have first : (values.take (bulkCount * (batches + 1))).take bulkCount = values.take bulkCount := by
        rw [List.take_take, Nat.min_eq_left (Nat.le_mul_of_pos_right _ (Nat.succ_pos _))]
      have later : (values.take (bulkCount * (batches + 1))).drop bulkCount =
          (values.drop bulkCount).take (bulkCount * batches) := by
        rw [Nat.mul_succ, List.drop_take, Nat.add_sub_cancel]
      rw [picoProgramBulk, if_neg empty, List.take_succ_cons, ih]
      conv => rhs; rw [picoProgramBulk, if_neg some, first, later]

def Erases (performed : List FlashOp) : Prop := ∃ offset count, .rangeErase offset count ∈ performed

theorem Erases.behind {first rest : List FlashOp} (erases : Erases rest) : Erases (first ++ rest) := by
  obtain ⟨offset, count, member⟩ := erases
  exact ⟨offset, count, List.mem_append_right _ member⟩

theorem Replays.first_erased (replays : Replays flash log) :
    Replays (flash.erase settingsPartitionOffset flashSectorSize) ⟨blank, log.entries⟩ := by
  have half : logicalSize = 4096 := rfl
  have sector : flashSectorSize = 4096 := rfl
  have start : logStart = 4104 := rfl
  have kept {address : Nat} (high : logStart ≤ address) :
      flash.erase settingsPartitionOffset flashSectorSize (settingsPartitionOffset + address) =
        flash (settingsPartitionOffset + address) := Flash.erase_outside (.inr (by omega))
  refine ⟨⟨?_, ?_, ?_⟩, replays.fits⟩
  · exact readConsolidated_blank fun other below => Flash.erase_inside (Nat.le_add_right _ _) (by omega)
  · intro index inside
    refine (backingStoreRead_congr ?_ ?_).trans (replays.stored index inside)
    · exact kept (Nat.le_add_right _ _)
    · rw [Nat.add_assoc, Nat.add_assoc]
      exact kept (Nat.le_add_right _ _)
  · intro address low high
    rw [kept (Nat.le_trans (Nat.le_add_right _ _) low)]
    exact replays.erased address low high

/-- Both sectors are erased, and a part of the checkpoint is written. -/
theorem replays_partial (erased : ∀ other < wearLevelingBackingSize, flash (settingsPartitionOffset + other) = 0xFF)
    (length : cache.length = logicalSize) (batches : Nat) :
    ∃ base, Replays (applyAll ((backingStoreWriteBulk 0 (halfwords cache)).take batches) flash) (.checkpoint base) ∧
      (base.take 64 = blank.take 64 ∨ base.take 64 = cache.take 64) := by
  have total : wearLevelingBackingSize = 8192 := rfl
  have size : logicalSize = 4096 := rfl
  have start : logStart = 4104 := rfl
  have count : (halfwords cache).length = 2048 := by rw [halfwords_length, length, size]
  rw [backingStoreWriteBulk, picoProgramBulk_take, ← backingStoreWriteBulk]
  generalize written : (halfwords cache).take (bulkCount * batches) = values
  have fewer : values.length ≤ 2048 := by
    rw [← written, List.length_take]
    omega
  have outside (other : Nat) (high : 2 * values.length ≤ other) :
      applyAll (backingStoreWriteBulk 0 values) flash (settingsPartitionOffset + other) =
        flash (settingsPartitionOffset + other) := backingStoreWriteBulk_outside values (.inr (by omega))
  -- the first 64 bytes lie in the first batch
  have front : (backingStoreReadBulk (applyAll (backingStoreWriteBulk 0 values) flash) 0 2048).take 32 =
      if batches = 0 then List.replicate 32 0 else (halfwords cache).take 32 := by
    rw [backingStoreReadBulk, ← List.map_take, List.take_range, ← backingStoreReadBulk]
    split
    next none =>
      rw [none, Nat.mul_zero, List.take_zero] at written
      rw [← written]
      exact backingStoreReadBulk_erased fun other _ high => by
        rw [backingStoreWriteBulk, picoProgramBulk, if_pos rfl]
        exact erased other (by omega)
    next some =>
      have long : 32 ≤ values.length := by
        have batch : bulkCount * 1 ≤ bulkCount * batches := Nat.mul_le_mul_left _ (Nat.pos_of_ne_zero some)
        rw [← written, List.length_take, count]
        simp only [bulkCount] at batch ⊢
        omega
      apply List.ext_getElem
      · simp [backingStoreReadBulk, count]
      · intro index low high
        have inside : index < 32 := by simpa [backingStoreReadBulk] using low
        have value := @backingStoreRead_written flash 0 index values (by omega) fun other _ high => erased other (by omega)
        simp only [backingStoreReadBulk, List.getElem_map, List.getElem_range, backingStoreWriteSize, Nat.mul_comm index]
        rw [value, List.getElem_take]
        simp only [← written, List.getElem_take]
  have cached : ((backingStoreReadBulk (applyAll (backingStoreWriteBulk 0 values) flash) 0
      (logicalSize / backingStoreWriteSize)).flatMap bytes16).take 64 =
        if batches = 0 then blank.take 64 else cache.take 64 := by
    have even : cache.length % 2 = 0 := by rw [length]; rfl
    rw [show 64 = 2 * 32 from rfl, flatMap_bytes16_take,
      show logicalSize / backingStoreWriteSize = 2048 from rfl, front]
    split
    · rw [flatMap_bytes16_zeros, blank, clearCache, List.take_replicate]
      rfl
    · rw [← flatMap_bytes16_take, flatMap_halfwords even]
  have behind (address : Nat) (low : logStart + 2 * 0 ≤ address) (high : address < wearLevelingBackingSize) :
      applyAll (backingStoreWriteBulk 0 values) flash (settingsPartitionOffset + address) = 0xFF := by
    rw [outside address (by omega)]
    exact erased address high
  refine ⟨(readConsolidated (applyAll (backingStoreWriteBulk 0 values) flash) clearCache).cache,
    .checkpoint ⟨?_, fun _ inside => absurd inside (Nat.not_lt_zero _), behind⟩, ?_⟩
  · rw [Journal.checkpoint, ← readConsolidated_address]
  · rw [readConsolidated, blank]
    split
    · rw [cached]
      split
      · exact .inl rfl
      · exact .inr rfl
    · exact .inl rfl

/-- What a consolidation can come to. -/
def Consolidating (flash : Flash) (log : Log) (cache : List U8) (performed : List FlashOp) (after : Flash) : Prop :=
  after = flash ∨ Erases performed ∧ (Replays after ⟨blank, log.entries⟩ ∨
    ∃ base, Replays after (.checkpoint base) ∧ (base.take 64 = blank.take 64 ∨ base.take 64 = cache.take 64))

theorem erase_cut (replays : Replays flash log) :
    CutAnywhere backingStoreErase (Consolidating flash log cache) flash := by
  have pieces : backingStoreErase.flatMap FlashOp.pieces = [.rangeErase settingsPartitionOffset flashSectorSize,
      .rangeErase (settingsPartitionOffset + flashSectorSize) flashSectorSize] := by decide
  have both (other : Nat) (inside : other < wearLevelingBackingSize) :
      ((flash.erase settingsPartitionOffset flashSectorSize).erase (settingsPartitionOffset + flashSectorSize)
        flashSectorSize) (settingsPartitionOffset + other) = 0xFF := by
    rw [← FlashOp.erase_add]
    exact Flash.erase_inside (Nat.le_add_right _ _) (Nat.add_lt_add_left inside _)
  rw [CutAnywhere, pieces, cuts_cons, cuts_cons, cuts_nil]
  refine ⟨.inl rfl, .inr ⟨⟨_, _, List.mem_cons_self⟩, .inl replays.first_erased⟩,
    .inr ⟨⟨_, _, List.mem_cons_self⟩, .inr ⟨blank, .checkpoint (represents_erased both), .inl rfl⟩⟩⟩

theorem erase_whole : ∀ op ∈ backingStoreErase, op.Whole := by
  intro op member
  obtain rfl := List.mem_singleton.mp member
  exact (by decide : wearLevelingBackingSize % flashSectorSize = 0)

theorem consolidation_whole (cache : List U8) : ∀ op ∈ backingStoreErase ++ writeConsolidated cache, op.Whole := by
  intro op member
  rcases List.mem_append.mp member with erase | write
  · exact erase_whole op erase
  · rcases List.mem_append.mp write with cached | hashed
    · exact (backingStoreWriteBulk_whole _ _).1 op cached
    · exact (backingStoreWriteBulk_whole _ _).1 op hashed

theorem consolidation_cut (replays : Replays flash log) (length : cache.length = logicalSize) :
    CutAnywhere (backingStoreErase ++ writeConsolidated cache) (Consolidating flash log cache) flash := by
  have erased (other : Nat) (inside : other < wearLevelingBackingSize) :
      applyAll backingStoreErase flash (settingsPartitionOffset + other) = 0xFF :=
    Flash.erase_inside (Nat.le_add_right _ _) (Nat.add_lt_add_left inside _)
  have behind (performed : List FlashOp) : Erases (backingStoreErase.flatMap FlashOp.pieces ++ performed) :=
    ⟨_, _, List.mem_append_left _ (List.mem_flatMap.mpr ⟨_, List.mem_cons_self, List.mem_cons_self⟩)⟩
  have bulk := backingStoreWriteBulk_whole 0 (halfwords cache)
  have hash : backingStoreWriteBulk logicalSize (halfwords (bytes64 (fnv64aBuf cache fnv1a64Init))) =
      [.pageProgram (settingsPartitionOffset + logicalSize)
        ((halfwords (bytes64 (fnv64aBuf cache fnv1a64Init))).flatMap fun value => bytes16 (~~~value))] :=
    picoProgramBulk_single _ (by rw [halfwords_length, bytes64_length]; decide)
      (by rw [halfwords_length, bytes64_length]; decide)
  have first : CutAnywhere (backingStoreWriteBulk 0 (halfwords cache))
      (fun performed => Consolidating flash log cache (backingStoreErase.flatMap FlashOp.pieces ++ performed))
      (applyAll backingStoreErase flash) := by
    intro performed cut
    obtain ⟨base, replays, front⟩ := replays_partial erased length performed.length
    have part : performed <+: backingStoreWriteBulk 0 (halfwords cache) := by
      rw [← bulk.2]
      exact cut
    rw [← List.prefix_iff_eq_take.mp part] at replays
    exact .inr ⟨behind performed, .inr ⟨base, replays, front⟩⟩
  have complete := represents_consolidated flash length
  rw [cutAnywhere_append erase_whole]
  refine ⟨erase_cut replays, ?_⟩
  rw [writeConsolidated, cutAnywhere_append bulk.1]
  refine ⟨first, ?_⟩
  rw [applyAll_append, writeConsolidated, applyAll_append, hash] at complete
  rw [hash, CutAnywhere, List.flatMap_singleton, FlashOp.pieces, cuts_cons, cuts_nil]
  refine ⟨?_, .inr ⟨behind _, .inr ⟨cache, .checkpoint complete, .inr rfl⟩⟩⟩
  have last := Cuts.all first
  rw [List.append_nil]
  have same := applyAll_pieces bulk.1 (applyAll backingStoreErase flash)
  rw [← same]
  exact last

/-- Entries that amount to copying bytes to an address. -/
def Stores (added : List Entry) (address : Nat) (bytes : List U8) : Prop :=
  ∀ cache : List U8, cache.length = logicalSize → added.foldl Entry.update cache = memcpy cache address bytes

/-- What a write that is cut can leave: the log with entries for some of the
bytes, possibly without its checkpoint, or a new checkpoint or none. -/
inductive Left (log : Log) (cache : List U8) (address : Nat) (p : List U8) (performed : List FlashOp) (after : Flash) :
    Prop where
  | logged {base : List U8} {added : List Entry} (count : Nat) (stores : Stores added address (p.take count))
      (kept : base = log.base ∨ base = blank ∧ Erases performed)
      (replays : Replays after ⟨base, log.entries ++ added⟩)
  | rewritten {base : List U8} (erases : Erases performed) (replays : Replays after (.checkpoint base))
      (front : base.take 64 = blank.take 64 ∨ base.take 64 = cache.take 64)

variable {address : Nat} {bytes rest p : List U8} {entry : Entry}

theorem stores_nil : Stores [] address [] := fun cache _ => (memcpy_nil cache address).symm

theorem memcpy_append {more : List U8} (inside : address + bytes.length ≤ cache.length) :
    memcpy cache address (bytes ++ more) = memcpy (memcpy cache address bytes) (address + bytes.length) more := by
  induction bytes generalizing cache address with
  | nil => rw [List.nil_append, memcpy_nil, List.length_nil, Nat.add_zero]
  | cons byte bytes ih =>
    rw [List.length_cons] at inside
    rw [List.cons_append, memcpy_cons (by omega), memcpy_cons (by omega), ih (by rw [List.length_set]; omega),
      List.length_cons, Nat.add_assoc, Nat.add_comm 1]

theorem Stores.append {first more : List Entry} {tail : List U8} (stores : Stores first address bytes)
    (later : Stores more (address + bytes.length) tail) (inside : address + bytes.length ≤ logicalSize) :
    Stores (first ++ more) address (bytes ++ tail) := by
  intro cache length
  have copied : (memcpy cache address bytes).length = logicalSize := by rw [memcpy_length (by omega), length]
  rw [List.foldl_append, stores cache length, later _ copied, ← memcpy_append (by omega)]

theorem Left.untouched (replays : Replays flash log) : Left log cache address p [] flash := by
  refine .logged 0 stores_nil (.inl rfl) ?_
  rw [List.append_nil]
  exact replays

theorem Left.of_consolidating {performed : List FlashOp} (stores : Stores [entry] address bytes)
    (replays : Replays flash (log.append entry))
    (consolidating : Consolidating flash (log.append entry) cache performed after) :
    Left log cache address (bytes ++ rest) performed after := by
  have stored : Stores [entry] address ((bytes ++ rest).take bytes.length) := by
    rw [List.take_left]
    exact stores
  rcases consolidating with rfl | ⟨erases, unfounded | ⟨base, fresh, front⟩⟩
  · exact .logged bytes.length stored (.inl rfl) replays
  · exact .logged bytes.length stored (.inr ⟨rfl, erases⟩) unfounded
  · exact .rewritten erases fresh front

theorem Left.more {performed before : List FlashOp} (stores : Stores [entry] address bytes)
    (left : Left (log.append entry) cache (address + bytes.length) rest performed after)
    (inside : address + bytes.length ≤ logicalSize) :
    Left log cache address (bytes ++ rest) (before ++ performed) after := by
  cases left with
  | logged count stored kept replays =>
    rw [Journal.append, List.append_assoc] at replays
    refine .logged (bytes.length + count) ?_ (kept.imp_right (And.imp_right Erases.behind)) replays
    rw [List.take_length_add_append]
    exact stores.append stored inside
  | rewritten erases replays front => exact .rewritten erases.behind replays front

theorem appendRaw_cases (synced : Synced flash state log) (entry : Entry) :
    (∃ next, appendRaw state entry.encode = (next, .success, backingStoreWrite state.writeAddress entry.encode) ∧
        next.cache = state.cache ∧
        Synced (applyAll (backingStoreWrite state.writeAddress entry.encode) flash) next (log.append entry)) ∨
      ∃ next, appendRaw state entry.encode =
        (next, .consolidated, backingStoreWrite state.writeAddress entry.encode ++
          (backingStoreErase ++ writeConsolidated state.cache)) := by
  have room : logStart + 2 * log.entries.length < wearLevelingBackingSize := by
    rw [← synced.position]
    exact synced.room
  have grown := synced.toRepresents.append entry room
  simp only [appendRaw, consolidateIfNeeded]
  split
  next full => exact .inr ⟨_, rfl⟩
  next space =>
    rw [← synced.position] at grown
    refine .inl ⟨⟨state.cache, state.writeAddress + backingStoreWriteSize⟩, by rw [List.append_nil], rfl, grown, ?_,
      Nat.lt_of_not_le space⟩
    rw [Journal.append_length, Nat.mul_add, ← Nat.add_assoc, ← synced.position]
    rfl

theorem backingStoreWrite_pieces (position : Nat) (value : U16) :
    (∀ op ∈ backingStoreWrite position value, op.Whole) ∧
      ∃ op, (backingStoreWrite position value).flatMap FlashOp.pieces = [op] ∧ backingStoreWrite position value = [op] := by
  have whole := backingStoreWriteBulk_whole position [value]
  have few : [value].length ≤ bulkCount := (by decide : 1 ≤ bulkCount)
  refine ⟨whole.1, _, ?_, picoProgramBulk_single _ Nat.one_pos few⟩
  exact whole.2.trans (picoProgramBulk_single _ Nat.one_pos few)

/-- A full log is replayed, too. -/
theorem Synced.replays (synced : Synced flash state log) : Replays flash log := by
  have position := synced.position
  have room := synced.room
  exact ⟨synced.toRepresents, by omega⟩

theorem Synced.grown (synced : Synced flash state log) (entry : Entry) :
    Replays (applyAll (backingStoreWrite state.writeAddress entry.encode) flash) (log.append entry) := by
  have position := synced.position
  have room := synced.room
  have even : wearLevelingBackingSize = 2 * 4096 := rfl
  have start : logStart = 2 * 2052 := rfl
  rw [position]
  refine ⟨synced.toRepresents.append entry (by omega), ?_⟩
  rw [Journal.append_length]
  omega

theorem write_cut (synced : Synced flash state log) (stores : Stores [entry] address bytes) :
    CutAnywhere (backingStoreWrite state.writeAddress entry.encode) (Left log cache address (bytes ++ rest)) flash := by
  obtain ⟨_, op, pieces, single⟩ := backingStoreWrite_pieces state.writeAddress entry.encode
  have grown := synced.grown entry
  rw [single] at grown
  rw [CutAnywhere, pieces, cuts_cons, cuts_nil]
  exact ⟨.untouched synced.replays, .of_consolidating stores grown (.inl rfl)⟩

theorem appendRaw_cut (synced : Synced flash state log) (length : state.cache.length = logicalSize)
    (stores : Stores [entry] address bytes) :
    CutAnywhere (appendRaw state entry.encode).2.2 (Left log state.cache address (bytes ++ rest)) flash := by
  rcases appendRaw_cases synced entry with ⟨next, appended, _, _⟩ | ⟨next, consolidated⟩
  · rw [appended]
    exact write_cut synced stores
  · obtain ⟨whole, _⟩ := backingStoreWrite_pieces state.writeAddress entry.encode
    have grown := synced.grown entry
    rw [consolidated]
    refine (cutAnywhere_append whole).mpr ⟨write_cut synced stores, ?_⟩
    refine Cuts.weaken (consolidation_cut grown length) fun performed after consolidating => ?_
    refine .of_consolidating stores grown (consolidating.imp_right fun ⟨erases, left⟩ => ⟨erases.behind, left⟩)

inductive Done (log : Log) (address : Nat) (p : List U8) (after : Flash) : Prop where
  | logged {added : List Entry} (stores : Stores added address p) (replays : Replays after ⟨log.base, log.entries ++ added⟩)
  | rewritten {base : List U8} (replays : Replays after (.checkpoint base))

theorem Done.more (stores : Stores [entry] address bytes) (inside : address + bytes.length ≤ logicalSize)
    (done : Done (log.append entry) (address + bytes.length) rest after) : Done log address (bytes ++ rest) after := by
  cases done with
  | logged stored replays =>
    rw [Journal.append, List.append_assoc] at replays
    exact .logged (stores.append stored inside) replays
  | rewritten replays => exact .rewritten replays

theorem andThen_cut {next : State → State × Status × List FlashOp} (synced : Synced flash state log)
    (length : state.cache.length = logicalSize) (stores : Stores [entry] address bytes)
    (inside : address + bytes.length ≤ logicalSize)
    (later : ∀ flash next', next'.cache = state.cache → Synced flash next' (log.append entry) →
      CutAnywhere (next next').2.2 (Left (log.append entry) state.cache (address + bytes.length) rest) flash ∧
        Done (log.append entry) (address + bytes.length) rest (applyAll (next next').2.2 flash)) :
    CutAnywhere (andThen (appendRaw state entry.encode) next).2.2 (Left log state.cache address (bytes ++ rest)) flash ∧
      Done log address (bytes ++ rest) (applyAll (andThen (appendRaw state entry.encode) next).2.2 flash) := by
  have one := @appendRaw_cut _ _ _ _ _ rest _ synced length stores
  rcases appendRaw_cases synced entry with ⟨middle, appended, kept, grown⟩ | ⟨middle, consolidated⟩
  · obtain ⟨whole, _⟩ := backingStoreWrite_pieces state.writeAddress entry.encode
    obtain ⟨cut, done⟩ := later _ middle kept grown
    rw [appended] at one ⊢
    refine ⟨(cutAnywhere_append whole).mpr ⟨one, Cuts.weaken cut fun performed after left => left.more stores inside⟩, ?_⟩
    rw [WearLeveling.andThen, applyAll_append]
    exact done.more stores inside
  · rw [consolidated] at one ⊢
    have fresh := represents_consolidated (applyAll (backingStoreWrite state.writeAddress entry.encode) flash) length
    rw [← applyAll_append] at fresh
    exact ⟨one, .rewritten (.checkpoint fresh)⟩

theorem stores_word01 {half : Fin 32} {value : Bool} :
    Stores [.word01 half value] (2 * half) [boolByte value, 0] := by
  intro cache length
  have bound := half.isLt
  have size : logicalSize = 4096 := rfl
  rw [memcpy_cons (by omega), memcpy_cons (by rw [List.length_set]; omega), memcpy_nil]
  rfl

theorem stores_optimized64 {slot : Fin 64} {value : U8} : Stores [.optimized64 slot value] slot [value] := by
  intro cache length
  have bound := slot.isLt
  have size : logicalSize = 4096 := rfl
  rw [memcpy_cons (by omega), memcpy_nil]
  rfl

theorem writeRaw_cut (synced : Synced flash state log) (length : state.cache.length = logicalSize)
    (inside : address + p.length ≤ 64) :
    CutAnywhere (writeRaw state address p).2.2 (Left log state.cache address p) flash ∧
      Done log address p (applyAll (writeRaw state address p).2.2 flash) := by
  have enough : 64 ≤ logicalSize := by decide
  induction state, address, p using writeRaw.induct generalizing flash log with
  | case1 state address =>
    rw [writeRaw]
    refine ⟨cutAnywhere_nil.mpr (.untouched synced.replays), .logged stores_nil ?_⟩
    rw [List.append_nil]
    exact synced.replays
  | case2 state address byte rest v found ih =>
    obtain ⟨value, tail, shape, rfl, even⟩ := word01_some found
    cases shape
    simp only [List.length_cons] at inside
    have slot : 2 * (address / 2) = address := by omega
    have encoded : logEntryMakeWord01 address (if value then 1 else 0) =
        Entry.encode (.word01 ⟨address / 2, by omega⟩ value) := by
      simp only [Entry.encode, slot]
    have stores : Stores [.word01 ⟨address / 2, by omega⟩ value] address [boolByte value, 0] := by
      have stored := @stores_word01 ⟨address / 2, by omega⟩ value
      rwa [slot] at stored
    rw [writeRaw, found]
    simp only [encoded]
    refine @andThen_cut _ _ _ _ _ tail _ _ synced length stores (by simp; omega) fun flash next kept grown => ?_
    rw [List.drop_succ_cons, List.drop_zero, ← kept]
    exact ih next grown (by rw [kept, length]) (by simp only [List.drop_succ_cons, List.drop_zero]; omega)
  | case3 state address byte rest large low ih =>
    simp only [List.length_cons] at inside
    have stores : Stores [.optimized64 ⟨address, low⟩ byte] address [byte] := stores_optimized64
    have encoded : logEntryMakeOptimized64 address byte = Entry.encode (.optimized64 ⟨address, low⟩ byte) := rfl
    rw [writeRaw, large]
    simp only [low, ite_true]
    rw [encoded]
    refine @andThen_cut _ _ _ _ _ rest _ _ synced length stores (by simp; omega) fun flash next kept grown => ?_
    rw [← kept]
    exact ih next grown (by rw [kept, length]) (by omega)
  | case4 state address byte rest large high =>
    simp only [List.length_cons] at inside
    omega

theorem Replays.playback (replays : Replays flash log) :
    playbackLoop flash logStart log.base =
      (log.contents Entry.update, logStart + 2 * log.entries.length, .success) := by
  rw [playbackLoop_entries log.entries log.base replays.fits replays.stored]
  apply playbackLoop_empty
  intro inside
  have even : wearLevelingBackingSize = 2 * 4096 := rfl
  have start : logStart = 2 * 2052 := rfl
  apply backingStoreRead_erased
  · exact replays.erased _ (Nat.le_refl _) inside
  · rw [Nat.add_assoc]
    exact replays.erased _ (Nat.le_succ _) (by omega)

/-- The log is found again. If it is full it is consolidated. -/
theorem wearLevelingInit_replays (replays : Replays flash log) :
    wearLevelingInit flash =
      consolidateIfNeeded ⟨log.contents Entry.update, logStart + 2 * log.entries.length⟩ := by
  have played := replays.playback
  rw [wearLevelingInit, replays.consolidated, playbackLog]
  change playbackLoop flash (logicalSize + 8) log.base = _ at played
  simp only [played, reduceCtorEq, ite_false]
  rw [consolidateIfNeeded]
  split <;> rfl

theorem Replays.synced (replays : Replays flash log) (settled : Settled flash state) :
    Synced flash state log ∧ log.contents Entry.update = state.cache := by
  have found := (wearLevelingInit_replays replays).symm.trans (wearLevelingInit_settled settled)
  rw [consolidateIfNeeded] at found
  split at found
  · cases found
  next space =>
    obtain rfl := (Prod.mk.inj found).1
    exact ⟨⟨replays.toRepresents, rfl, Nat.lt_of_not_le space⟩, rfl⟩

/-- A write of bytes that are there already does nothing. -/
theorem wearLevelingWrite_cut (settled : Settled flash state) (replays : Replays flash log)
    (inside : address + p.length ≤ 64) :
    CutAnywhere (wearLevelingWrite state address p).2.2 (Left log (memcpy state.cache address p) address p) flash ∧
      ((state.cache.drop address).take p.length = p ∨
        Done log address p (applyAll (wearLevelingWrite state address p).2.2 flash)) := by
  obtain ⟨synced, contents⟩ := replays.synced settled
  have enough : 64 ≤ logicalSize := by decide
  have length := settled.length
  rw [wearLevelingWrite, if_neg (by omega)]
  split
  next same => exact ⟨cutAnywhere_nil.mpr (.untouched replays), .inl same⟩
  · have copied : (memcpy state.cache address p).length = logicalSize := by rw [memcpy_length (by omega), length]
    have started : Synced flash { state with cache := memcpy state.cache address p } log :=
      ⟨synced.toRepresents, synced.position, synced.room⟩
    have written := writeRaw_cut started copied inside
    have logged := writeRaw_logged started copied inside
    change CutAnywhere (andThen (writeRaw { state with cache := memcpy state.cache address p } address p)
      consolidateIfNeeded).2.2 _ flash ∧ (_ ∨ Done log address p (applyAll (andThen (writeRaw
        { state with cache := memcpy state.cache address p } address p) consolidateIfNeeded).2.2 flash))
    generalize writeRaw { state with cache := memcpy state.cache address p } address p = result at written logged ⊢
    cases logged with
    | consolidated synced kept => exact ⟨written.1, .inr written.2⟩
    | appended log' synced logged kept =>
      simp only [WearLeveling.andThen, consolidateIfNeeded_room synced.room, List.append_nil]
      exact ⟨written.1, .inr written.2⟩

/-- After power comes up the cache is what the log says. -/
theorem wearLevelingInit_cut (replays : Replays flash log) :
    ∃ state status ops, wearLevelingInit flash = (state, status, ops) ∧ status ≠ .failed ∧ (∀ op ∈ ops, op.Whole) ∧
      state.cache = log.contents Entry.update ∧ Settled (applyAll ops flash) state ∧
      (Replays (applyAll ops flash) log ∨ Replays (applyAll ops flash) (.checkpoint state.cache)) ∧
      CutAnywhere ops (fun _ after => ∃ log, Replays after log) flash := by
  have length := replays.toRepresents.contents_length
  rw [wearLevelingInit_replays replays, consolidateIfNeeded]
  split
  next full =>
    have fresh := represents_consolidated flash length
    have synced : Synced (applyAll (backingStoreErase ++ writeConsolidated (log.contents Entry.update)) flash)
        ⟨log.contents Entry.update, logStart⟩ (.checkpoint (log.contents Entry.update)) :=
      ⟨fresh, rfl, (by decide : logStart < wearLevelingBackingSize)⟩
    refine ⟨_, _, _, rfl, by simp, consolidation_whole _, rfl, synced.settled rfl, .inr (.checkpoint fresh), ?_⟩
    refine Cuts.weaken (consolidation_cut replays length) fun performed after consolidating => ?_
    rcases consolidating with rfl | ⟨_, unfounded | ⟨base, fresh, _⟩⟩
    · exact ⟨log, replays⟩
    · exact ⟨_, unfounded⟩
    · exact ⟨_, fresh⟩
  next space =>
    have synced : Synced flash ⟨log.contents Entry.update, logStart + 2 * log.entries.length⟩ log :=
      ⟨replays.toRepresents, rfl, Nat.lt_of_not_le space⟩
    exact ⟨_, _, _, rfl, by simp, List.forall_mem_nil _, rfl, synced.settled rfl, .inl replays, cutAnywhere_nil.mpr ⟨log, replays⟩⟩

end Fruitchip.WearLeveling
