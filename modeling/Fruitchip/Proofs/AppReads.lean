import Fruitchip.Proofs.AppsPartition
import Fruitchip.Proofs.FwfsReads
import Fruitchip.Proofs.LossyReads

/-! The driver on an apps partition that the builder made. Whatever is lost or
damaged on the bus, it reads what was packed, or reports an error. -/

namespace Fruitchip.Fwfs
open Embedded Client Firmware AppsBuilder

variable {config : Config} {world : World} {apps : List App} {deliveries : Call → Nat → ReadDelivery}
  {offset size : U32} {idx : U8}

/-- An entry, unless it is longer than the lookup table can say. -/
def entryOf (data : List U8) (attrs : Nat) : Entry :=
  if fits : (entryBytes data attrs).length < 2 ^ 32 then
    { attr := BitVec.ofNat 32 attrs
      data
      rest := bytes32 (Fruitchip.crc32 data) ++
        List.replicate (calculatePaddingForLen (12 + data.length)) sectorEraseValue
      crc := by
        rw [List.length_append, bytes32_length]
        exact Nat.le_add_right 4 _
      fits := by
        rw [entryBytes, List.append_assoc, List.length_append, List.length_append, List.length_append, bytes32_length,
          bytes32_length] at fits
        exact fits }
  else ⟨0, [], [0, 0, 0, 0], Nat.le_refl 4, by decide⟩

theorem entryOf_fits {data : List U8} {attrs : Nat} (fits : (entryBytes data attrs).length < 2 ^ 32) :
    (entryOf data attrs).bytes = entryBytes data attrs ∧ (entryOf data attrs).data = data := by
  rw [entryOf, dif_pos fits]
  refine ⟨?_, rfl⟩
  rw [Entry.bytes, entryBytes, List.append_assoc _ (bytes32 (Fruitchip.crc32 data))]

/-- What was packed under an index: the index of apps, or the file of an app. -/
def contents (apps : List App) (idx : U8) : List U8 :=
  if idx = 0 then indexData apps else (apps[idx.toNat - 1]?.map App.data).getD []

def attributes (apps : List App) (idx : U8) : Nat :=
  if idx = 0 then 0 else (apps[idx.toNat - 1]?.map App.attrs).getD 0

def appEntries (apps : List App) (idx : U8) : Entry := entryOf (contents apps idx) (attributes apps idx)

theorem entriesOf_getElem? (known : idx.toNat ≤ apps.length) :
    (entriesOf apps)[idx.toNat]? = some (entryBytes (contents apps idx) (attributes apps idx)) := by
  by_cases index : idx = 0
  · rw [contents, attributes, if_pos index, if_pos index, index]
    rfl
  · have positive : idx.toNat ≠ 0 := fun zero => index (BitVec.eq_of_toNat_eq zero)
    obtain ⟨place, same⟩ := Nat.exists_eq_succ_of_ne_zero positive
    have inside : place < apps.length := by omega
    rw [contents, attributes, if_neg index, if_neg index, same]
    simp only [entriesOf, Nat.succ_eq_add_one, List.getElem?_cons_succ, List.getElem?_map, Nat.add_sub_cancel,
      List.getElem?_eq_getElem inside, Option.map_some, Option.getD_some]

theorem appEntries_known (packable : Packable apps) (known : idx.toNat ≤ apps.length) :
    (entriesOf apps)[idx.toNat]? = some (appEntries apps idx).bytes ∧ (appEntries apps idx).data = contents apps idx := by
  have found := entriesOf_getElem? known
  have member := List.mem_of_getElem? found
  have block := block_le_flatten member
  have image := packable.size
  rw [imageSize] at image
  obtain ⟨bytes, data⟩ := @entryOf_fits (contents apps idx) (attributes apps idx) (by omega)
  rw [appEntries, bytes]
  exact ⟨found, data⟩

theorem index_names (packable : Packable apps) : appsListPopulate (contents apps 0) =
    (apps.zipIdx 1).map fun (app, appIdx) => (ascii app.name, BitVec.ofNat 8 appIdx) := by
  have few := packable.count
  have start : (0 : U8).toNat + apps.length = (BitVec.ofNat 8 apps.length).toNat := by
    rw [toNat_ofNat_of_lt (by omega)]
    exact Nat.zero_add _
  have listed := populate_names (fun app => ascii app.name) apps [] start fun app member => by
    rw [ascii, List.length_map]
    exact packable.names app member
  rw [List.append_nil] at listed
  simp only [ascii, List.length_map] at listed
  exact listed

theorem index_word (idx : U8) : idx.setWidth 32 = BitVec.ofNat 32 idx.toNat := by
  apply BitVec.eq_of_toNat_eq
  simp only [BitVec.toNat_setWidth, BitVec.toNat_ofNat]

theorem image_tests (packable : Packable apps) (placed : Placed world.flash (imageOf (entriesOf apps))) :
    appsPartitionDetect world.flash = true ∧
      (idx.setWidth 32 < appsPartitionEntriesCount world.flash ↔ idx.toNat ≤ apps.length) ∧
      (idx.toNat ≤ apps.length → (offset < appsPartitionEntryLength world.flash (idx.setWidth 32) ↔
        offset.toNat < (appEntries apps idx).bytes.length)) := by
  have few := packable.count
  have total : (entriesOf apps).length = apps.length + 1 := by rw [entriesOf, List.length_cons, List.length_map]
  refine ⟨detect_image placed, ?_, fun known => ?_⟩
  · rw [entries_count placed, index_word, BitVec.lt_def, toNat_ofNat_of_lt (by omega), toNat_ofNat_of_lt (by omega)]
    omega
  · obtain ⟨found, _⟩ := appEntries_known packable known
    obtain ⟨inside, entry⟩ := List.getElem?_eq_some_iff.mp found
    have fits := (appEntries apps idx).fits
    rw [index_word, entry_length placed inside, entry, BitVec.lt_def, toNat_ofNat_of_lt]
    rw [Entry.bytes_length]
    exact fits

theorem entry_slice_at (packable : Packable apps) (placed : Placed world.flash (imageOf (entriesOf apps)))
    (known : idx.toNat ≤ apps.length) (range : offset.toNat + size.toNat ≤ (appEntries apps idx).bytes.length) :
    refBytes config world.flash (.xip (appsPartitionEntryAddr world.flash (idx.setWidth 32) + offset)) size.toNat =
      ((appEntries apps idx).bytes.drop offset.toNat).take size.toNat := by
  obtain ⟨found, _⟩ := appEntries_known packable known
  obtain ⟨inside, entry⟩ := List.getElem?_eq_some_iff.mp found
  have bytes := entry_bytes placed inside
  rw [entry, ← index_word] at bytes
  rw [← bytes]
  apply List.ext_getElem
  · rw [refBytes_length, List.length_take, List.length_drop, xipBytes, List.length_map, List.length_range]
    omega
  · intro place low high
    rw [refBytes_length] at low
    simp only [refBytes, xipBytes, List.getElem_map, List.getElem_range, List.getElem_take, List.getElem_drop, refByte]
    rw [BitVec.ofNat_add, BitVec.ofNat_toNat, BitVec.setWidth_eq, BitVec.add_assoc]

theorem sent_bytes (packable : Packable apps) (placed : Placed world.flash (imageOf (entriesOf apps)))
    (range : offset.toNat + size.toNat ≤ (appEntries apps idx).bytes.length) :
    emit config world.flash 0 (.placeholder, 0) (runCall config (.appsRead offset size idx true) world).2 =
      if idx.toNat ≤ apps.length ∧ offset.toNat < (appEntries apps idx).bytes.length then
        bytes32 modchipCmdResultOk ++ dataOut (((appEntries apps idx).bytes.drop offset.toNat).take size.toNat) true
      else bytes32 modchipCmdResultErr := by
  obtain ⟨detected, count, length⟩ := @image_tests world apps offset idx packable placed
  rw [runCall, readAppsPartitionBody]
  simp only [appsReadStatics, detected, decide_eq_true_eq, true_and]
  by_cases known : idx.toNat ≤ apps.length
  · by_cases before : offset.toNat < (appEntries apps idx).bytes.length
    · rw [if_pos ⟨(length known).mpr before, count.mpr known, by decide⟩, if_pos ⟨known, before⟩, emit_answerData,
        entry_slice_at packable placed known range]
    · rw [if_neg fun accepted => before ((length known).mp accepted.1), if_neg fun both => before both.2, emit_answer]
  · rw [if_neg fun accepted => known (count.mp accepted.2.1), if_neg fun both => known both.1, emit_answer]

theorem slice_length (range : offset.toNat + size.toNat ≤ (appEntries apps idx).bytes.length) :
    (((appEntries apps idx).bytes.drop offset.toNat).take size.toNat).length = size.toNat := by
  rw [List.length_take, List.length_drop]
  omega

def Bursts (deliveries : Call → Nat → ReadDelivery) : Prop := ∀ call attemp, (deliveries call attemp).Bursts

/-- One of the attempts of a call gets through. -/
def Audible (deliveries : Call → Nat → ReadDelivery) (call : Call) : Prop :=
  ∃ attemp < modchipCmdRetries, deliveries call attemp = .answered

/-- Reads of the image that succeed deliver what was packed. -/
theorem heard_serves (packable : Packable apps) (placed : Placed world.flash (imageOf (entriesOf apps)))
    (bursts : Bursts deliveries) : Serves (heard config world deliveries) (appEntries apps) := by
  intro offset size idx range done
  have attempts : Leads (fun _ : Option (List U8) => True)
      (fun dst => dst = some (((appEntries apps idx).bytes.drop offset.toNat).take size.toNat))
      (readBytes (heard config world deliveries) offset size idx) := by
    rw [readBytes, modchipAppsReadWithRetry]
    refine @withRetry_leads (Option (List U8)) (fun _ => True)
      (fun dst => dst = some (((appEntries apps idx).bytes.drop offset.toNat).take size.toNat)) _
      (fun attemp dst _ => ⟨fun ok => ?_, fun _ => trivial⟩) modchipCmdRetries 0 none trivial
    have delivered := bursts (.appsRead offset size idx true) attemp
    dsimp only [heard] at ok ⊢
    rw [sent_bytes packable placed range] at ok ⊢
    split at ok
    next inside =>
      rw [if_pos inside]
      cases deliver_data (slice_length range) delivered with
      | accepted _ same =>
        rw [same]
        rfl
      | refused _ failed => exact absurd (failed.symm.trans ok) Bool.false_ne_true
    · exact absurd ((deliver_error _).1.symm.trans ok) Bool.false_ne_true
  exact attempts.succeeded done

theorem withRetry_succeeds {σ : Type} {attempt : Nat → σ → Bool × σ} {attemps attemp good : Nat}
    (between : attemp ≤ good ∧ good < attemp + attemps) (succeeds : ∀ state, (attempt good state).1 = true) (state : σ) :
    (withRetry attempt attemps attemp state).1 = true := by
  induction attemps generalizing attemp state with
  | zero => omega
  | succ attemps ih =>
    simp only [withRetry]
    split
    · rfl
    next failed =>
      have other : attemp ≠ good := by
        rintro rfl
        exact failed (succeeds state)
      exact ih (by omega) _

theorem heard_audible (packable : Packable apps) (placed : Placed world.flash (imageOf (entriesOf apps)))
    (audible : Audible deliveries (.appsRead offset size idx true)) (known : idx.toNat ≤ apps.length)
    (range : offset.toNat + size.toNat ≤ (appEntries apps idx).bytes.length)
    (before : offset.toNat < (appEntries apps idx).bytes.length) :
    (readBytes (heard config world deliveries) offset size idx).1 = true := by
  obtain ⟨good, attemps, answered⟩ := audible
  rw [readBytes, modchipAppsReadWithRetry]
  refine @withRetry_succeeds _ _ _ _ good ⟨Nat.zero_le good, by omega⟩ (fun dst => ?_) none
  dsimp only [heard]
  rw [answered, ReadDelivery.deliver, sent_bytes packable placed range, if_pos ⟨known, before⟩,
    Loader.received_data _ (slice_length range)]
  rfl

theorem readSizeAttr_done (answers : Answers) (idx : U8) (fd : File) :
    (readSizeAttr answers idx fd).1 = (readBytes answers modchipAppsSizeOffset 8 idx).1 :=
  (@withRetry_related File (Option (List U8)) (fun _ _ => True) _ _ (fun _ _ _ _ => ⟨rfl, trivial⟩) _ _ _ _ trivial).1

variable {φ : Type} {driver : Driver φ} {file : φ} {slot : Slot}

def readCalls (config : Config) (world : World) (file : φ) (reads : List (U32 × (Call → Nat → ReadDelivery))) :
    List (ReadCall φ) :=
  reads.map fun (size, deliveries) => ⟨file, size, heard config world deliveries⟩

variable {reads : List (U32 × (Call → Nat → ReadDelivery))}

def requested (idx : U8) (data : List U8) (position : Nat) (size : U32) : Call :=
  .appsRead (BitVec.ofNat 32 (8 + position)) (BitVec.ofNat 32 (min size.toNat (data.length - position))) idx true

/-- What reads of a file give, from a position in its data on. Each takes what
follows, as much as it asks for and is left. One fails if no attempt gets
through, and takes nothing. -/
inductive Pieces (file : φ) (idx : U8) (data : List U8) :
    Nat → List (U32 × (Call → Nat → ReadDelivery)) → List (φ × List U8 × Except Errno U32) → Prop
  | nil {position} : Pieces file idx data position [] []
  | taken {position size deliveries reads outputs} {count : U32}
      (available : count.toNat = min size.toNat (data.length - position))
      (rest : Pieces file idx data (position + count.toNat) reads outputs) :
      Pieces file idx data position ((size, deliveries) :: reads)
        ((file, (data.drop position).take count.toNat, .ok count) :: outputs)
  | failed {position size deliveries reads bytes outputs} (left : position < data.length)
      (unheard : ¬ Audible deliveries (requested idx data position size))
      (rest : Pieces file idx data position reads outputs) :
      Pieces file idx data position ((size, deliveries) :: reads) ((file, bytes, .error .eio) :: outputs)

theorem reads_pieces (config : Config) (packable : Packable apps)
    (placed : Placed world.flash (imageOf (entriesOf apps))) (known : idx.toNat ≤ apps.length)
    (opened : Open driver (appEntries apps) file slot idx) (bursts : ∀ read ∈ reads, Bursts read.2) :
    Pieces file idx (contents apps idx) (driver.position slot) reads
      (fileReader.run driver (readCalls config world file reads)).2 := by
  obtain ⟨_, data⟩ := appEntries_known packable known
  induction reads generalizing driver with
  | nil => exact .nil
  | cons read reads ih =>
    obtain ⟨size, deliveries⟩ := read
    have later : ∀ read ∈ reads, Bursts read.2 := fun other member => bursts other (List.mem_cons_of_mem _ member)
    have inside := opened.inside
    rw [data] at inside
    rw [readCalls, List.map_cons, Mealy.run_cons, fileReader_step]
    rcases fwfsRead_cases opened size (heard_serves packable placed (bursts _ List.mem_cons_self)) with
      ⟨reached, read⟩ | ⟨left, ⟨refused, bytes, read⟩ | ⟨next, bytes, count, read, advances⟩⟩
    · rw [read]
      rw [data] at reached
      have available : (0 : U32).toNat = min size.toNat ((contents apps idx).length - driver.position slot) := by
        rw [reached, Nat.sub_self, Nat.min_zero]
        rfl
      exact .taken available (ih opened later)
    · rw [read]
      rw [data] at left
      refine .failed (by omega) (fun audible => refused ?_) (ih opened later)
      have most := Nat.min_le_right size.toNat ((contents apps idx).length - driver.position slot)
      have fits := (appEntries apps idx).fits
      have length := (appEntries apps idx).bytes_length
      rw [data] at fits length
      rw [DataAnswered, data]
      apply heard_audible packable placed audible known
      · rw [toNat_ofNat_of_lt (by omega), toNat_ofNat_of_lt (by omega)]
        omega
      · rw [toNat_ofNat_of_lt (by omega)]
        omega
    · have available := advances.available
      have slice := advances.slice
      rw [data] at available slice
      rw [read, slice]
      have rest := ih advances.opened later
      rw [advances.position] at rest
      exact .taken available rest

section Delivered

variable [DecidableEq φ] {data : List U8} {position : Nat} {outputs : List (φ × List U8 × Except Errno U32)}

theorem delivered_taken (bytes : List U8) (count : U32) :
    delivered file ((file, bytes, .ok count) :: outputs) = bytes ++ delivered file outputs := by
  simp [delivered, Except.isOk, Except.toBool]

theorem delivered_failed (bytes : List U8) (error : Errno) :
    delivered file ((file, bytes, .error error) :: outputs) = delivered file outputs := by
  simp [delivered, Except.isOk, Except.toBool]

theorem Pieces.between (pieces : Pieces file idx data position reads outputs) (inside : position ≤ data.length) :
    ∃ last, last ≤ data.length ∧ data.take position ++ delivered file outputs = data.take last := by
  induction pieces with
  | nil => exact ⟨_, inside, List.append_nil _⟩
  | @taken position size deliveries reads outputs count available rest ih =>
    obtain ⟨last, final, same⟩ := ih (by omega)
    exact ⟨last, final, by rw [← same, List.take_add, delivered_taken, List.append_assoc]⟩
  | failed left unheard rest ih =>
    obtain ⟨last, final, same⟩ := ih inside
    exact ⟨last, final, by rw [delivered_failed, same]⟩

/-- A read of some bytes returns zero only at the end. -/
theorem Pieces.end {bytes : List U8} (pieces : Pieces file idx data position reads outputs)
    (some : ∀ read ∈ reads, read.1 ≠ 0) (inside : position ≤ data.length) (zero : (file, bytes, .ok 0) ∈ outputs) :
    data.take position ++ delivered file outputs = data := by
  induction pieces with
  | nil => cases zero
  | @taken position size deliveries reads outputs count available rest ih =>
    have later : ∀ read ∈ reads, read.1 ≠ 0 := fun other member => some other (List.mem_cons_of_mem _ member)
    rw [delivered_taken, ← List.append_assoc, ← List.take_add]
    rcases List.mem_cons.mp zero with here | there
    · have none : count = 0 := (Except.ok.inj (congrArg (fun output => output.2.2) here)).symm
      have asked : size ≠ 0 := some (size, deliveries) List.mem_cons_self
      have positive : 0 < size.toNat := by bv_omega
      have nothing : count.toNat = 0 := by rw [none]; rfl
      obtain ⟨last, final, same⟩ := rest.between (by omega)
      have whole : data.take (position + count.toNat) = data := List.take_of_length_le (by omega)
      rw [whole] at same ⊢
      have longest := congrArg List.length same
      rw [List.length_append, List.length_take] at longest
      have silent : delivered file outputs = [] := List.eq_nil_of_length_eq_zero (by omega)
      rw [silent, List.append_nil]
    · exact ih later (by omega) there
  | @failed position size deliveries reads bytes outputs left unheard rest ih =>
    have later : ∀ read ∈ reads, read.1 ≠ 0 := fun other member => some other (List.mem_cons_of_mem _ member)
    rcases List.mem_cons.mp zero with here | there
    · cases here
    · rw [delivered_failed]
      exact ih later inside there

/-- What reads of one file come to. -/
structure Transferred (file : φ) (idx : U8) (data : List U8) (reads : List (U32 × (Call → Nat → ReadDelivery)))
    (outputs : List (φ × List U8 × Except Errno U32)) : Prop where
  pieces : Pieces file idx data 0 reads outputs
  front : delivered file outputs <+: data
  /-- A read returns zero only once everything has been delivered. -/
  whole : ∀ bytes, (file, bytes, .ok 0) ∈ outputs → delivered file outputs = data

theorem Pieces.transferred (pieces : Pieces file idx data 0 reads outputs) (some : ∀ read ∈ reads, read.1 ≠ 0) :
    Transferred file idx data reads outputs := by
  refine ⟨pieces, ?_, fun bytes zero => pieces.end some (Nat.zero_le _) zero⟩
  obtain ⟨last, _, same⟩ := pieces.between (Nat.zero_le _)
  rw [List.take_zero, List.nil_append] at same
  exact same ▸ List.take_prefix last data

end Delivered

/-- An application that is opened by its name and read in pieces of any size. -/
structure Readable (φ : Type) [DecidableEq φ] (config : Config) (apps : List App) (world : World) : Prop where
  /-- An `open` fails for want of a slot, or because no attempt gets through. -/
  opens : ∀ (driver : Driver φ) file name deliveries, getModeFromName name = fwfsModeDataChar →
    (getIdxFromName name).toNat ≤ apps.length →
    Audible deliveries (.appsRead modchipAppsSizeOffset 8 (getIdxFromName name) true) →
    findFreeFileHandle driver.fdHandle ≠ none →
    (fwfsOpen driver file name (heard config world deliveries)).2 = .ok ()
  transfers : ∀ (driver : Driver φ) file name deliveries reads, getModeFromName name = fwfsModeDataChar →
    (getIdxFromName name).toNat ≤ apps.length → Bursts deliveries →
    (fwfsOpen driver file name (heard config world deliveries)).2 = .ok () →
    (∀ read ∈ reads, read.1 ≠ 0 ∧ Bursts read.2) →
    Transferred file (getIdxFromName name) (contents apps (getIdxFromName name)) reads
      (fileReader.run (fwfsOpen driver file name (heard config world deliveries)).1 (readCalls config world file reads)).2

theorem readable [DecidableEq φ] (packable : Packable apps) (placed : Placed world.flash (imageOf (entriesOf apps))) :
    Readable φ config apps world where
  opens driver file name deliveries data known audible free := by
    obtain ⟨slot, found⟩ := Option.ne_none_iff_exists'.mp free
    have header : (0 : U32).toNat + (8 : U32).toNat ≤ (appEntries apps (getIdxFromName name)).bytes.length := by
      rw [Entry.bytes_length]
      exact Nat.le_add_right_of_le (Nat.le_add_right 8 _)
    have done := @heard_audible config world apps deliveries modchipAppsSizeOffset 8 (getIdxFromName name) packable placed
      audible known header (Nat.lt_of_lt_of_le (by decide) header)
    simp only [fwfsOpen, found, data, if_true]
    rw [if_neg]
    refine not_not_intro ((readSizeAttr_done _ _ _).trans done)
  transfers driver file name deliveries reads data known bursts opened sound := by
    obtain ⟨slot, _, ⟨now, start⟩, _⟩ := fwfsOpen_open (heard_serves packable placed bursts) data opened
    have pieces := reads_pieces config packable placed known now fun read member => (sound read member).2
    rw [start] at pieces
    exact pieces.transferred fun read member => (sound read member).1

end Fruitchip.Fwfs
