import Fruitchip.Proofs.FwfsSeek

/-! Files of attributes. They start four bytes before the data, but end, and
start again after a seek, where a file of data does. -/

namespace Fruitchip.Fwfs
open Embedded Client

variable {φ : Type} {driver next : Driver φ} {entries : U8 → Entry} {file : φ} {slot : Slot} {idx : U8} {size : U32}
  {answers : Answers} {place position : Nat}

inductive AttrAccess where
  | read (size : U32) (answers : Answers)
  /-- `lseek` to 0 from the start. -/
  | rewind

namespace AttrAccess

def Served (entries : U8 → Entry) : AttrAccess → Prop
  | read size answers => size ≠ 0 ∧ Serves answers entries
  | rewind => True

/-- The modchip sends whatever lies in an entry. -/
def Answered (entries : U8 → Entry) : AttrAccess → Prop
  | read _ answers => ∀ offset size idx, offset.toNat + size.toNat ≤ (entries idx).bytes.length →
      (readBytes answers offset size idx).1 = true
  | rewind => True

end AttrAccess

/-- From a position on, the file behaves as one that holds a word. What a read
returns comes from where entries have that word, and it only fails before the end
and where the modchip refuses the bytes it is to return. -/
def Behaves (file : φ) (slot : Slot) (idx : U8) (word : List U8) :
    Driver φ → (position : Nat) → List AttrAccess → Prop
  | _, _, [] => True
  | driver, position, .read size answers :: rest =>
    let result := fwfsRead driver file size answers
    (∃ count : U32, result.2.2 = .ok count ∧ count.toNat = min size.toNat (word.length - position) ∧
        result.2.1.getD [] = (word.drop position).take count.toNat ∧
        (count = 0 ∨ (driver.fdHandle slot).offset.toNat = modchipAppsAttrOffset.toNat + position) ∧
        Behaves file slot idx word result.1 (position + count.toNat) rest) ∨
      position < word.length ∧ result.2.2 = .error .eio ∧
        ¬ (readBytes answers (modchipAppsAttrOffset + BitVec.ofNat 32 position)
          (BitVec.ofNat 32 (min size.toNat (word.length - position))) idx).1 = true ∧
        Behaves file slot idx word result.1 position rest
  | driver, _, .rewind :: rest =>
    let result := fwfsLseek driver file 0 seekSet
    result.2 = .ok 0 ∧ Behaves file slot idx word result.1 0 rest

/-- The reads ask for no more than the word, and none comes after a rewind. -/
def FitsWord : (position : Nat) → List AttrAccess → Prop
  | _, [] => True
  | position, .read size _ :: rest => position + size.toNat ≤ 4 ∧ FitsWord (position + size.toNat) rest
  | _, .rewind :: rest => ∀ access ∈ rest, access = .rewind

structure AttrOpen (driver : Driver φ) (file : φ) (slot : Slot) (idx : U8) (place : Nat) : Prop where
  held : driver.privdata file = some slot
  entry : (driver.fdHandle slot).idx = idx
  size : (driver.fdHandle slot).size = 4
  offset : (driver.fdHandle slot).offset.toNat = place

theorem FitsWord.fewer {accesses : List AttrAccess} (fits : FitsWord position accesses) (less : place ≤ position) :
    FitsWord place accesses := by
  induction accesses generalizing position place with
  | nil => exact True.intro
  | cons access rest ih =>
    cases access with
    | read size answers =>
      obtain ⟨inside, later⟩ := fits
      exact ⟨by omega, ih later (by omega)⟩
    | rewind => exact fits

theorem attr_available (opened : AttrOpen driver file slot idx place) (inside : place < 12) (size : U32) :
    (availableSize (driver.fdHandle slot) size).toNat = min size.toNat (12 - place) := by
  have offset := opened.offset
  have left : ((driver.fdHandle slot).size - ((driver.fdHandle slot).offset - modchipAppsDataOffset)).toNat =
      12 - place := by
    have four := opened.size
    have header : modchipAppsDataOffset = 8 := rfl
    rw [header, four]
    bv_omega
  unfold availableSize
  by_cases smaller : size < (driver.fdHandle slot).size - ((driver.fdHandle slot).offset - modchipAppsDataOffset)
  · rw [if_pos smaller]
    rw [BitVec.lt_def, left] at smaller
    omega
  · rw [if_neg smaller, left]
    rw [BitVec.lt_def, left] at smaller
    omega

theorem attr_read (opened : AttrOpen driver file slot idx place) (low : 4 ≤ place) (inside : place < 12)
    (serves : Serves answers entries) (size : U32) :
    (∃ next bytes count, fwfsRead driver file size answers = (next, bytes, .ok count) ∧
        count.toNat = min size.toNat (12 - place) ∧
        bytes.getD [] = ((entries idx).bytes.drop place).take count.toNat ∧
        AttrOpen next file slot idx (place + count.toNat)) ∨
      (∃ bytes, fwfsRead driver file size answers = (driver, bytes, .error .eio)) ∧
        place + min size.toNat (12 - place) ≤ (entries idx).bytes.length ∧
          ¬ (readBytes answers (BitVec.ofNat 32 place) (BitVec.ofNat 32 (min size.toNat (12 - place))) idx).1 = true := by
  have available := attr_available opened inside size
  have offset := opened.offset
  have four := opened.size
  have crc := (entries idx).crc
  have more : ¬ (driver.fdHandle slot).size + modchipAppsDataOffset ≤ (driver.fdHandle slot).offset := by
    have header : modchipAppsDataOffset = 8 := rfl
    rw [header, four]
    bv_omega
  have request : (driver.fdHandle slot).offset.toNat + (availableSize (driver.fdHandle slot) size).toNat ≤
      (entries idx).bytes.length := by
    rw [Entry.bytes_length]
    omega
  have read := fwfsRead_held opened.held size answers
  dsimp only at read
  rw [if_neg more, opened.entry] at read
  by_cases done : (readBytes answers (driver.fdHandle slot).offset (availableSize (driver.fdHandle slot) size) idx).1 = true
  · rw [if_pos done] at read
    have bytes := serves _ _ _ request done
    rw [offset] at bytes
    refine .inl ⟨_, _, _, read, available, by rw [bytes]; rfl, ?_⟩
    refine ⟨opened.held, ?_, ?_, ?_⟩
    · rw [set_self]
    · rw [set_self]
      exact four
    · rw [set_self, BitVec.toNat_add, offset, Nat.mod_eq_of_lt]
      omega
  · rw [if_neg done] at read
    rw [offset, available] at request
    refine .inr ⟨⟨_, read⟩, request, ?_⟩
    rw [← available, ← offset, BitVec.ofNat_toNat, BitVec.ofNat_toNat, BitVec.setWidth_eq, BitVec.setWidth_eq]
    exact done

theorem attr_rewind (opened : AttrOpen driver file slot idx place) :
    (fwfsLseek driver file 0 seekSet).2 = .ok 0 ∧ AttrOpen (fwfsLseek driver file 0 seekSet).1 file slot idx 8 := by
  have start : landed (driver.fdHandle slot) (0 + modchipAppsDataOffset) = 8 := by
    simp only [landed, opened.size]
    rfl
  have seek := fwfsLseek_held opened.held 0 seekSet
  have asked : seekOffset (driver.fdHandle slot) 0 seekSet = some (0 + modchipAppsDataOffset) := rfl
  rw [asked] at seek
  dsimp only at seek
  rw [start] at seek
  rw [seek]
  refine ⟨rfl, opened.held, ?_, ?_, ?_⟩
  · rw [set_self]
    exact opened.entry
  · rw [set_self]
    exact opened.size
  · rw [set_self]
    rfl

variable {word : List U8} {accesses : List AttrAccess}

/-- Rewinding alone shows nothing. -/
theorem behaves_rewinds (opened : AttrOpen driver file slot idx place) (rewinds : ∀ access ∈ accesses, access = .rewind) :
    Behaves file slot idx word driver position accesses := by
  induction accesses generalizing driver place position with
  | nil => exact True.intro
  | cons access rest ih =>
    obtain ⟨rfl, others⟩ := List.forall_mem_cons.mp rewinds
    obtain ⟨returned, again⟩ := attr_rewind opened
    exact ⟨returned, ih again others⟩

theorem attr_slice (entry : Entry) {position count : Nat} (inside : position + count ≤ 4) :
    (entry.bytes.drop (4 + position)).take count = ((bytes32 entry.attr).drop position).take count := by
  have length : (bytes32 (BitVec.ofNat 32 entry.data.length)).length = 4 := rfl
  have whole : entry.bytes = bytes32 (BitVec.ofNat 32 entry.data.length) ++
      (bytes32 entry.attr ++ (entry.data ++ entry.rest)) := by
    rw [Entry.bytes, List.append_assoc, List.append_assoc]
  have front : position ≤ (bytes32 entry.attr).length := Nat.le_trans (Nat.le_add_right _ _) inside
  rw [whole, ← length, List.drop_length_add_append, List.drop_append_of_le_length front, List.take_append_of_le_length]
  rw [List.length_drop, bytes32_length]
  omega

theorem fits_behaves (opened : AttrOpen driver file slot idx (4 + position)) (inside : position ≤ 4)
    (served : ∀ access ∈ accesses, access.Served entries) (fits : FitsWord position accesses) :
    Behaves file slot idx (bytes32 (entries idx).attr) driver position accesses := by
  induction accesses generalizing driver position with
  | nil => exact True.intro
  | cons access rest ih =>
    obtain ⟨here, later⟩ := List.forall_mem_cons.mp served
    cases access with
    | read size answers =>
      obtain ⟨room, more⟩ := fits
      obtain ⟨some, serves⟩ := here
      have positive : 0 < size.toNat := by bv_omega
      rcases attr_read opened (Nat.le_add_right 4 position) (by omega) serves size with
        ⟨next, bytes, count, read, available, slice, now⟩ | ⟨⟨bytes, read⟩, _, refused⟩
      · have counted : count.toNat = size.toNat := by omega
        rw [Nat.add_assoc] at now
        refine .inl ⟨count, by rw [read], ?_, ?_, .inr opened.offset, ?_⟩
        · rw [bytes32_length]
          omega
        · rw [read, slice, attr_slice _ (by omega)]
        · rw [read]
          exact ih now (by omega) later (counted ▸ more)
      · have place : modchipAppsAttrOffset + BitVec.ofNat 32 position = BitVec.ofNat 32 (4 + position) :=
          (BitVec.ofNat_add 4 position).symm
        have asked : min size.toNat (4 - position) = min size.toNat (12 - (4 + position)) := by omega
        refine .inr ⟨by rw [bytes32_length]; omega, by rw [read], ?_, ?_⟩
        · rw [bytes32_length, place, asked]
          exact refused
        rw [read]
        exact ih opened inside later (more.fewer (Nat.le_add_right position _))
    | rewind =>
      obtain ⟨returned, again⟩ := attr_rewind opened
      exact ⟨returned, behaves_rewinds again fits⟩

/-- After a rewind, a read that is answered shows data. -/
theorem rewound_rewinds (opened : AttrOpen driver file slot idx 8)
    (served : ∀ access ∈ accesses, access.Served entries) (answered : ∀ access ∈ accesses, access.Answered entries)
    (behaves : Behaves file slot idx (bytes32 (entries idx).attr) driver 0 accesses) :
    ∀ access ∈ accesses, access = .rewind := by
  induction accesses generalizing driver with
  | nil => nofun
  | cons access rest ih =>
    obtain ⟨here, later⟩ := List.forall_mem_cons.mp served
    obtain ⟨sends, others⟩ := List.forall_mem_cons.mp answered
    cases access with
    | read size answers =>
      exfalso
      obtain ⟨some, serves⟩ := here
      have positive : 0 < size.toNat := by bv_omega
      rcases attr_read opened (by decide) (by decide) serves size with
        ⟨next, bytes, count, read, available, _, _⟩ | ⟨_, request, refused⟩
      · rw [Behaves, read] at behaves
        rcases behaves with ⟨other, returned, _, _, none | there, _⟩ | ⟨_, failed, _⟩
        · obtain rfl : count = other := Except.ok.inj returned
          rw [none] at available
          have zero : (0 : U32).toNat = 0 := rfl
          omega
        · rw [opened.offset] at there
          exact absurd there (by decide)
        · cases failed
      · exact refused (sends _ _ idx (by rw [toNat_ofNat_of_lt (by decide), toNat_ofNat_of_lt (by omega)]; exact request))
    | rewind =>
      obtain ⟨_, again⟩ := attr_rewind opened
      exact List.forall_mem_cons.mpr ⟨rfl, ih again later others behaves.2⟩

theorem behaves_fits (opened : AttrOpen driver file slot idx (4 + position)) (inside : position ≤ 4)
    (served : ∀ access ∈ accesses, access.Served entries) (answered : ∀ access ∈ accesses, access.Answered entries)
    (behaves : Behaves file slot idx (bytes32 (entries idx).attr) driver position accesses) :
    FitsWord position accesses := by
  induction accesses generalizing driver position with
  | nil => exact True.intro
  | cons access rest ih =>
    obtain ⟨here, later⟩ := List.forall_mem_cons.mp served
    obtain ⟨sends, others⟩ := List.forall_mem_cons.mp answered
    cases access with
    | read size answers =>
      obtain ⟨_, serves⟩ := here
      rcases attr_read opened (Nat.le_add_right 4 position) (by omega) serves size with
        ⟨next, bytes, count, read, available, _, now⟩ | ⟨_, request, refused⟩
      · rw [Behaves, read] at behaves
        rcases behaves with ⟨other, returned, counted, _, _, rest⟩ | ⟨_, failed, _⟩
        · obtain rfl : count = other := Except.ok.inj returned
          rw [bytes32_length] at counted
          -- the driver takes the file to be four bytes longer
          have room : position + size.toNat ≤ 4 := by omega
          have all : count.toNat = size.toNat := by omega
          rw [all] at now rest
          rw [Nat.add_assoc] at now
          exact ⟨room, ih now room later others rest⟩
        · cases failed
      · refine absurd (sends _ _ idx ?_) refused
        rw [toNat_ofNat_of_lt (by omega), toNat_ofNat_of_lt (by omega)]
        exact request
    | rewind =>
      obtain ⟨_, again⟩ := attr_rewind opened
      exact rewound_rewinds again later others behaves.2

variable [DecidableEq φ]

theorem fwfsOpen_attr {name : List U8} (attributes : getModeFromName name = fwfsModeAttrChar)
    (opened : (fwfsOpen driver file name answers).2 = .ok ()) :
    ∃ slot, AttrOpen (fwfsOpen driver file name answers).1 file slot (getIdxFromName name) 4 := by
  have other : ¬ fwfsModeAttrChar = fwfsModeDataChar := by decide
  cases found : findFreeFileHandle driver.fdHandle with
  | none =>
    simp only [fwfsOpen, found] at opened
    cases opened
  | some slot =>
    refine ⟨slot, ?_⟩
    simp only [fwfsOpen, found, attributes, if_neg other, ite_true] at opened ⊢
    split at opened
    · cases opened
    next done =>
      rw [if_neg done]
      refine ⟨if_pos rfl, ?_, ?_, ?_⟩
      · show (Driver.fdHandle (driver.set slot _) slot).idx = _
        rw [set_self]
        exact readAttr_idx _ _ _
      · show (Driver.fdHandle (driver.set slot _) slot).size = _
        rw [set_self]
        rfl
      · show (Driver.fdHandle (driver.set slot _) slot).offset.toNat = _
        rw [set_self]
        rfl

/-- A file that is opened for attributes behaves as one that holds the attribute
word, as long as the reads ask for no more than the word and none comes after a
rewind. Where the modchip sends what it is asked for, it behaves so only then. -/
theorem attributes_read_iff {name : List U8} (attributes : getModeFromName name = fwfsModeAttrChar)
    (opened : (fwfsOpen driver file name answers).2 = .ok ()) (entries : U8 → Entry) :
    ∃ slot, (fwfsOpen driver file name answers).1.privdata file = some slot ∧
      ∀ accesses : List AttrAccess, (∀ access ∈ accesses, access.Served entries) →
        (FitsWord 0 accesses → Behaves file slot (getIdxFromName name) (bytes32 (entries (getIdxFromName name)).attr)
          (fwfsOpen driver file name answers).1 0 accesses) ∧
        ((∀ access ∈ accesses, access.Answered entries) →
          (Behaves file slot (getIdxFromName name) (bytes32 (entries (getIdxFromName name)).attr)
              (fwfsOpen driver file name answers).1 0 accesses ↔ FitsWord 0 accesses)) := by
  obtain ⟨slot, now⟩ := fwfsOpen_attr attributes opened
  refine ⟨slot, now.held, fun accesses served => ⟨fits_behaves now (Nat.zero_le 4) served, fun answered => ?_⟩⟩
  exact ⟨behaves_fits now (Nat.zero_le 4) served answered, fits_behaves now (Nat.zero_le 4) served⟩

def fourEntry : Entry := ⟨0x04030201, [5, 6, 7, 8], [9, 9, 9, 9], by decide, by decide⟩

theorem attributes_read_four :
    (fwfsRead (fwfsOpen Driver.initial () [fwfsModeAttrChar, 7] (servedBy fun _ => fourEntry)).1 () 4
      (servedBy fun _ => fourEntry)).2 = (some [1, 2, 3, 4], .ok 4) ∧
    ∃ slot, (fwfsOpen Driver.initial () [fwfsModeAttrChar, 7] (servedBy fun _ => fourEntry)).1.privdata () = some slot ∧
      ∀ accesses : List AttrAccess, (∀ access ∈ accesses, access.Served fun _ => fourEntry) →
        (FitsWord 0 accesses → Behaves () slot 7 (bytes32 fourEntry.attr)
          (fwfsOpen Driver.initial () [fwfsModeAttrChar, 7] (servedBy fun _ => fourEntry)).1 0 accesses) ∧
        ((∀ access ∈ accesses, access.Answered fun _ => fourEntry) →
          (Behaves () slot 7 (bytes32 fourEntry.attr)
              (fwfsOpen Driver.initial () [fwfsModeAttrChar, 7] (servedBy fun _ => fourEntry)).1 0 accesses ↔
            FitsWord 0 accesses)) :=
  ⟨by decide +kernel, attributes_read_iff (by decide) (by decide +kernel) fun _ => fourEntry⟩

/-- A read of eight bytes shows the attributes and then data. -/
theorem data_is_read :
    let opened := (fwfsOpen Driver.initial () [fwfsModeAttrChar, 7] (servedBy fun _ => fourEntry)).1
    (fwfsRead opened () 8 (servedBy fun _ => fourEntry)).2 = (some [1, 2, 3, 4, 5, 6, 7, 8], .ok 8) ∧
      ∀ slot, ¬ Behaves () slot 7 (bytes32 fourEntry.attr) opened 0 [.read 8 (servedBy fun _ => fourEntry)] := by
  intro opened
  have read : (fwfsRead opened () 8 (servedBy fun _ => fourEntry)).2 = (some [1, 2, 3, 4, 5, 6, 7, 8], .ok 8) := by
    decide +kernel
  refine ⟨read, ?_⟩
  intro slot behaves
  rw [Behaves, read] at behaves
  rcases behaves with ⟨count, returned, counted, _⟩ | ⟨_, failed, _⟩
  · obtain rfl : 8 = count := Except.ok.inj returned
    exact absurd counted (by decide)
  · cases failed

end Fruitchip.Fwfs
