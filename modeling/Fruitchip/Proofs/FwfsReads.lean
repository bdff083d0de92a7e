import Fruitchip.Library.Mealy
import Fruitchip.Proofs.FwfsTable
import Mathlib.Data.List.Induction

/-! Reading the data of applications through several open files. A handle keeps
its offset from the start of the entry, so that its position in the data is
eight less. -/

namespace Fruitchip.Fwfs
open Embedded Client

/-- An entry of the partition. Its length fits the field of the lookup table. -/
structure Entry where
  attr : U32
  data : List U8
  /-- The checksum and the padding. -/
  rest : List U8
  crc : 4 ≤ rest.length
  fits : 8 + data.length + rest.length < 2 ^ 32

def Entry.bytes (entry : Entry) : List U8 :=
  bytes32 (BitVec.ofNat 32 entry.data.length) ++ bytes32 entry.attr ++ entry.data ++ entry.rest

/-- `modchip_apps_read_with_retry` into a buffer. -/
def readBytes (answers : Answers) (offset size : U32) (idx : U8) : Bool × Option (List U8) :=
  modchipAppsReadWithRetry answers offset size idx (fun _ bytes => some bytes) true modchipCmdRetries none

/-- Reads inside an entry that succeed deliver its bytes. -/
def Serves (answers : Answers) (entries : U8 → Entry) : Prop :=
  ∀ offset size idx, offset.toNat + size.toNat ≤ (entries idx).bytes.length →
    (readBytes answers offset size idx).1 = true →
    (readBytes answers offset size idx).2 = some (((entries idx).bytes.drop offset.toNat).take size.toNat)

variable {φ : Type} {driver : Driver φ} {entries : U8 → Entry} {file : φ} {slot : Slot} {idx : U8}

/-- The position of a handle in the data of its entry. -/
def Driver.position (driver : Driver φ) (slot : Slot) : Nat := (driver.fdHandle slot).offset.toNat - 8

/-- The file is open for the data of an entry. -/
structure Open (driver : Driver φ) (entries : U8 → Entry) (file : φ) (slot : Slot) (idx : U8) : Prop where
  held : driver.privdata file = some slot
  entry : (driver.fdHandle slot).idx = idx
  size : (driver.fdHandle slot).size.toNat = (entries idx).data.length
  behindHeader : 8 ≤ (driver.fdHandle slot).offset.toNat
  inside : driver.position slot ≤ (entries idx).data.length

/-- The modchip answers the request for the bytes that a read is to return. -/
def DataAnswered (driver : Driver φ) (entries : U8 → Entry) (slot : Slot) (idx : U8) (size : U32) (answers : Answers) :
    Prop :=
  (readBytes answers (BitVec.ofNat 32 (8 + driver.position slot))
    (BitVec.ofNat 32 (min size.toNat ((entries idx).data.length - driver.position slot))) idx).1 = true

/-- What one `fwfs_read` does to an open file. -/
structure ReadFollows (driver : Driver φ) (entries : U8 → Entry) (file : φ) (slot : Slot) (idx : U8) (size : U32)
    (answers : Answers) : Prop where
  /-- It reads as much as is left, from the position on. -/
  ok : ∀ count, (fwfsRead driver file size answers).2.2 = .ok count →
    count.toNat = min size.toNat ((entries idx).data.length - driver.position slot) ∧
      (fwfsRead driver file size answers).2.1.getD [] =
        ((entries idx).data.drop (driver.position slot)).take count.toNat ∧
      (fwfsRead driver file size answers).1.position slot = driver.position slot + count.toNat
  /-- It succeeds when the modchip answers. -/
  answered : DataAnswered driver entries slot idx size answers →
    ∃ count, (fwfsRead driver file size answers).2.2 = .ok count
  /-- It returns zero exactly at the end. -/
  zero : (fwfsRead driver file size answers).2.2 = .ok 0 ↔ driver.position slot = (entries idx).data.length
  /-- It only fails with `-EIO`, and then moves nothing. -/
  error : ∀ error, (fwfsRead driver file size answers).2.2 = .error error →
    error = .eio ∧ ∀ other, (fwfsRead driver file size answers).1.position other = driver.position other
  /-- The other files are where they were. -/
  others : ∀ other, other ≠ slot →
    (fwfsRead driver file size answers).1.fdHandle other = driver.fdHandle other

theorem Entry.bytes_length (entry : Entry) : entry.bytes.length = 8 + entry.data.length + entry.rest.length := by
  rw [Entry.bytes, List.length_append, List.length_append, List.length_append, bytes32_length, bytes32_length]

theorem entry_slice (entry : Entry) {position count : Nat} (inside : position + count ≤ entry.data.length) :
    (entry.bytes.drop (8 + position)).take count = (entry.data.drop position).take count := by
  have header : (bytes32 (BitVec.ofNat 32 entry.data.length) ++ bytes32 entry.attr).length = 8 := rfl
  have whole : entry.bytes = (bytes32 (BitVec.ofNat 32 entry.data.length) ++ bytes32 entry.attr) ++
      (entry.data ++ entry.rest) := by rw [Entry.bytes, List.append_assoc]
  have front : position ≤ entry.data.length := by omega
  rw [whole, ← header, List.drop_length_add_append, List.drop_append_of_le_length front,
    List.take_append_of_le_length]
  rw [List.length_drop]
  omega

theorem atEnd_iff (opened : Open driver entries file slot idx) :
    (driver.fdHandle slot).size + modchipAppsDataOffset ≤ (driver.fdHandle slot).offset ↔
      driver.position slot = (entries idx).data.length := by
  have fits := (entries idx).fits
  have size := opened.size
  have header := opened.behindHeader
  have inside := opened.inside
  rw [Driver.position] at inside ⊢
  simp only [modchipAppsDataOffset]
  constructor
  · intro reached
    bv_omega
  · intro reached
    bv_omega

def availableSize (fd : File) (size : U32) : U32 :=
  if size < fd.size - (fd.offset - modchipAppsDataOffset) then size else fd.size - (fd.offset - modchipAppsDataOffset)

theorem availableSize_toNat (opened : Open driver entries file slot idx) (size : U32) :
    (availableSize (driver.fdHandle slot) size).toNat =
      min size.toNat ((entries idx).data.length - driver.position slot) := by
  have fits := (entries idx).fits
  have length := opened.size
  have header := opened.behindHeader
  have inside := opened.inside
  rw [Driver.position] at inside ⊢
  have header8 : modchipAppsDataOffset = 8 := rfl
  rw [availableSize]
  by_cases smaller : size < (driver.fdHandle slot).size - ((driver.fdHandle slot).offset - modchipAppsDataOffset)
  · rw [if_pos smaller]
    rw [header8] at smaller
    bv_omega
  · rw [if_neg smaller]
    rw [header8] at smaller ⊢
    bv_omega

theorem fwfsRead_held (held : driver.privdata file = some slot) (size : U32) (answers : Answers) :
    let fd := driver.fdHandle slot
    let result := readBytes answers fd.offset (availableSize fd size) fd.idx
    fwfsRead driver file size answers =
      if fd.size + modchipAppsDataOffset ≤ fd.offset then (driver, none, .ok 0)
      else if result.1 then (driver.set slot { fd with offset := fd.offset + availableSize fd size }, result.2,
        .ok (availableSize fd size))
      else (driver, result.2, .error .eio) := by
  intro fd result
  unfold fwfsRead
  rw [held]
  dsimp only
  split
  · rfl
  · show (if ¬ result.1 = true then _ else _) = _
    by_cases done : result.1 = true
    · rw [if_pos done, if_neg (not_not_intro done)]
      rfl
    · rw [if_neg done, if_pos done]
      rfl

theorem Open.advance (opened : Open driver entries file slot idx) {count : U32}
    (room : driver.position slot + count.toNat ≤ (entries idx).data.length) :
    let next := driver.set slot { driver.fdHandle slot with offset := (driver.fdHandle slot).offset + count }
    next.position slot = driver.position slot + count.toNat ∧ Open next entries file slot idx := by
  have fits := (entries idx).fits
  have header := opened.behindHeader
  intro next
  have handle : next.fdHandle slot = { driver.fdHandle slot with offset := (driver.fdHandle slot).offset + count } :=
    if_pos rfl
  have offset : (next.fdHandle slot).offset.toNat = (driver.fdHandle slot).offset.toNat + count.toNat := by
    rw [Driver.position] at room
    rw [handle]
    bv_omega
  have position : next.position slot = driver.position slot + count.toNat := by
    rw [Driver.position, Driver.position, offset]
    omega
  refine ⟨position, opened.held, ?_, ?_, by omega, by omega⟩
  · rw [handle]
    exact opened.entry
  · rw [handle]
    exact opened.size

theorem Open.fresh {fd : File} (held : driver.privdata file = some slot)
    (handle : driver.fdHandle slot = { fd with offset := modchipAppsDataOffset }) (entry : fd.idx = idx)
    (size : fd.size.toNat = (entries idx).data.length) :
    Open driver entries file slot idx ∧ driver.position slot = 0 := by
  have start : driver.position slot = 0 := by
    rw [Driver.position, handle]
    rfl
  refine ⟨⟨held, ?_, ?_, ?_, ?_⟩, start⟩
  · rw [handle]
    exact entry
  · rw [handle]
    exact size
  · rw [handle]
    exact Nat.le_refl 8
  · rw [start]
    exact Nat.zero_le _

theorem ReadFollows.atEnd {size : U32} {answers : Answers} (reached : driver.position slot = (entries idx).data.length)
    (read : fwfsRead driver file size answers = (driver, none, .ok 0)) :
    ReadFollows driver entries file slot idx size answers := by
  refine ⟨?_, fun _ => ⟨0, by rw [read]⟩, ?_, ?_, ?_⟩
  · intro count returned
    rw [read] at returned ⊢
    cases returned
    refine ⟨?_, rfl, rfl⟩
    rw [reached, Nat.sub_self, Nat.min_zero]
    rfl
  · rw [read]
    exact ⟨fun _ => reached, fun _ => rfl⟩
  · intro error failed
    rw [read] at failed
    cases failed
  · intro other _
    rw [read]

theorem ReadFollows.failed {size : U32} {answers : Answers} {bytes : Option (List U8)}
    (left : driver.position slot ≠ (entries idx).data.length)
    (refused : ¬ DataAnswered driver entries slot idx size answers)
    (read : fwfsRead driver file size answers = (driver, bytes, .error .eio)) :
    ReadFollows driver entries file slot idx size answers := by
  refine ⟨?_, fun answered => absurd answered refused, ?_, ?_, ?_⟩
  · intro count returned
    rw [read] at returned
    cases returned
  · rw [read]
    refine ⟨?_, fun finished => absurd finished left⟩
    intro zero
    cases zero
  · intro error failed
    rw [read] at failed ⊢
    cases failed
    exact ⟨rfl, fun _ => rfl⟩
  · intro other _
    rw [read]

theorem ReadFollows.advanced {size count : U32} {answers : Answers} {bytes : Option (List U8)}
    (left : driver.position slot ≠ (entries idx).data.length) (some : count ≠ 0)
    (available : count.toNat = min size.toNat ((entries idx).data.length - driver.position slot))
    (slice : bytes.getD [] = ((entries idx).data.drop (driver.position slot)).take count.toNat)
    {next : Driver φ} (position : next.position slot = driver.position slot + count.toNat)
    (others : ∀ other, other ≠ slot → next.fdHandle other = driver.fdHandle other)
    (read : fwfsRead driver file size answers = (next, bytes, .ok count)) :
    ReadFollows driver entries file slot idx size answers := by
  refine ⟨?_, fun _ => ⟨count, by rw [read]⟩, ?_, ?_, ?_⟩
  · intro returnedCount returned
    rw [read] at returned ⊢
    cases returned
    exact ⟨available, slice, position⟩
  · rw [read]
    exact ⟨fun zero => absurd (Except.ok.inj zero) some, fun finished => absurd finished left⟩
  · intro error failed
    rw [read] at failed
    cases failed
  · rw [read]
    exact others

structure Advances (driver : Driver φ) (entries : U8 → Entry) (file : φ) (slot : Slot) (idx : U8) (size count : U32)
    (bytes : Option (List U8)) (next : Driver φ) : Prop where
  available : count.toNat = min size.toNat ((entries idx).data.length - driver.position slot)
  slice : bytes.getD [] = ((entries idx).data.drop (driver.position slot)).take count.toNat
  position : next.position slot = driver.position slot + count.toNat
  opened : Open next entries file slot idx
  others : ∀ other, other ≠ slot → next.fdHandle other = driver.fdHandle other

theorem fwfsRead_cases (opened : Open driver entries file slot idx) (size : U32) {answers : Answers}
    (serves : Serves answers entries) :
    (driver.position slot = (entries idx).data.length ∧ fwfsRead driver file size answers = (driver, none, .ok 0)) ∨
      (driver.position slot ≠ (entries idx).data.length ∧
        (¬ DataAnswered driver entries slot idx size answers ∧
            (∃ bytes, fwfsRead driver file size answers = (driver, bytes, .error .eio)) ∨
          ∃ next bytes count, fwfsRead driver file size answers = (next, bytes, .ok count) ∧
            Advances driver entries file slot idx size count bytes next)) := by
  have inside := opened.inside
  have available := availableSize_toNat opened size
  have read := fwfsRead_held opened.held size answers
  dsimp only at read
  by_cases reached : driver.position slot = (entries idx).data.length
  · rw [if_pos ((atEnd_iff opened).mpr reached)] at read
    exact .inl ⟨reached, read⟩
  · rw [if_neg fun finished => reached ((atEnd_iff opened).mp finished)] at read
    refine .inr ⟨reached, ?_⟩
    have place : (driver.fdHandle slot).offset.toNat = 8 + driver.position slot := by
      have header := opened.behindHeader
      rw [Driver.position]
      omega
    by_cases done : (readBytes answers (driver.fdHandle slot).offset
        (availableSize (driver.fdHandle slot) size) (driver.fdHandle slot).idx).1 = true
    · rw [if_pos done] at read
      have room : driver.position slot + (availableSize (driver.fdHandle slot) size).toNat ≤
          (entries idx).data.length := by omega
      obtain ⟨position, still⟩ := opened.advance room
      have bytes := serves _ _ _ (by rw [opened.entry, place, Entry.bytes_length]; omega) done
      rw [opened.entry, place, entry_slice _ room] at bytes
      refine .inr ⟨_, _, _, read, available, ?_, position, still, fun other different => if_neg different⟩
      rw [opened.entry, bytes]
      rfl
    · rw [if_neg done] at read
      refine .inl ⟨?_, _, read⟩
      rw [DataAnswered, ← place, ← available, BitVec.ofNat_toNat, BitVec.ofNat_toNat, BitVec.setWidth_eq,
        BitVec.setWidth_eq, ← opened.entry]
      exact done

theorem fwfsRead_follows (opened : Open driver entries file slot idx) {size : U32} (some : size ≠ 0)
    {answers : Answers} (serves : Serves answers entries) :
    ReadFollows driver entries file slot idx size answers ∧
      Open (fwfsRead driver file size answers).1 entries file slot idx := by
  have positive : 0 < size.toNat := by bv_omega
  have inside := opened.inside
  rcases fwfsRead_cases opened size serves with
    ⟨reached, read⟩ | ⟨left, ⟨refused, bytes, read⟩ | ⟨next, bytes, count, read, advances⟩⟩
  · exact ⟨.atEnd reached read, by rw [read]; exact opened⟩
  · exact ⟨.failed left refused read, by rw [read]; exact opened⟩
  · have available := advances.available
    have more : count ≠ 0 := by
      intro none
      rw [none] at available
      have nothing : (0 : U32).toNat = 0 := rfl
      omega
    refine ⟨.advanced left more available advances.slice advances.position advances.others read, ?_⟩
    rw [read]
    exact advances.opened

structure ReadCall (φ : Type) where
  file : φ
  size : U32
  answers : Answers

def fileReader : Mealy (Driver φ) (ReadCall φ) (φ × List U8 × Except Errno U32) where
  step driver call :=
    let (driver, ptr, result) := fwfsRead driver call.file call.size call.answers
    (driver, [(call.file, ptr.getD [], result)])

theorem fileReader_step (driver : Driver φ) (call : ReadCall φ) : fileReader.step driver call =
    ((fwfsRead driver call.file call.size call.answers).1,
      [(call.file, (fwfsRead driver call.file call.size call.answers).2.1.getD [],
        (fwfsRead driver call.file call.size call.answers).2.2)]) := rfl

/-- The bytes that the successful reads of a file have delivered, in order. -/
def delivered [DecidableEq φ] (file : φ) (outputs : List (φ × List U8 × Except Errno U32)) : List U8 :=
  outputs.flatMap fun output => if output.1 = file ∧ output.2.2.isOk then output.2.1 else []

variable {files : φ → Prop} {slots : φ → Slot} {idxs : φ → U8}

/-- A set of files that are open in slots of their own. -/
structure OpenFiles (driver : Driver φ) (entries : U8 → Entry) (files : φ → Prop) (slots : φ → Slot) (idxs : φ → U8) :
    Prop where
  opened : ∀ file, files file → Open driver entries file (slots file) (idxs file)
  distinct : ∀ file other, files file → files other → slots file = slots other → file = other

theorem OpenFiles.read (openFiles : OpenFiles driver entries files slots idxs) (member : files file) {size : U32}
    (some : size ≠ 0) {answers : Answers} (serves : Serves answers entries) :
    OpenFiles (fwfsRead driver file size answers).1 entries files slots idxs := by
  obtain ⟨follows, still⟩ := fwfsRead_follows (openFiles.opened file member) some serves
  refine ⟨?_, openFiles.distinct⟩
  intro other otherMember
  by_cases same : slots other = slots file
  · obtain rfl := openFiles.distinct other file otherMember member same
    exact still
  · have before := openFiles.opened other otherMember
    have handle := follows.others (slots other) same
    refine ⟨?_, ?_, ?_, ?_, ?_⟩
    · rw [(fwfsRead_same driver file size answers).privdata]
      exact before.held
    · rw [handle]
      exact before.entry
    · rw [handle]
      exact before.size
    · rw [handle]
      exact before.behindHeader
    · rw [Driver.position, handle]
      exact before.inside

/-- Reads of the files from a state where they are open. -/
structure Reads (files : φ → Prop) (entries : U8 → Entry) (calls : List (ReadCall φ)) : Prop where
  among : ∀ call ∈ calls, files call.file
  some : ∀ call ∈ calls, call.size ≠ 0
  serves : ∀ call ∈ calls, Serves call.answers entries

theorem OpenFiles.run (openFiles : OpenFiles driver entries files slots idxs) {calls : List (ReadCall φ)}
    (reads : Reads files entries calls) : OpenFiles (fileReader.run driver calls).1 entries files slots idxs := by
  induction calls generalizing driver with
  | nil => exact openFiles
  | cons call rest ih =>
    have here := List.mem_cons_self (a := call) (l := rest)
    have next := openFiles.read (reads.among call here) (reads.some call here) (reads.serves call here)
    exact ih next ⟨fun other member => reads.among other (List.mem_cons_of_mem _ member),
      fun other member => reads.some other (List.mem_cons_of_mem _ member),
      fun other member => reads.serves other (List.mem_cons_of_mem _ member)⟩

theorem Reads.front {before rest : List (ReadCall φ)} (reads : Reads files entries (before ++ rest)) :
    Reads files entries before where
  among call member := reads.among call (List.mem_append_left _ member)
  some call member := reads.some call (List.mem_append_left _ member)
  serves call member := reads.serves call (List.mem_append_left _ member)

variable [DecidableEq φ]

/-- What a run of reads delivers. -/
structure Delivers (driver : Driver φ) (entries : U8 → Entry) (files : φ → Prop) (slots : φ → Slot) (idxs : φ → U8)
    (calls : List (ReadCall φ)) : Prop where
  each : ∀ before call rest, calls = before ++ call :: rest →
    ReadFollows (fileReader.run driver before).1 entries call.file (slots call.file) (idxs call.file) call.size
      call.answers
  /-- A file has delivered what lies between its first and its last position. -/
  between : ∀ file, files file →
    (entries (idxs file)).data.take (driver.position (slots file)) ++ delivered file (fileReader.run driver calls).2 =
      (entries (idxs file)).data.take ((fileReader.run driver calls).1.position (slots file))
  /-- Read from the start to the end, it has delivered its data. -/
  whole : ∀ file, files file → driver.position (slots file) = 0 →
    (fileReader.run driver calls).1.position (slots file) = (entries (idxs file)).data.length →
    delivered file (fileReader.run driver calls).2 = (entries (idxs file)).data

/-- The bytes of one read continue those of the reads before it. -/
theorem ReadFollows.continues {size : U32} {answers : Answers}
    (follows : ReadFollows driver entries file slot idx size answers) :
    (entries idx).data.take (driver.position slot) ++
        delivered file [(file, (fwfsRead driver file size answers).2.1.getD [], (fwfsRead driver file size answers).2.2)] =
      (entries idx).data.take ((fwfsRead driver file size answers).1.position slot) := by
  cases result : (fwfsRead driver file size answers).2.2 with
  | error error =>
    obtain ⟨_, still⟩ := follows.error error result
    simp [delivered, Except.isOk, Except.toBool, still]
  | ok count =>
    obtain ⟨_, bytes, position⟩ := follows.ok count result
    rw [position, List.take_add, bytes]
    simp [delivered, Except.isOk, Except.toBool]

/-- A read of one file delivers nothing of the others. -/
theorem ReadFollows.elsewhere {size : U32} {answers : Answers}
    (follows : ReadFollows driver entries file slot idx size answers) {other : φ} (different : other ≠ file)
    {place : Slot} (apart : place ≠ slot) (bytes : List U8) (result : Except Errno U32) :
    delivered other [(file, bytes, result)] = [] ∧
      (fwfsRead driver file size answers).1.position place = driver.position place := by
  constructor
  · simp [delivered, different.symm]
  · rw [Driver.position, follows.others place apart, Driver.position]

theorem delivered_between (openFiles : OpenFiles driver entries files slots idxs) {calls : List (ReadCall φ)}
    (reads : Reads files entries calls) (member : files file) :
    (entries (idxs file)).data.take (driver.position (slots file)) ++ delivered file (fileReader.run driver calls).2 =
      (entries (idxs file)).data.take ((fileReader.run driver calls).1.position (slots file)) := by
  induction calls using List.reverseRecOn with
  | nil => exact List.append_nil _
  | append_singleton before call ih =>
    have last : call ∈ before ++ [call] := List.mem_append_right _ (List.mem_singleton_self call)
    have now := openFiles.run reads.front
    obtain ⟨follows, _⟩ := fwfsRead_follows (now.opened call.file (reads.among call last)) (reads.some call last)
      (reads.serves call last)
    have split (first last : List (φ × List U8 × Except Errno U32)) :
        delivered file (first ++ last) = delivered file first ++ delivered file last := List.flatMap_append
    rw [Mealy.run_concat, split, ← List.append_assoc, ih reads.front, fileReader_step]
    by_cases same : file = call.file
    · subst same
      exact follows.continues
    · have apart : slots file ≠ slots call.file := fun equal =>
        same (openFiles.distinct file call.file member (reads.among call last) equal)
      obtain ⟨silent, still⟩ := follows.elsewhere same apart
        ((fwfsRead (fileReader.run driver before).1 call.file call.size call.answers).2.1.getD [])
        (fwfsRead (fileReader.run driver before).1 call.file call.size call.answers).2.2
      rw [silent, List.append_nil, still]

/-- Interleaved reads of open files deliver the data of each, whatever the
chunks. -/
theorem interleaved_reads_deliver (openFiles : OpenFiles driver entries files slots idxs) {calls : List (ReadCall φ)}
    (reads : Reads files entries calls) : Delivers driver entries files slots idxs calls where
  each := by
    rintro before call rest rfl
    have here : call ∈ before ++ call :: rest := List.mem_append_right _ List.mem_cons_self
    have now := openFiles.run reads.front
    exact (fwfsRead_follows (now.opened call.file (reads.among call here)) (reads.some call here)
      (reads.serves call here)).1
  between file member := delivered_between openFiles reads member
  whole file member start finish := by
    have between := delivered_between openFiles reads member
    rw [start, finish, List.take_zero, List.nil_append, List.take_length] at between
    exact between

def servedBy (entries : U8 → Entry) : Answers
  | .appsRead offset size idx _, _ =>
    let byte (i : Nat) := (entries idx).bytes.getD (offset.toNat + i) 0
    ⟨modchipCmdResultOk, byte, crc32 ((List.range size.toNat).map byte)⟩
  | _, _ => ⟨bootRomAddrValue, fun _ => 0, 0⟩

theorem servedBy_serves (entries : U8 → Entry) : Serves (servedBy entries) entries := by
  intro offset size idx inside _
  have slice : (List.range size.toNat).map (fun i => (entries idx).bytes.getD (offset.toNat + i) 0) =
      ((entries idx).bytes.drop offset.toNat).take size.toNat := by
    apply List.ext_getElem
    · rw [List.length_map, List.length_range, List.length_take, List.length_drop]
      omega
    · intro i low high
      rw [List.length_map, List.length_range] at low
      rw [List.getElem_map, List.getElem_range, List.getElem_take, List.getElem_drop, List.getD_eq_getElem?_getD,
        List.getElem?_eq_getElem (by omega), Option.getD_some]
  have read : (servedBy entries (.appsRead offset size idx true) 0).read size true =
      (.data (((entries idx).bytes.drop offset.toNat).take size.toNat),
        some (((entries idx).bytes.drop offset.toNat).take size.toNat)) := by
    simp only [servedBy, Answer.read, slice]
    rfl
  simp only [readBytes, modchipAppsReadWithRetry, modchipCmdRetries, withRetry, read]
  rfl

theorem interleaved_reads_deliver_two :
    let entries (idx : U8) : Entry := ⟨0, [idx, 1, 2, 3, 4], [0, 0, 0, 0], by decide, (by decide : 17 < 2 ^ 32)⟩
    let slots (file : Bool) : Slot := if file then ⟨0, by decide⟩ else ⟨1, by decide⟩
    let idxs (file : Bool) : U8 := if file then 7 else 9
    let driver : Driver Bool :=
      ⟨fun slot => ⟨fwfsModeDataChar, idxs (slot = slots true), 5, 0, 8⟩, fun file => some (slots file)⟩
    let calls : List (ReadCall Bool) :=
      [⟨true, 3, servedBy entries⟩, ⟨false, 5, servedBy entries⟩, ⟨true, 3, servedBy entries⟩]
    (fileReader.run driver calls).2 = [(true, [7, 1, 2], .ok 3), (false, [9, 1, 2, 3, 4], .ok 5), (true, [3, 4], .ok 2)] ∧
      Delivers driver entries (fun _ => True) slots idxs calls := by
  intro entries slots idxs driver calls
  refine ⟨by decide +kernel, ?_⟩
  apply interleaved_reads_deliver
  · refine ⟨?_, by decide⟩
    intro file _
    cases file
    · exact ⟨rfl, rfl, rfl, by decide, by decide⟩
    · exact ⟨rfl, rfl, rfl, by decide, by decide⟩
  · refine ⟨fun _ _ => trivial, ?_, ?_⟩
    · intro call member
      rcases List.mem_cons.mp member with rfl | member
      · exact (by decide : (3 : U32) ≠ 0)
      rcases List.mem_cons.mp member with rfl | member
      · exact (by decide : (5 : U32) ≠ 0)
      obtain rfl := List.mem_singleton.mp member
      exact (by decide : (3 : U32) ≠ 0)
    · intro call member
      have served := servedBy_serves entries
      rcases List.mem_cons.mp member with rfl | member
      · exact served
      rcases List.mem_cons.mp member with rfl | member
      · exact served
      obtain rfl := List.mem_singleton.mp member
      exact served

/-- The first word of an entry is the length of its data. -/
theorem entry_word (entry : Entry) :
    wordOf ((entry.bytes.drop modchipAppsSizeOffset.toNat).take (8 : U32).toNat) 0 = BitVec.ofNat 32 entry.data.length := by
  have front (v attr : U32) (rest : List U8) : (bytes32 v ++ bytes32 attr ++ rest).take 8 = bytes32 v ++ bytes32 attr :=
    List.take_left' rfl
  have word (v attr : U32) : wordOf (bytes32 v ++ bytes32 attr) 0 = v := by
    rw [wordOf, bytes32, bytes32]
    exact le32_byteAt v
  have start : modchipAppsSizeOffset.toNat = 0 := rfl
  have count : (8 : U32).toNat = 8 := rfl
  rw [start, count, List.drop_zero, Entry.bytes, List.append_assoc, front, word]

theorem readSizeAttr_serves {answers : Answers} (serves : Serves answers entries) (fd : File)
    (done : (readSizeAttr answers idx fd).1 = true) :
    (readSizeAttr answers idx fd).2.size.toNat = (entries idx).data.length ∧
      (readSizeAttr answers idx fd).2.idx = fd.idx := by
  have related : (readSizeAttr answers idx fd).1 = (readBytes answers modchipAppsSizeOffset 8 idx).1 ∧
      ((readSizeAttr answers idx fd).2.idx = fd.idx ∧ ∀ bytes,
        (readBytes answers modchipAppsSizeOffset 8 idx).2 = some bytes →
          (readSizeAttr answers idx fd).2.size = wordOf bytes 0) := by
    refine @withRetry_related File (Option (List U8))
      (fun other filled => other.idx = fd.idx ∧ ∀ bytes, filled = some bytes → other.size = wordOf bytes 0) _ _ ?_ _ _
      _ _ ⟨rfl, nofun⟩
    intro attemp other filled before
    refine ⟨rfl, ?_⟩
    dsimp only
    cases ((answers (.appsRead modchipAppsSizeOffset 8 idx true) attemp).read 8 true).2 with
    | none => exact before
    | some bytes => exact ⟨before.1, fun _ same => Option.some.inj same ▸ rfl⟩
  obtain ⟨same, kept, size⟩ := related
  refine ⟨?_, kept⟩
  have fits := (entries idx).fits
  have inside : modchipAppsSizeOffset.toNat + (8 : U32).toNat ≤ (entries idx).bytes.length := by
    rw [Entry.bytes_length]
    exact Nat.le_add_right_of_le (Nat.le_add_right 8 _)
  rw [size _ (serves _ _ _ inside (same ▸ done)), entry_word, toNat_ofNat_of_lt (by omega)]

theorem fwfsOpen_open {name : List U8} {answers : Answers} (serves : Serves answers entries)
    (data : getModeFromName name = fwfsModeDataChar) (opened : (fwfsOpen driver file name answers).2 = .ok ()) :
    let next := (fwfsOpen driver file name answers).1
    ∃ slot, (driver.fdHandle slot).size = 0 ∧
      (Open next entries file slot (getIdxFromName name) ∧ next.position slot = 0) ∧
      (∀ other, other ≠ slot → next.fdHandle other = driver.fdHandle other) ∧
      ∀ other, other ≠ file → next.privdata other = driver.privdata other := by
  intro next
  cases found : findFreeFileHandle driver.fdHandle with
  | none =>
    simp only [fwfsOpen, found] at opened
    cases opened
  | some slot =>
    refine ⟨slot, free_size found, ?_⟩
    simp only [next, fwfsOpen, found, data, ite_true] at opened ⊢
    split at opened
    · cases opened
    next done =>
      obtain ⟨size, kept⟩ := readSizeAttr_serves serves _ (Decidable.not_not.mp done)
      rw [if_neg done]
      exact ⟨Open.fresh (if_pos rfl) (if_pos rfl) kept size, fun other different => if_neg different,
        fun other different => if_neg different⟩

theorem OpenFiles.add (openFiles : OpenFiles driver entries files slots idxs)
    (loaded : ∀ file, files file → (entries (idxs file)).data ≠ []) (fresh : ¬ files file) {name : List U8}
    {answers : Answers} (serves : Serves answers entries) (data : getModeFromName name = fwfsModeDataChar)
    (opened : (fwfsOpen driver file name answers).2 = .ok ()) :
    ∃ slot, OpenFiles (fwfsOpen driver file name answers).1 entries (fun other => other = file ∨ files other)
      (fun other => if other = file then slot else slots other)
      (fun other => if other = file then getIdxFromName name else idxs other) := by
  obtain ⟨slot, free, ⟨now, _⟩, handles, objects⟩ := fwfsOpen_open serves data opened
  have apart {other : φ} (member : files other) : slots other ≠ slot := by
    rintro rfl
    have length := (openFiles.opened other member).size
    rw [free] at length
    exact loaded other member (List.length_eq_zero_iff.mp length.symm)
  have different {other : φ} (member : files other) : other ≠ file := by
    rintro rfl
    exact fresh member
  refine ⟨slot, ?_, ?_⟩
  · intro other member
    rcases member with rfl | member
    · rw [if_pos rfl, if_pos rfl]
      exact now
    · rw [if_neg (different member), if_neg (different member)]
      have before := openFiles.opened other member
      have handle := handles (slots other) (apart member)
      refine ⟨(objects other (different member)).trans before.held, ?_, ?_, ?_, ?_⟩
      · rw [handle]
        exact before.entry
      · rw [handle]
        exact before.size
      · rw [handle]
        exact before.behindHeader
      · rw [Driver.position, handle]
        exact before.inside
  · intro other another member anotherMember same
    rcases member with rfl | member <;> rcases anotherMember with rfl | anotherMember
    · rfl
    · rw [if_pos rfl, if_neg (different anotherMember)] at same
      exact False.elim (apart anotherMember same.symm)
    · rw [if_pos rfl, if_neg (different member)] at same
      exact False.elim (apart member same)
    · rw [if_neg (different member), if_neg (different anotherMember)] at same
      exact openFiles.distinct other another member anotherMember same

end Fruitchip.Fwfs
