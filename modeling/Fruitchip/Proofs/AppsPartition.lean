import Fruitchip.Apps
import Fruitchip.Cmd
import Fruitchip.Library.Blocks

/-! The image that the builder writes, seen by the readers of the firmware and
by the menu. -/

namespace Fruitchip.AppsBuilder
open Embedded

private theorem lut_toNat (index : Nat) :
    crc32Lut.getD index 0 = (Fruitchip.crc32Lut.getD index 0).toNat := by
  have table : crc32Lut = Fruitchip.crc32Lut.map BitVec.toNat := rfl
  rw [table, List.getD_eq_getElem?_getD, List.getD_eq_getElem?_getD, List.getElem?_map]
  cases Fruitchip.crc32Lut[index]? <;> rfl

private theorem half_toNat (crc : U32) : crc32Half crc.toNat = (crc32Nibble crc).toNat := by
  have mask : (0xFFFFFFFF : Nat) = 2 ^ 32 - 1 := rfl
  rw [crc32Half, crc32Nibble, lut_toNat, mask, Nat.and_two_pow_sub_one_eq_mod, Nat.xor_mod_two_pow,
    BitVec.toNat_xor, BitVec.toNat_shiftLeft, BitVec.toNat_ushiftRight, Nat.mod_eq_of_lt (BitVec.isLt _)]

private theorem step_toNat (crc : U32) (byte : U8) : crc32Step crc.toNat byte = (crc32Byte crc byte).toNat := by
  have shifted : byte.toNat <<< 24 = (byte.setWidth 32 <<< 24 : U32).toNat := by
    have small := byte.isLt
    simp only [BitVec.toNat_shiftLeft, BitVec.toNat_setWidth, Nat.shiftLeft_eq]
    omega
  rw [crc32Step, crc32Byte, shifted, ← BitVec.toNat_xor, half_toNat, half_toNat]

/-- The builder's checksum is the one of `crc32.h`. -/
theorem crc32_toNat (data : List U8) : crc32 data = (Fruitchip.crc32 data).toNat := by
  have steps : ∀ crc : U32, data.foldl crc32Step crc.toNat = (data.foldl crc32Byte crc).toNat := by
    induction data with
    | nil => exact fun _ => rfl
    | cons byte data ih =>
      intro crc
      rw [List.foldl_cons, List.foldl_cons, step_toNat, ih]
  exact steps 0xFFFFFFFF

theorem packI_some {n : Nat} (fits : n < 2 ^ 32) : packI n = some (bytes32 (BitVec.ofNat 32 n)) := if_pos fits

theorem packB_some {n : Nat} (fits : n < 256) : packB n = some [BitVec.ofNat 8 n] := if_pos fits

theorem packII_some {first second : Nat} (one : first < 2 ^ 32) (two : second < 2 ^ 32) :
    packII first second = some (bytes32 (BitVec.ofNat 32 first) ++ bytes32 (BitVec.ofNat 32 second)) := by
  rw [packII, packI_some one, packI_some two]
  rfl

private theorem mapM_some {α β : Type} {f : α → Option β} {g : α → β} {items : List α}
    (each : ∀ item ∈ items, f item = some (g item)) : items.mapM f = some (items.map g) := by
  induction items with
  | nil => rfl
  | cons item items ih =>
    rw [List.mapM_cons, each item List.mem_cons_self,
      ih fun other member => each other (List.mem_cons_of_mem _ member)]
    rfl

def ascii (name : List Char) : List U8 := name.map fun c => BitVec.ofNat 8 c.toNat

theorem encodeAscii_some {name : List Char} (small : ∀ c ∈ name, c.toNat < 128) :
    encodeAscii name = some (ascii name) :=
  mapM_some fun c member => if_pos (small c member)

/-- The index of apps: their number, then each name behind its length. -/
def indexData (apps : List App) : List U8 :=
  BitVec.ofNat 8 apps.length :: apps.flatMap fun app => BitVec.ofNat 8 app.name.length :: ascii app.name

/-- An entry: length, attributes, data, checksum and padding. -/
def entryBytes (data : List U8) (attrs : Nat) : List U8 :=
  bytes32 (BitVec.ofNat 32 data.length) ++ bytes32 (BitVec.ofNat 32 attrs) ++ data ++
    bytes32 (Fruitchip.crc32 data) ++
    List.replicate (calculatePaddingForLen (12 + data.length)) sectorEraseValue

def entriesOf (apps : List App) : List (List U8) :=
  entryBytes (indexData apps) 0 :: apps.map fun app => entryBytes app.data app.attrs

def tableOf (start : Nat) : List (List U8) → List U8
  | [] => []
  | entry :: entries =>
    bytes32 (BitVec.ofNat 32 start) ++ bytes32 (BitVec.ofNat 32 entry.length) ++
      tableOf (start + entry.length) entries

/-- Length of the header and the lookup table of an image with `count` entries. -/
def headLength (count : Nat) : Nat := 16 + 8 * count

/-- Where the entries begin. -/
def startOf (count : Nat) : Nat := headLength count + calculatePaddingForLen (headLength count)

def headerOf (count : Nat) : List U8 :=
  appsPartitionMagic1 ++ (bytes32 appsPartitionMagic2 ++ bytes32 appsPartitionVersion) ++
    bytes32 (BitVec.ofNat 32 count)

def imageOf (entries : List (List U8)) : List U8 :=
  headerOf entries.length ++ tableOf (startOf entries.length) entries ++
    List.replicate (calculatePaddingForLen (headLength entries.length)) sectorEraseValue ++
    entries.flatten

/-- The size of the image of a list of apps. -/
def imageSize (apps : List App) : Nat :=
  startOf (entriesOf apps).length + (entriesOf apps).flatten.length

/-- What `main` accepts: at most 255 apps with short ASCII names, 32-bit
attributes, and an image below 4 GiB. -/
structure Packable (apps : List App) : Prop where
  count : apps.length ≤ 255
  ascii : ∀ app ∈ apps, ∀ c ∈ app.name, c.toNat < 128
  names : ∀ app ∈ apps, app.name.length ≤ 255
  attrs : ∀ app ∈ apps, app.attrs < 2 ^ 32
  size : imageSize apps < 2 ^ 32

private theorem padding_facts (n : Nat) :
    (n + calculatePaddingForLen n) % sectorSize = 0 ∧ calculatePaddingForLen n < sectorSize := by
  unfold calculatePaddingForLen sectorSize
  split <;> omega

theorem entryBytes_length (data : List U8) (attrs : Nat) :
    (entryBytes data attrs).length = 12 + data.length + calculatePaddingForLen (12 + data.length) := by
  simp only [entryBytes, List.length_append, bytes32_length, List.length_replicate]
  omega

private theorem headerOf_length (count : Nat) : (headerOf count).length = 16 := rfl

private theorem tableOf_length (start : Nat) (entries : List (List U8)) :
    (tableOf start entries).length = 8 * entries.length := by
  induction entries generalizing start with
  | nil => rfl
  | cons entry entries ih =>
    simp only [tableOf, List.length_append, bytes32_length, ih, List.length_cons]
    omega

private theorem packEntry_some {data : List U8} {attrs : Nat} (length : data.length < 2 ^ 32)
    (flags : attrs < 2 ^ 32) : packEntry data attrs = some (entryBytes data attrs) := by
  have crc : crc32 data < 2 ^ 32 := by
    rw [crc32_toNat]
    exact BitVec.isLt _
  have word : BitVec.ofNat 32 (crc32 data) = Fruitchip.crc32 data := by
    rw [crc32_toNat, BitVec.ofNat_toNat, BitVec.setWidth_eq]
  rw [packEntry, packII_some length flags, packI_some crc, word]
  show some (_ ++ List.replicate (calculatePaddingForLen _) _) = _
  rw [entryBytes]
  congr 4
  simp only [List.length_append, bytes32_length]
  omega

private theorem lookupTable_some {start : Nat} {entries : List (List U8)}
    (fits : start + entries.flatten.length < 2 ^ 32) :
    lookupTable start entries = some (tableOf start entries) := by
  induction entries generalizing start with
  | nil => rfl
  | cons entry entries ih =>
    rw [List.flatten_cons, List.length_append] at fits
    have row := packII_some (show start < 2 ^ 32 by omega) (show entry.length < 2 ^ 32 by omega)
    have rows := ih (show start + entry.length + entries.flatten.length < 2 ^ 32 by omega)
    rw [lookupTable, row, rows]
    rfl

private theorem appNames_some {apps : List App} (packable : Packable apps) :
    appNames apps = some (indexData apps) := by
  have each : ∀ app ∈ apps, packName app.name =
      some (BitVec.ofNat 8 app.name.length :: ascii app.name) := by
    intro app member
    have short := packable.names app member
    have length : (ascii app.name).length = app.name.length := List.length_map _
    rw [packName, encodeAscii_some (packable.ascii app member)]
    show (packB (ascii app.name).length).bind _ = _
    rw [length, packB_some (by omega)]
    rfl
  have count := packable.count
  rw [appNames, mapM_some each, packB_some (by omega)]
  show some (_ :: (apps.map _).flatten) = _
  rw [← List.flatMap_def]
  rfl

theorem block_le_flatten {block : List U8} {blocks : List (List U8)} (member : block ∈ blocks) :
    block.length ≤ blocks.flatten.length := by
  obtain ⟨front, back, rfl⟩ := List.append_of_mem member
  rw [List.flatten_append, List.flatten_cons, List.length_append, List.length_append]
  omega

private theorem data_small {apps : List App} (packable : Packable apps) {data : List U8} {attrs : Nat}
    (member : entryBytes data attrs ∈ entriesOf apps) : data.length < 2 ^ 32 := by
  have size := packable.size
  have part := block_le_flatten member
  rw [entryBytes_length] at part
  unfold imageSize at size
  omega

private theorem packEntries_some {apps : List App} (packable : Packable apps) :
    packEntries apps = some (entriesOf apps) := by
  have first : packEntry (indexData apps) 0 = some (entryBytes (indexData apps) 0) :=
    packEntry_some (data_small packable List.mem_cons_self) (by decide)
  have each : ∀ app ∈ apps, packEntry app.data app.attrs = some (entryBytes app.data app.attrs) := by
    intro app member
    have entry : entryBytes app.data app.attrs ∈ entriesOf apps :=
      List.mem_cons_of_mem _ (List.mem_map.mpr ⟨app, member, rfl⟩)
    exact packEntry_some (data_small packable entry) (packable.attrs app member)
  simp only [packEntries, appNames_some packable, first, mapM_some each, Option.bind_eq_bind,
    Option.bind_some, Option.pure_def]
  rfl

theorem main_some {apps : List App} (packable : Packable apps) :
    main apps = some (imageOf (entriesOf apps)) := by
  have size := packable.size
  unfold imageSize at size
  have count : (entriesOf apps).length < 2 ^ 32 := by
    have few := packable.count
    simp only [entriesOf, List.length_cons, List.length_map]
    omega
  have hdr : header (entriesOf apps).length = some (headerOf (entriesOf apps).length) := by
    rw [header, packII_some (by decide) (by decide), packI_some count]
    rfl
  have table := lookupTable_some size
  have headLen : (headerOf (entriesOf apps).length).length + 2 * 4 * (entriesOf apps).length =
      headLength (entriesOf apps).length := rfl
  simp only [main, packEntries_some packable, hdr, headLen, Option.bind_eq_bind, Option.bind_some]
  rw [← startOf, table]
  rfl

/-- The image lies where the firmware looks for it. -/
def Placed (flash : Flash) (image : List U8) : Prop :=
  xipBytes flash appsPartitionAddr image.length = image

variable {flash : Flash} {image : List U8}

private theorem placed_byte (placed : Placed flash image) {index : Nat} (inside : index < image.length) :
    xipByte flash (appsPartitionAddr + BitVec.ofNat 32 index) = image[index] := by
  have same := congrArg (·[index]?) placed
  simp only [xipBytes, List.getElem?_map, List.getElem?_range inside, Option.map_some,
    List.getElem?_eq_getElem inside, Option.some.injEq] at same
  exact same

private theorem read_at (placed : Placed flash image) {index : Nat} {data rest : List U8}
    (found : image.drop index = data ++ rest) :
    xipBytes flash (appsPartitionAddr + BitVec.ofNat 32 index) data.length = data := by
  apply List.ext_getElem (by simp [xipBytes])
  intro position _ below
  have whole : (image.drop index).length = data.length + rest.length := by
    rw [found, List.length_append]
  rw [List.length_drop] at whole
  have inside : index + position < image.length := by omega
  have here : image[index + position] = data[position] := by
    have element : (image.drop index)[position]? = some data[position] := by
      rw [found, List.getElem?_append_left below, List.getElem?_eq_getElem below]
    rw [List.getElem?_drop, List.getElem?_eq_getElem inside] at element
    exact Option.some.inj element
  simp only [xipBytes, List.getElem_map, List.getElem_range]
  rw [BitVec.add_assoc, ← BitVec.ofNat_add, placed_byte placed inside, here]

private theorem word_at (placed : Placed flash image) {index : Nat} {v : U32} {rest : List U8}
    (found : image.drop index = bytes32 v ++ rest) :
    xipWord flash (appsPartitionAddr + BitVec.ofNat 32 index) = v := by
  have bytes : [xipByte flash (appsPartitionAddr + BitVec.ofNat 32 index + 0),
      xipByte flash (appsPartitionAddr + BitVec.ofNat 32 index + 1),
      xipByte flash (appsPartitionAddr + BitVec.ofNat 32 index + 2),
      xipByte flash (appsPartitionAddr + BitVec.ofNat 32 index + 3)] =
      [byteAt v 0, byteAt v 1, byteAt v 2, byteAt v 3] := read_at placed found
  simp only [List.cons.injEq, and_true] at bytes
  obtain ⟨b0, b1, b2, b3⟩ := bytes
  rw [show appsPartitionAddr + BitVec.ofNat 32 index + 0 = appsPartitionAddr + BitVec.ofNat 32 index
    from BitVec.add_zero _] at b0
  rw [xipWord, b0, b1, b2, b3, le32_byteAt]

variable {entries : List (List U8)}

private theorem drop_table (start index : Nat) (inside : index < entries.length) :
    ∃ rest, (tableOf start entries).drop (8 * index) =
      bytes32 (BitVec.ofNat 32 (start + Blocks.offset entries index)) ++
        (bytes32 (BitVec.ofNat 32 entries[index].length) ++ rest) := by
  induction entries generalizing start index with
  | nil => exact absurd inside (Nat.not_lt_zero _)
  | cons entry entries ih =>
    cases index with
    | zero =>
      refine ⟨tableOf (start + entry.length) entries, ?_⟩
      rw [Nat.mul_zero, List.drop_zero, tableOf, List.append_assoc]
      rfl
    | succ index =>
      obtain ⟨rest, found⟩ := ih (start + entry.length) index (by simpa using inside)
      refine ⟨rest, ?_⟩
      have row : 8 * (index + 1) = (bytes32 (BitVec.ofNat 32 start) ++
          bytes32 (BitVec.ofNat 32 entry.length)).length + 8 * index := by
        simp only [List.length_append, bytes32_length]
        omega
      rw [tableOf, row, List.drop_length_add_append, found, Blocks.offset_cons, Nat.add_assoc]
      rfl

theorem imageOf_length : (imageOf entries).length = startOf entries.length + entries.flatten.length := by
  simp only [imageOf, List.length_append, headerOf_length, tableOf_length, List.length_replicate, startOf,
    headLength]

private theorem drop_row {index : Nat} (inside : index < entries.length) :
    ∃ rest, (imageOf entries).drop (16 + 8 * index) =
      bytes32 (BitVec.ofNat 32 (startOf entries.length + Blocks.offset entries index)) ++
        (bytes32 (BitVec.ofNat 32 entries[index].length) ++ rest) := by
  obtain ⟨rest, found⟩ := drop_table (startOf entries.length) index inside
  have room : 8 * index ≤ (tableOf (startOf entries.length) entries).length := by
    rw [tableOf_length]
    omega
  refine ⟨rest ++ (List.replicate (calculatePaddingForLen (headLength entries.length)) sectorEraseValue ++
    entries.flatten), ?_⟩
  rw [imageOf, List.append_assoc, List.append_assoc]
  rw [show 16 = (headerOf entries.length).length from rfl, List.drop_length_add_append,
    List.drop_append_of_le_length room, found, List.append_assoc, List.append_assoc]

private theorem drop_entry {index : Nat} (inside : index < entries.length) :
    ∃ rest, (imageOf entries).drop (startOf entries.length + Blocks.offset entries index) =
      entries[index] ++ rest := by
  refine ⟨(entries.drop (index + 1)).flatten, ?_⟩
  have front : (headerOf entries.length ++ tableOf (startOf entries.length) entries ++
      List.replicate (calculatePaddingForLen (headLength entries.length)) sectorEraseValue).length =
      startOf entries.length := by
    simp only [List.length_append, headerOf_length, tableOf_length, List.length_replicate, startOf, headLength]
  have place := congrArg (· + Blocks.offset entries index) front
  rw [imageOf, ← place, List.drop_length_add_append, Blocks.drop_offset inside]

private theorem table_addr (index column : Nat) :
    appsPartitionAddr + BitVec.ofNat 32 column + BitVec.ofNat 32 index * 2 * 4 =
      appsPartitionAddr + BitVec.ofNat 32 (column + 8 * index) := by
  apply BitVec.eq_of_toNat_eq
  have two : (2 : U32).toNat = 2 := rfl
  have four : (4 : U32).toNat = 4 := rfl
  simp only [BitVec.toNat_add, BitVec.toNat_mul, BitVec.toNat_ofNat, two, four]
  omega

private theorem header_word (placed : Placed flash (imageOf entries)) {index : Nat} {v : U32} {rest : List U8}
    (found : (headerOf entries.length).drop index = bytes32 v ++ rest) :
    xipWord flash (appsPartitionAddr + BitVec.ofNat 32 index) = v := by
  have room : index ≤ (headerOf entries.length).length := by
    rcases Nat.lt_or_ge (headerOf entries.length).length index with outside | inside
    · rw [List.drop_of_length_le (Nat.le_of_lt outside)] at found
      cases found
    · exact inside
  have whole : (imageOf entries).drop index = bytes32 v ++ (rest ++
      (tableOf (startOf entries.length) entries ++
        (List.replicate (calculatePaddingForLen (headLength entries.length)) sectorEraseValue ++
          entries.flatten))) := by
    rw [imageOf, List.append_assoc, List.append_assoc, List.drop_append_of_le_length room, found,
      List.append_assoc]
  exact word_at placed whole

theorem detect_image (placed : Placed flash (imageOf entries)) : appsPartitionDetect flash = true := by
  have magic1 : xipBytes flash appsPartitionAddr 4 = appsPartitionMagic1 := by
    have found : (imageOf entries).drop 0 = appsPartitionMagic1 ++ (imageOf entries).drop 4 := rfl
    have bytes := read_at placed found
    rwa [show appsPartitionAddr + BitVec.ofNat 32 0 = appsPartitionAddr from BitVec.add_zero _] at bytes
  have magic2 : xipWord flash (appsPartitionAddr + 0x4) = appsPartitionMagic2 := by
    have found : (headerOf entries.length).drop 4 =
        bytes32 appsPartitionMagic2 ++ (headerOf entries.length).drop 8 := rfl
    exact header_word placed found
  have version : xipWord flash (appsPartitionAddr + 0x8) = appsPartitionVersion := by
    have found : (headerOf entries.length).drop 8 =
        bytes32 appsPartitionVersion ++ (headerOf entries.length).drop 12 := rfl
    exact header_word placed found
  simp only [appsPartitionDetect, magic1, magic2, version, not_true, ite_false]

theorem entries_count (placed : Placed flash (imageOf entries)) :
    appsPartitionEntriesCount flash = BitVec.ofNat 32 entries.length := by
  have found : (headerOf entries.length).drop 12 = bytes32 (BitVec.ofNat 32 entries.length) ++ [] :=
    (List.append_nil _).symm
  exact header_word placed found

theorem entry_addr (placed : Placed flash (imageOf entries)) {index : Nat} (inside : index < entries.length) :
    appsPartitionEntryAddr flash (BitVec.ofNat 32 index) =
      appsPartitionAddr + BitVec.ofNat 32 (startOf entries.length + Blocks.offset entries index) := by
  obtain ⟨rest, row⟩ := drop_row inside
  have word := word_at placed row
  rw [← table_addr] at word
  rw [appsPartitionEntryAddr]
  exact congrArg (appsPartitionAddr + ·) word

theorem entry_length (placed : Placed flash (imageOf entries)) {index : Nat} (inside : index < entries.length) :
    appsPartitionEntryLength flash (BitVec.ofNat 32 index) = BitVec.ofNat 32 entries[index].length := by
  obtain ⟨rest, row⟩ := drop_row inside
  have next : (imageOf entries).drop (20 + 8 * index) =
      bytes32 (BitVec.ofNat 32 entries[index].length) ++ rest := by
    have place : 20 + 8 * index = 16 + 8 * index + 4 := by omega
    rw [place, ← List.drop_drop, row]
    exact List.drop_left' (bytes32_length _)
  have word := word_at placed next
  rw [← table_addr] at word
  exact word

theorem entry_bytes (placed : Placed flash (imageOf entries)) {index : Nat} (inside : index < entries.length) :
    xipBytes flash (appsPartitionEntryAddr flash (BitVec.ofNat 32 index)) entries[index].length =
      entries[index] := by
  obtain ⟨rest, found⟩ := drop_entry inside
  rw [entry_addr placed inside, read_at placed found]

theorem populate_names {α : Type} (name : α → List U8) (items : List α) (rest : List U8) {appsCount idx : U8}
    (left : idx.toNat + items.length = appsCount.toNat) (short : ∀ item ∈ items, (name item).length ≤ 255) :
    populateLoop appsCount idx ((items.flatMap fun item => BitVec.ofNat 8 (name item).length :: name item) ++ rest) =
      (items.zipIdx (idx.toNat + 1)).map fun (item, appIdx) => (name item, BitVec.ofNat 8 appIdx) := by
  induction items generalizing idx with
  | nil =>
    have done : ¬ idx < appsCount := by
      rw [BitVec.lt_def]
      simp at left
      omega
    rw [populateLoop, dif_neg done]
    rfl
  | cons item items ih =>
    have small := appsCount.isLt
    rw [List.length_cons] at left
    have more : idx < appsCount := by
      rw [BitVec.lt_def]
      omega
    have next : (idx + 1).toNat = idx.toNat + 1 := by
      have one : (1 : U8).toNat = 1 := rfl
      rw [BitVec.toNat_add, one]
      omega
    have length : (BitVec.ofNat 8 (name item).length).toNat = (name item).length := by
      have fits := short item List.mem_cons_self
      exact toNat_ofNat_of_lt (by omega)
    have others := ih (show (idx + 1).toNat + items.length = appsCount.toNat by omega)
      fun other member => short other (List.mem_cons_of_mem _ member)
    rw [populateLoop, dif_pos more, List.flatMap_cons]
    simp only [List.cons_append, List.append_assoc, List.headD_cons, List.drop_succ_cons, List.drop_zero, length,
      List.take_left, List.drop_left, others, List.zipIdx_cons, List.map_cons, next]
    congr 2

/-- Offset of entry `index` from the base of the partition, as the firmware computes it. -/
def entryOffset (flash : Flash) (index : Nat) : Nat :=
  (appsPartitionEntryAddr flash (BitVec.ofNat 32 index) - appsPartitionAddr).toNat

def entryLength (flash : Flash) (index : Nat) : Nat :=
  (appsPartitionEntryLength flash (BitVec.ofNat 32 index)).toNat

/-- What the readers find in the image of a list of apps. Entry 0 is the index. -/
structure Agrees (apps : List App) (image : List U8) (flash : Flash) : Prop where
  detected : appsPartitionDetect flash = true
  count : (appsPartitionEntriesCount flash).toNat = apps.length + 1
  aligned : ∀ index ≤ apps.length, entryOffset flash index % 4096 = 0
  /-- Entry 0 follows the header and the lookup table, padded to a sector. -/
  begins : entryOffset flash 0 = (16 + 8 * (apps.length + 1) + 4095) / 4096 * 4096
  /-- The entries begin behind the header and the lookup table. -/
  behind : ∀ index ≤ apps.length, 16 + 8 * (apps.length + 1) ≤ entryOffset flash index
  disjoint : ∀ first last, first < last → last ≤ apps.length →
    entryOffset flash first + entryLength flash first ≤ entryOffset flash last
  /-- Behind the header, the lookup table and their padding, every byte of the
  image lies in an entry, and the entries end where it ends. -/
  tiled : ∀ position, entryOffset flash 0 ≤ position → position < image.length →
    ∃ index ≤ apps.length, entryOffset flash index ≤ position ∧
      position < entryOffset flash index + entryLength flash index
  within : ∀ index ≤ apps.length, entryOffset flash index + entryLength flash index ≤ image.length
  entries : ∀ index (inside : index < apps.length), ∃ padding, padding < 4096 ∧
    xipBytes flash (appsPartitionEntryAddr flash (BitVec.ofNat 32 (index + 1))) (entryLength flash (index + 1)) =
      bytes32 (BitVec.ofNat 32 apps[index].data.length) ++ bytes32 (BitVec.ofNat 32 apps[index].attrs) ++
        apps[index].data ++ bytes32 (Fruitchip.crc32 apps[index].data) ++ List.replicate padding 0xFF
  /-- The menu reads the data of entry 0 by its length word. -/
  names : appsListPopulate (xipBytes flash (appsPartitionEntryAddr flash 0 + 8)
      (xipWord flash (appsPartitionEntryAddr flash 0)).toNat) =
    (apps.zipIdx 1).map fun (app, appIdx) => (ascii app.name, BitVec.ofNat 8 appIdx)

variable {apps : List App}

private theorem entriesOf_length : (entriesOf apps).length = apps.length + 1 := by
  rw [entriesOf, List.length_cons, List.length_map]

private theorem imageOf_small (packable : Packable apps) : (imageOf (entriesOf apps)).length < 2 ^ 32 := by
  rw [imageOf_length]
  exact packable.size

private theorem offset_eq (packable : Packable apps) (placed : Placed flash (imageOf (entriesOf apps)))
    {index : Nat} (inside : index ≤ apps.length) :
    entryOffset flash index = startOf (entriesOf apps).length + Blocks.offset (entriesOf apps) index := by
  have member : index < (entriesOf apps).length := by
    rw [entriesOf_length]
    omega
  have low := Blocks.offset_le (entriesOf apps) index
  have size := imageOf_small packable
  rw [imageOf_length] at size
  rw [entryOffset, entry_addr placed member, BitVec.add_comm, BitVec.add_sub_cancel, toNat_ofNat_of_lt (by omega)]

private theorem length_eq (packable : Packable apps) (placed : Placed flash (imageOf (entriesOf apps)))
    {index : Nat} (inside : index < (entriesOf apps).length) :
    entryLength flash index = (entriesOf apps)[index].length := by
  have low := block_le_flatten (List.getElem_mem inside)
  have size := imageOf_small packable
  rw [imageOf_length] at size
  rw [entryLength, entry_length placed inside, toNat_ofNat_of_lt (by omega)]

private theorem entries_aligned {entry : List U8} (member : entry ∈ entriesOf apps) :
    entry.length % sectorSize = 0 := by
  rcases List.mem_cons.mp member with rfl | rest
  · rw [entryBytes_length]
    exact (padding_facts _).1
  · obtain ⟨app, _, rfl⟩ := List.mem_map.mp rest
    rw [entryBytes_length]
    exact (padding_facts _).1

theorem offset_aligned (index : Nat) (inside : index ≤ (entriesOf apps).length) :
    Blocks.offset (entriesOf apps) index % sectorSize = 0 := by
  induction index with
  | zero => rfl
  | succ index ih =>
    have here := entries_aligned (List.getElem_mem inside)
    have before := ih (Nat.le_of_succ_le inside)
    rw [Blocks.offset_succ inside, Nat.add_mod, before, here, Nat.zero_mod]

theorem startOf_aligned (count : Nat) : startOf count % sectorSize = 0 := (padding_facts _).1

private theorem end_eq (packable : Packable apps) (placed : Placed flash (imageOf (entriesOf apps)))
    {index : Nat} (inside : index ≤ apps.length) :
    entryOffset flash index + entryLength flash index =
      startOf (entriesOf apps).length + Blocks.offset (entriesOf apps) (index + 1) := by
  have member : index < (entriesOf apps).length := by
    rw [entriesOf_length]
    omega
  rw [offset_eq packable placed inside, length_eq packable placed member, Blocks.offset_succ member,
    Nat.add_assoc]

private theorem index_bytes (packable : Packable apps) (placed : Placed flash (imageOf (entriesOf apps))) :
    xipBytes flash (appsPartitionEntryAddr flash 0 + 8) (xipWord flash (appsPartitionEntryAddr flash 0)).toNat =
      indexData apps := by
  have member : 0 < (entriesOf apps).length := by
    rw [entriesOf_length]
    omega
  have addr : appsPartitionEntryAddr flash 0 =
      appsPartitionAddr + BitVec.ofNat 32 (startOf (entriesOf apps).length) := entry_addr placed member
  obtain ⟨rest, found⟩ := drop_entry member
  have entry : (entriesOf apps)[0] = entryBytes (indexData apps) 0 := rfl
  have small : (indexData apps).length < 2 ^ 32 := data_small packable (entry ▸ List.getElem_mem member)
  rw [Blocks.offset_zero, Nat.add_zero, entry, entryBytes] at found
  simp only [List.append_assoc] at found
  have length := word_at placed found
  have data : (imageOf (entriesOf apps)).drop (startOf (entriesOf apps).length + 8) =
      indexData apps ++ (bytes32 (Fruitchip.crc32 (indexData apps)) ++
        (List.replicate (calculatePaddingForLen (12 + (indexData apps).length)) sectorEraseValue ++ rest)) := by
    rw [← List.drop_drop, found, ← List.append_assoc]
    exact List.drop_left' rfl
  have bytes := read_at placed data
  rw [BitVec.ofNat_add, ← BitVec.add_assoc, ← addr] at bytes
  rw [← addr] at length
  rw [length, toNat_ofNat_of_lt small]
  exact bytes

/-- The builder succeeds, and what it writes is what the readers read. -/
theorem builder_readers_agree (packable : Packable apps) :
    ∃ image, main apps = some image ∧ ∀ flash, Placed flash image → Agrees apps image flash := by
  refine ⟨_, main_some packable, ?_⟩
  intro flash placed
  have few := packable.count
  have size : (entriesOf apps).length = apps.length + 1 := entriesOf_length
  exact {
    detected := detect_image placed
    count := by
      rw [entries_count placed, size, toNat_ofNat_of_lt (by omega)]
    aligned := by
      intro index inside
      have first := startOf_aligned (entriesOf apps).length
      have second := offset_aligned index (show index ≤ (entriesOf apps).length by omega)
      rw [offset_eq packable placed inside]
      unfold sectorSize at first second
      omega
    begins := by
      have aligned := startOf_aligned (entriesOf apps).length
      have padded := (padding_facts (headLength (entriesOf apps).length)).2
      rw [offset_eq packable placed (Nat.zero_le _), Blocks.offset_zero]
      unfold startOf headLength sectorSize at *
      omega
    behind := by
      intro index inside
      rw [offset_eq packable placed inside, startOf, headLength, size]
      omega
    disjoint := by
      intro first last before inside
      rw [end_eq packable placed (by omega), offset_eq packable placed inside]
      exact Nat.add_le_add_left (Blocks.offset_mono _ before) _
    tiled := by
      intro position behind inside
      rw [offset_eq packable placed (Nat.zero_le _), Blocks.offset_zero] at behind
      rw [imageOf_length] at inside
      obtain ⟨index, member, low, high⟩ := Blocks.exists_block
        (show position - startOf (entriesOf apps).length < (entriesOf apps).flatten.length by omega)
      have known : index ≤ apps.length := by omega
      refine ⟨index, known, ?_, ?_⟩
      · rw [offset_eq packable placed known]
        omega
      · rw [end_eq packable placed known]
        omega
    within := by
      intro index inside
      have high := Blocks.offset_le (entriesOf apps) (index + 1)
      rw [end_eq packable placed inside, imageOf_length]
      omega
    entries := by
      intro index inside
      have member : index + 1 < (entriesOf apps).length := by omega
      have entry : (entriesOf apps)[index + 1] = entryBytes apps[index].data apps[index].attrs := by
        simp [entriesOf]
      refine ⟨calculatePaddingForLen (12 + apps[index].data.length), (padding_facts _).2, ?_⟩
      rw [length_eq packable placed member, entry_bytes placed member, entry]
      rfl
    names := by
      have start : (0 : U8).toNat + apps.length = (BitVec.ofNat 8 apps.length).toNat := by
        rw [toNat_ofNat_of_lt (by omega)]
        exact Nat.zero_add _
      have listed := populate_names (fun app => ascii app.name) apps [] start fun app member => by
        rw [ascii, List.length_map]
        exact packable.names app member
      rw [List.append_nil] at listed
      rw [index_bytes packable placed]
      simp only [ascii, List.length_map] at listed
      exact listed }

/-- One app with a short file. -/
def oneApp : List App := [⟨['O', 'S', 'D', 'M', 'e', 'n', 'u'], [0x7F, 0x45, 0x4C, 0x46], 3⟩]

theorem builder_readers_agree_one_app :
    ∃ image, main oneApp = some image ∧ ∀ flash, Placed flash image → Agrees oneApp image flash := by
  refine builder_readers_agree ⟨by decide, by simp [oneApp], by decide, by decide, ?_⟩
  simp [oneApp, imageSize, entriesOf, entryBytes_length, startOf, headLength, calculatePaddingForLen,
    indexData, ascii, sectorSize]

end Fruitchip.AppsBuilder
