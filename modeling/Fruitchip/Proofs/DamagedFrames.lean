import Fruitchip.Library.Pairs
import Fruitchip.Proofs.Session
import Fruitchip.Proofs.FrameEffects

/-! Frames that are executed with one argument byte missing. The first byte of
the next frame fills the gap, so every argument behind it has moved up by one.
The complements catch that, except where the bytes that moved are alike. -/

namespace Fruitchip.Firmware
open Embedded Client

variable {config : Config} {world : World}

def effects (events : List Event) : List Event := events.filter Event.isEffect

/-- The byte that fills the gap. -/
def frameStart : U8 := modchipCmdPrefix.setWidth 8

def sectorBlank (flash : Flash) (flashOffset : U32) : Bool :=
  (xipBytes flash (xipBase + flashOffset) flashSectorSize).all (· = 0xFF)

def EraseActs (config : Config) (world : World) (partitionIdx : U8) (sectorIdx : U32) : Prop :=
  world.flashWriteLock = false ∧ (sectorAddr config partitionIdx sectorIdx).2 = true ∧
    sectorBlank world.flash (sectorAddr config partitionIdx sectorIdx).1 = false

instance (partitionIdx : U8) (sectorIdx : U32) : Decidable (EraseActs config world partitionIdx sectorIdx) :=
  inferInstanceAs (Decidable (_ ∧ _ ∧ _))

def erasedSize (sectorCount : U32) : U32 := sectorCount * BitVec.ofNat 32 flashSectorSize

def WriteActs (config : Config) (world : World) (partitionIdx : U8) (sectorIdx sectorCrc : U32)
    (sector : List U8) : Prop :=
  world.flashWriteLock = false ∧ (sectorAddr config partitionIdx sectorIdx).2 = true ∧ crc32 sector = sectorCrc ∧
    xipBytes world.flash (xipBase + (sectorAddr config partitionIdx sectorIdx).1) flashSectorSize ≠ sector

instance (partitionIdx : U8) (sectorIdx sectorCrc : U32) (sector : List U8) :
    Decidable (WriteActs config world partitionIdx sectorIdx sectorCrc sector) :=
  inferInstanceAs (Decidable (_ ∧ _ ∧ _ ∧ _))

/-- What the head of a sector command passes for when argument byte `lost` is
missing, `next` has moved up, and the complements still match. The head is a
partition, a sector and one more word. -/
inductive Misread (partitionIdx : U8) (sectorIdx word : U32) (next : U8) : Nat → U8 → U32 → U32 → Prop
  | partitionIdx (partition : byteAt sectorIdx 0 = partitionIdx)
    (index : Survives sectorIdx (byteAt word 0) 0) (last : Survives word next 0) :
    Misread partitionIdx sectorIdx word next 0 (~~~partitionIdx) (shifted sectorIdx 0) (shifted word 0)
  | partitionIdxXor (partition : byteAt sectorIdx 0 = ~~~partitionIdx)
    (index : Survives sectorIdx (byteAt word 0) 0) (last : Survives word next 0) :
    Misread partitionIdx sectorIdx word next 1 partitionIdx (shifted sectorIdx 0) (shifted word 0)
  | sectorIdx {lost : Nat} (inside : lost < 8) (index : Survives sectorIdx (byteAt word 0) lost)
    (last : Survives word next 0) :
    Misread partitionIdx sectorIdx word next (2 + lost) partitionIdx (shifted sectorIdx lost) (shifted word 0)
  | word {lost : Nat} (inside : lost < 8) (last : Survives word next lost) :
    Misread partitionIdx sectorIdx word next (10 + lost) partitionIdx sectorIdx (shifted word lost)

/-- What a sector write passes for. Its data fills a gap in the head. -/
inductive WriteMisread (partitionIdx : U8) (sectorIdx sectorCrc : U32) (sector : List U8) :
    Nat → U8 → U32 → U32 → List U8 → Prop
  | head {lost : Nat} {otherPartition : U8} {otherIdx otherCrc : U32}
    (misread : Misread partitionIdx sectorIdx sectorCrc (sector.getD 0 0) lost otherPartition otherIdx otherCrc) :
    WriteMisread partitionIdx sectorIdx sectorCrc sector lost otherPartition otherIdx otherCrc
      (sector.eraseIdx 0 ++ [frameStart])
  | sector {lost : Nat} (inside : lost < flashSectorSize) :
    WriteMisread partitionIdx sectorIdx sectorCrc sector (18 + lost) partitionIdx sectorIdx sectorCrc
      (sector.eraseIdx lost ++ [frameStart])

/-- Argument byte `lost` of a call is missing, nobody notices, and what is then
done is not what was asked for. -/
def Slips (config : Config) (world : World) (lost : Nat) : Call → Prop
  | .settingsSet key value =>
    key < modchipSettingsKeysTotal ∧ 4 ≤ lost ∧ Survives value frameStart (lost - 4) ∧
      kvSetter key (shifted value (lost - 4)) ≠ kvSetter key value
  | .eraseFlashSector partitionIdx sectorIdx sectorCount =>
    ∃ otherPartition otherIdx otherCount,
      Misread partitionIdx sectorIdx sectorCount frameStart lost otherPartition otherIdx otherCount ∧
      EraseActs config world otherPartition otherIdx ∧
      ¬ (sectorAddr config otherPartition otherIdx = sectorAddr config partitionIdx sectorIdx ∧
        erasedSize otherCount = erasedSize sectorCount)
  | .writeFlashSector partitionIdx sectorIdx sector =>
    ∃ otherPartition otherIdx otherCrc otherSector,
      WriteMisread partitionIdx sectorIdx (crc32 sector.bytes) sector.bytes lost otherPartition otherIdx otherCrc
        otherSector ∧
      WriteActs config world otherPartition otherIdx otherCrc otherSector ∧
      ¬ (sectorAddr config otherPartition otherIdx = sectorAddr config partitionIdx sectorIdx ∧
        otherSector = sector.bytes)
  | _ => False

theorem effects_ops (ops : List FlashOp) : effects (ops.map .flash) = ops.map .flash :=
  List.filter_eq_self.mpr fun event member => by
    obtain ⟨op, _, rfl⟩ := List.mem_map.mp member
    rfl

theorem effects_busy {crcEvents : List Event} (silent : effects crcEvents = []) (ops : List FlashOp)
    (statusCode : U32) :
    effects (.startBusyCode :: crcEvents ++ ops.map .flash ++ [.stopBusyCode statusCode]) = ops.map .flash := by
  have stop : effects [.stopBusyCode statusCode] = [] := rfl
  have parts : effects (crcEvents ++ ops.map .flash ++ [.stopBusyCode statusCode]) =
      effects crcEvents ++ effects (ops.map .flash) ++ effects [.stopBusyCode statusCode] := by
    simp only [effects, List.filter_append]
  rw [silent, effects_ops, stop, List.nil_append, List.append_nil] at parts
  exact parts

theorem effects_erasing (ops : List FlashOp) (statusCode : U32) :
    effects (.startBusyCode :: ops.map .flash ++ [.stopBusyCode statusCode]) = ops.map .flash := by
  have none : effects [] = [] := rfl
  have busy := effects_busy none ops statusCode
  exact busy

def FlashStatics.Matches (s : FlashStatics) : Prop :=
  s.partitionIdx ^^^ s.partitionIdxXor = 0xFF ∧ s.sectorIdx ^^^ s.sectorIdxXor = 0xFFFFFFFF

instance (s : FlashStatics) : Decidable s.Matches := inferInstanceAs (Decidable (_ ∧ _))

theorem checkedSectorAddr_eq (s : FlashStatics) : checkedSectorAddr config s =
    if s.Matches then sectorAddr config s.partitionIdx s.sectorIdx else (0, false) := rfl

def eraseEffects (config : Config) (world : World) (partitionIdx : U8) (sectorIdx sectorCount : U32) : List Event :=
  if EraseActs config world partitionIdx sectorIdx then
    [.flash (.rangeErase (sectorAddr config partitionIdx sectorIdx).1.toNat (erasedSize sectorCount).toNat)]
  else []

theorem effects_erase (s : FlashStatics) (world : World) : effects (eraseFlashSectorBody config s world).2 =
    if s.Matches ∧ s.sectorCount ^^^ s.sectorCountXor = 0xFFFFFFFF then
      eraseEffects config world s.partitionIdx s.sectorIdx s.sectorCount
    else [] := by
  by_cases same : s.Matches
  · have address : checkedSectorAddr config s = sectorAddr config s.partitionIdx s.sectorIdx := if_pos same
    simp only [eraseFlashSectorBody, address, same, true_and]
    by_cases accepted : world.flashWriteLock = false ∧ (sectorAddr config s.partitionIdx s.sectorIdx).2 = true ∧
        s.sectorCount ^^^ s.sectorCountXor = 0xFFFFFFFF
    · rw [if_pos accepted, if_pos accepted.2.2]
      apply (effects_erasing _ _).trans
      by_cases blank : (xipBytes world.flash (xipBase + (sectorAddr config s.partitionIdx s.sectorIdx).1)
          flashSectorSize).all (· = 0xFF)
      · have idle : eraseEffects config world s.partitionIdx s.sectorIdx s.sectorCount = [] :=
          if_neg fun acts => Bool.false_ne_true (acts.2.2.symm.trans blank)
        rw [if_pos blank, idle, List.map_nil]
      · have acts : EraseActs config world s.partitionIdx s.sectorIdx :=
          ⟨accepted.1, accepted.2.1, Bool.eq_false_iff.mpr blank⟩
        rw [if_neg blank, eraseEffects, if_pos acts]
        rfl
    · rw [if_neg accepted]
      apply (effects_erasing [] _).trans
      by_cases count : s.sectorCount ^^^ s.sectorCountXor = 0xFFFFFFFF
      · rw [if_pos count, eraseEffects, if_neg (fun acts => accepted ⟨acts.1, acts.2.1, count⟩), List.map_nil]
      · rw [if_neg count, List.map_nil]
  · have refused : ¬ (world.flashWriteLock = false ∧ (checkedSectorAddr config s).2 = true ∧
        s.sectorCount ^^^ s.sectorCountXor = 0xFFFFFFFF) := by
      rw [checkedSectorAddr_eq, if_neg same]
      simp
    simp only [eraseFlashSectorBody]
    rw [if_neg refused, if_neg (fun both => same both.1)]
    exact effects_erasing [] _

def writeEffects (config : Config) (world : World) (partitionIdx : U8) (sectorIdx sectorCrc : U32)
    (sector : List U8) : List Event :=
  if WriteActs config world partitionIdx sectorIdx sectorCrc sector then
    [.flash (.rangeErase (sectorAddr config partitionIdx sectorIdx).1.toNat flashSectorSize),
      .flash (.rangeProgram (sectorAddr config partitionIdx sectorIdx).1.toNat sector)]
  else []

theorem effects_write (s : FlashStatics) (world : World) : effects (writeFlashSectorBody config s world).2 =
    if s.Matches ∧ s.sectorCrc ^^^ s.sectorCrcXor = 0xFFFFFFFF then
      writeEffects config world s.partitionIdx s.sectorIdx s.sectorCrc s.sectorBytes
    else [] := by
  have silent : effects (if s.sectorCrc ^^^ s.sectorCrcXor = 0xFFFFFFFF then [.dmaCrc32 s.sectorBytes] else []) =
      [] := by
    split <;> rfl
  have checksum : dmaCrc32 s.sectorBytes 0xFFFFFFFF = crc32 s.sectorBytes := (crc32_eq s.sectorBytes).symm
  have nothing : effects (.startBusyCode :: (if s.sectorCrc ^^^ s.sectorCrcXor = 0xFFFFFFFF then
      [.dmaCrc32 s.sectorBytes] else []) ++ [.stopBusyCode modchipCmdResultErr]) = [] := by
    have busy := effects_busy silent [] modchipCmdResultErr
    rwa [List.map_nil, List.append_nil] at busy
  by_cases same : s.Matches
  · have address : checkedSectorAddr config s = sectorAddr config s.partitionIdx s.sectorIdx := if_pos same
    simp only [writeFlashSectorBody, address, checksum, same, true_and]
    by_cases accepted : world.flashWriteLock = false ∧ (sectorAddr config s.partitionIdx s.sectorIdx).2 = true ∧
        s.sectorCrc ^^^ s.sectorCrcXor = 0xFFFFFFFF ∧ crc32 s.sectorBytes = s.sectorCrc
    · obtain ⟨unlocked, valid, complement, crc⟩ := accepted
      rw [if_pos ⟨unlocked, valid, complement, crc⟩]
      apply (effects_busy silent _ _).trans
      rw [if_pos complement, writeEffects]
      by_cases equal : xipBytes world.flash (xipBase + (sectorAddr config s.partitionIdx s.sectorIdx).1)
          flashSectorSize = s.sectorBytes
      · rw [if_pos equal, if_neg (fun acts => acts.2.2.2 equal), List.map_nil]
      · rw [if_neg equal, if_pos ⟨unlocked, valid, crc, equal⟩]
        rfl
    · rw [if_neg accepted]
      apply nothing.trans
      by_cases complement : s.sectorCrc ^^^ s.sectorCrcXor = 0xFFFFFFFF
      · rw [if_pos complement, writeEffects,
          if_neg (fun acts => accepted ⟨acts.1, acts.2.1, complement, acts.2.2.1⟩)]
      · rw [if_neg complement]
  · have refused : ¬ (world.flashWriteLock = false ∧ (checkedSectorAddr config s).2 = true ∧
        s.sectorCrc ^^^ s.sectorCrcXor = 0xFFFFFFFF ∧ dmaCrc32 s.sectorBytes 0xFFFFFFFF = s.sectorCrc) := by
      rw [checkedSectorAddr_eq, if_neg same]
      simp
    have none : ¬ (s.Matches ∧ s.sectorCrc ^^^ s.sectorCrcXor = 0xFFFFFFFF) := fun both => same both.1
    simp only [writeFlashSectorBody, none, ite_false]
    rw [if_neg refused]
    exact nothing

theorem effects_setting (setter : Setter) (ops : List FlashOp) (statusCode : U32) :
    effects (.startBusyCode :: (.settingsSet setter :: ops.map .flash) ++ [.stopBusyCode statusCode]) =
      .settingsSet setter :: ops.map .flash := by
  have busy := effects_erasing ops statusCode
  exact congrArg (List.cons (Event.settingsSet setter)) busy

theorem effects_set (s : KvSetStatics) (world : World) : effects (kvSetBody s world).2 =
    if (s.idx ^^^ s.idxXor = 0xFFFF ∧ s.idx < modchipSettingsKeysTotal) ∧ s.value ^^^ s.valueXor = 0xFFFFFFFF then
      (runSetter world (kvSetter s.idx s.value)).2
    else [] := by
  simp only [kvSetBody]
  split
  · exact effects_setting _ _ _
  · rfl

theorem execute_erase_words (a b : U8) (x y u v : U32) (world : World) :
    execute config (.eraseFlashSector, [a, b] ++ ((bytes32 x ++ bytes32 y) ++ (bytes32 u ++ bytes32 v))) world =
      eraseFlashSectorBody config ⟨a, b, x, y, u, v, u, v, fun _ => 0⟩ world := by
  apply erase_congr
  · rfl
  · rfl
  · exact le32_byteAt x
  · exact le32_byteAt y
  · exact le32_byteAt u
  · exact le32_byteAt v

theorem sectorBytes_getD (a b : U8) (x y u v : U32) {sector : List U8} (length : sector.length = flashSectorSize) :
    FlashStatics.sectorBytes ⟨a, b, x, y, u, v, u, v, (sector.getD · 0)⟩ = sector := by
  apply List.ext_getElem
  · simp [FlashStatics.sectorBytes, length]
  · intro index _ inside
    simp [FlashStatics.sectorBytes, List.getD_eq_getElem?_getD, List.getElem?_eq_getElem inside]

theorem execute_write_words (a b : U8) (x y u v : U32) (sector : List U8) (world : World) :
    execute config (.writeFlashSector, [a, b] ++ ((bytes32 x ++ bytes32 y) ++ (bytes32 u ++ bytes32 v)) ++ sector)
        world =
      writeFlashSectorBody config ⟨a, b, x, y, u, v, u, v, (sector.getD · 0)⟩ world := by
  apply write_congr
  · rfl
  · rfl
  · exact le32_byteAt x
  · exact le32_byteAt y
  · exact le32_byteAt u
  · exact le32_byteAt v
  · exact sector_behind _ sector rfl

theorem execute_set_words (k0 k1 n0 n1 : U8) (x y : U32) (world : World) :
    execute config (.kvSet, [k0, k1, n0, n1] ++ (bytes32 x ++ bytes32 y)) world =
      kvSetBody ⟨le16 k0 k1, le16 n0 n1, x, y⟩ world := by
  have fields : kvSetArgs (fun index => ([k0, k1, n0, n1] ++ (bytes32 x ++ bytes32 y)).getD index 0) =
      ⟨le16 k0 k1, le16 n0 n1, x, y⟩ := by
    show KvSetStatics.mk _ _ _ _ = _
    rw [KvSetStatics.mk.injEq]
    exact ⟨rfl, rfl, le32_byteAt x, le32_byteAt y⟩
  exact congrArg (kvSetBody · world) fields

/-- The arguments a damaged frame is executed with. -/
def lostArgs (call : Call) (lost : Nat) : List U8 := (callArgs call).eraseIdx lost ++ [frameStart]

theorem word_not (w : U32) : w ^^^ 0xFFFFFFFF = ~~~w := xor32.mp (xor_xor_self w _)

theorem byte_not (b : U8) : b ^^^ 0xFF = ~~~b := xor8.mp (xor_xor_self b _)

theorem erase_args (partitionIdx : U8) (sectorIdx sectorCount : U32) :
    callArgs (.eraseFlashSector partitionIdx sectorIdx sectorCount) =
      [partitionIdx, ~~~partitionIdx] ++ (paired sectorIdx ++ paired sectorCount) := by
  rw [paired, paired, ← word_not, ← word_not, ← byte_not]
  rfl

theorem write_args (partitionIdx : U8) (sectorIdx : U32) (sector : Sector) :
    callArgs (.writeFlashSector partitionIdx sectorIdx sector) =
      [partitionIdx, ~~~partitionIdx] ++ (paired sectorIdx ++ paired (crc32 sector.bytes)) ++ sector.bytes := by
  rw [paired, paired, ← word_not, ← word_not, ← byte_not]
  rfl

theorem set_args (key : U16) (value : U32) :
    callArgs (.settingsSet key value) =
      [byteAt key 0, byteAt key 1, byteAt (key ^^^ 0xFFFF) 0, byteAt (key ^^^ 0xFFFF) 1] ++ paired value := by
  rw [paired, ← word_not]
  rfl

/-- An effect is the one that was asked for, or there is none. -/
def Faithful (done wanted : List Event) : Prop := done = [] ∨ done = wanted

/-- Another erase does nothing or the same exactly when it has the same address
and the same size. -/
theorem eraseEffects_faithful (otherPartition partitionIdx : U8)
    (otherIdx otherCount sectorIdx sectorCount : U32) :
    Faithful (eraseEffects config world otherPartition otherIdx otherCount)
        (eraseEffects config world partitionIdx sectorIdx sectorCount) ↔
      ¬ (EraseActs config world otherPartition otherIdx ∧
        ¬ (sectorAddr config otherPartition otherIdx = sectorAddr config partitionIdx sectorIdx ∧
          erasedSize otherCount = erasedSize sectorCount)) := by
  by_cases acts : EraseActs config world otherPartition otherIdx
  · have done : eraseEffects config world otherPartition otherIdx otherCount =
        [.flash (.rangeErase (sectorAddr config otherPartition otherIdx).1.toNat (erasedSize otherCount).toNat)] :=
      if_pos acts
    constructor
    · rintro (none | same) ⟨_, differs⟩
      · rw [done] at none
        cases none
      · rw [done, eraseEffects] at same
        split at same
        next wanted =>
          simp only [List.cons.injEq, Event.flash.injEq, FlashOp.rangeErase.injEq, and_true] at same
          have address := BitVec.eq_of_toNat_eq same.1
          have valid := acts.2.1.trans wanted.2.1.symm
          exact differs ⟨Prod.ext address valid, BitVec.eq_of_toNat_eq same.2⟩
        · cases same
    · intro kept
      have same := Decidable.byContradiction fun differs => kept ⟨acts, differs⟩
      have wanted : EraseActs config world partitionIdx sectorIdx := by
        unfold EraseActs
        rw [← same.1]
        exact acts
      right
      rw [done, eraseEffects, if_pos wanted, same.1, same.2]
  · have none : eraseEffects config world otherPartition otherIdx otherCount = [] := if_neg acts
    exact ⟨fun _ both => acts both.1, fun _ => .inl none⟩

theorem writeEffects_faithful (otherPartition partitionIdx : U8) (otherIdx otherCrc sectorIdx : U32)
    (otherSector sector : List U8) :
    Faithful (writeEffects config world otherPartition otherIdx otherCrc otherSector)
        (writeEffects config world partitionIdx sectorIdx (crc32 sector) sector) ↔
      ¬ (WriteActs config world otherPartition otherIdx otherCrc otherSector ∧
        ¬ (sectorAddr config otherPartition otherIdx = sectorAddr config partitionIdx sectorIdx ∧
          otherSector = sector)) := by
  by_cases acts : WriteActs config world otherPartition otherIdx otherCrc otherSector
  · have done : writeEffects config world otherPartition otherIdx otherCrc otherSector =
        [.flash (.rangeErase (sectorAddr config otherPartition otherIdx).1.toNat flashSectorSize),
          .flash (.rangeProgram (sectorAddr config otherPartition otherIdx).1.toNat otherSector)] := if_pos acts
    constructor
    · rintro (none | same) ⟨_, differs⟩
      · rw [done] at none
        cases none
      · rw [done, writeEffects] at same
        split at same
        next wanted =>
          simp only [List.cons.injEq, Event.flash.injEq, FlashOp.rangeErase.injEq, FlashOp.rangeProgram.injEq,
            and_true] at same
          have address := BitVec.eq_of_toNat_eq same.1
          have valid := acts.2.1.trans wanted.2.1.symm
          exact differs ⟨Prod.ext address valid, same.2.2⟩
        · cases same
    · intro kept
      have same := Decidable.byContradiction fun differs => kept ⟨acts, differs⟩
      have wanted : WriteActs config world partitionIdx sectorIdx (crc32 sector) sector := by
        unfold WriteActs
        rw [← same.1, ← same.2]
        exact ⟨acts.1, acts.2.1, rfl, acts.2.2.2⟩
      right
      rw [done, writeEffects, if_pos wanted, same.1, same.2]
  · have none : writeEffects config world otherPartition otherIdx otherCrc otherSector = [] := if_neg acts
    exact ⟨fun _ both => acts both.1, fun _ => .inl none⟩

private theorem effects_execute_erase (a b : U8) {first second : List U8} {x u : U32} {index count : Prop}
    (firstReads : ReadsAs first x index) (secondReads : ReadsAs second u count) :
    ((a ^^^ b = 0xFF ∧ index) ∧ count →
      effects (execute config (.eraseFlashSector, [a, b] ++ (first ++ second)) world).2 =
        eraseEffects config world a x u) ∧
    (¬ ((a ^^^ b = 0xFF ∧ index) ∧ count) →
      effects (execute config (.eraseFlashSector, [a, b] ++ (first ++ second)) world).2 = []) := by
  obtain ⟨y, rfl, indexMatches⟩ := firstReads
  obtain ⟨v, rfl, countMatches⟩ := secondReads
  rw [← indexMatches, ← countMatches, execute_erase_words, effects_erase]
  exact ⟨fun accepted => if_pos accepted, fun refused => if_neg refused⟩

private theorem effects_execute_write (a b : U8) {first second sector : List U8} {x u : U32} {index crc : Prop}
    (firstReads : ReadsAs first x index) (secondReads : ReadsAs second u crc)
    (length : sector.length = flashSectorSize) :
    ((a ^^^ b = 0xFF ∧ index) ∧ crc →
      effects (execute config (.writeFlashSector, [a, b] ++ (first ++ second) ++ sector) world).2 =
        writeEffects config world a x u sector) ∧
    (¬ ((a ^^^ b = 0xFF ∧ index) ∧ crc) →
      effects (execute config (.writeFlashSector, [a, b] ++ (first ++ second) ++ sector) world).2 = []) := by
  obtain ⟨y, rfl, indexMatches⟩ := firstReads
  obtain ⟨v, rfl, crcMatches⟩ := secondReads
  rw [← indexMatches, ← crcMatches, execute_write_words, effects_write, sectorBytes_getD a b x y u v length]
  exact ⟨fun accepted => if_pos accepted, fun refused => if_neg refused⟩

private theorem effects_execute_set (k0 k1 n0 n1 : U8) {bytes : List U8} {x : U32} {value : Prop}
    (reads : ReadsAs bytes x value) :
    ((le16 k0 k1 ^^^ le16 n0 n1 = 0xFFFF ∧ le16 k0 k1 < modchipSettingsKeysTotal) ∧ value →
      effects (execute config (.kvSet, [k0, k1, n0, n1] ++ bytes) world).2 =
        (runSetter world (kvSetter (le16 k0 k1) x)).2) ∧
    (¬ ((le16 k0 k1 ^^^ le16 n0 n1 = 0xFFFF ∧ le16 k0 k1 < modchipSettingsKeysTotal) ∧ value) →
      effects (execute config (.kvSet, [k0, k1, n0, n1] ++ bytes) world).2 = []) := by
  obtain ⟨y, rfl, valueMatches⟩ := reads
  rw [← valueMatches, execute_set_words, effects_set]
  exact ⟨fun accepted => if_pos accepted, fun refused => if_neg refused⟩

private def head (partitionIdx : U8) (sectorIdx word : U32) : List U8 :=
  [partitionIdx, ~~~partitionIdx] ++ (paired sectorIdx ++ paired word)

private theorem head_partitionIdx (partitionIdx : U8) (sectorIdx word : U32) (next : U8) :
    (head partitionIdx sectorIdx word).eraseIdx 0 ++ [next] =
      [~~~partitionIdx, byteAt sectorIdx 0] ++ (damaged sectorIdx (byteAt word 0) 0 ++ damaged word next 0) := rfl

private theorem head_partitionIdxXor (partitionIdx : U8) (sectorIdx word : U32) (next : U8) :
    (head partitionIdx sectorIdx word).eraseIdx 1 ++ [next] =
      [partitionIdx, byteAt sectorIdx 0] ++ (damaged sectorIdx (byteAt word 0) 0 ++ damaged word next 0) := rfl

private theorem head_sectorIdx (partitionIdx : U8) (sectorIdx word : U32) (next : U8) {lost : Nat}
    (inside : lost < 8) : (head partitionIdx sectorIdx word).eraseIdx (2 + lost) ++ [next] =
      [partitionIdx, ~~~partitionIdx] ++ (damaged sectorIdx (byteAt word 0) lost ++ damaged word next 0) := by
  rw [← damaged_append sectorIdx word next inside, Nat.add_comm]
  rfl

private theorem head_word (partitionIdx : U8) (sectorIdx word : U32) (next : U8) (lost : Nat) :
    (head partitionIdx sectorIdx word).eraseIdx (10 + lost) ++ [next] =
      [partitionIdx, ~~~partitionIdx] ++ (paired sectorIdx ++ damaged word next lost) := by
  rw [← append_damaged, show 10 + lost = (8 + lost) + 2 by omega]
  rfl

/-- A damaged head is a head again. If its complements match, it is a misread one. -/
private theorem damaged_head (partitionIdx : U8) (sectorIdx word : U32) (next : U8) {lost : Nat}
    (inside : lost < 18) :
    ∃ a b first second x u index last, (head partitionIdx sectorIdx word).eraseIdx lost ++ [next] =
        [a, b] ++ (first ++ second) ∧ ReadsAs first x index ∧ ReadsAs second u last ∧
      ((a ^^^ b = 0xFF ∧ index) ∧ last → Misread partitionIdx sectorIdx word next lost a x u) := by
  have tail := damaged_reads word next (Nat.zero_lt_succ 7)
  have place : lost = 0 ∨ lost = 1 ∨ 2 ≤ lost ∧ lost - 2 < 8 ∨ 10 ≤ lost ∧ lost - 10 < 8 := by omega
  rcases place with rfl | rfl | ⟨low, below⟩ | ⟨low, below⟩
  · refine ⟨_, _, _, _, _, _, _, _, head_partitionIdx partitionIdx sectorIdx word next,
      damaged_reads sectorIdx _ (Nat.zero_lt_succ 7), tail, ?_⟩
    intro accepted
    exact .partitionIdx ((xor8.mp accepted.1.1).trans BitVec.not_not) accepted.1.2 accepted.2
  · refine ⟨_, _, _, _, _, _, _, _, head_partitionIdxXor partitionIdx sectorIdx word next,
      damaged_reads sectorIdx _ (Nat.zero_lt_succ 7), tail, ?_⟩
    intro accepted
    exact .partitionIdxXor (xor8.mp accepted.1.1) accepted.1.2 accepted.2
  · obtain ⟨rest, rfl⟩ := Nat.exists_eq_add_of_le low
    rw [Nat.add_sub_cancel_left] at below
    refine ⟨_, _, _, _, _, _, _, _, head_sectorIdx partitionIdx sectorIdx word next below,
      damaged_reads sectorIdx _ below, tail, ?_⟩
    intro accepted
    exact .sectorIdx below accepted.1.2 accepted.2
  · obtain ⟨rest, rfl⟩ := Nat.exists_eq_add_of_le low
    rw [Nat.add_sub_cancel_left] at below
    refine ⟨_, _, _, _, _, _, _, _, head_word partitionIdx sectorIdx word next rest,
      paired_reads sectorIdx, damaged_reads word next below, ?_⟩
    intro accepted
    exact .word below accepted.2

private theorem misread_head {partitionIdx otherPartition : U8} {sectorIdx word otherIdx otherWord : U32} {next : U8}
    {lost : Nat} (misread : Misread partitionIdx sectorIdx word next lost otherPartition otherIdx otherWord) :
    ∃ first second index last, (head partitionIdx sectorIdx word).eraseIdx lost ++ [next] =
        [otherPartition, ~~~otherPartition] ++ (first ++ second) ∧
      ReadsAs first otherIdx index ∧ ReadsAs second otherWord last ∧ index ∧ last := by
  cases misread with
  | partitionIdx partition index last =>
    refine ⟨_, _, _, _, ?_, damaged_reads sectorIdx _ (Nat.zero_lt_succ 7),
      damaged_reads word next (Nat.zero_lt_succ 7), index, last⟩
    rw [head_partitionIdx, partition, BitVec.not_not]
  | partitionIdxXor partition index last =>
    refine ⟨_, _, _, _, ?_, damaged_reads sectorIdx _ (Nat.zero_lt_succ 7),
      damaged_reads word next (Nat.zero_lt_succ 7), index, last⟩
    rw [head_partitionIdxXor, partition]
  | sectorIdx inside index last =>
    exact ⟨_, _, _, _, head_sectorIdx _ _ _ _ inside, damaged_reads sectorIdx _ inside,
      damaged_reads word next (Nat.zero_lt_succ 7), index, last⟩
  | word inside last =>
    exact ⟨_, _, _, _, head_word _ _ _ _ _, paired_reads sectorIdx, damaged_reads word next inside, trivial, last⟩

theorem effects_call_erase (partitionIdx : U8) (sectorIdx sectorCount : U32) :
    effects (runCall config (.eraseFlashSector partitionIdx sectorIdx sectorCount) world).2 =
      eraseEffects config world partitionIdx sectorIdx sectorCount := by
  refine (effects_erase _ world).trans (if_pos ⟨⟨xor8.mpr (byte_not _), xor32.mpr (word_not _)⟩, ?_⟩)
  exact xor32.mpr (word_not _)

theorem effects_call_write (partitionIdx : U8) (sectorIdx : U32) (sector : Sector) :
    effects (runCall config (.writeFlashSector partitionIdx sectorIdx sector) world).2 =
      writeEffects config world partitionIdx sectorIdx (crc32 sector.bytes) sector.bytes := by
  refine (effects_write _ world).trans ((if_pos ⟨⟨xor8.mpr (byte_not _), xor32.mpr (word_not _)⟩, ?crc⟩).trans ?_)
  case crc => exact xor32.mpr (word_not _)
  · exact congrArg (writeEffects config world partitionIdx sectorIdx _)
      (sectorBytes_getD partitionIdx _ sectorIdx _ _ _ sector.whole)

theorem effects_call_set (key : U16) (value : U32) :
    effects (runCall config (.settingsSet key value) world).2 =
      if key < modchipSettingsKeysTotal then (runSetter world (kvSetter key value)).2 else [] := by
  have wellFormed : key ^^^ (key ^^^ 0xFFFF) = 0xFFFF ∧ value ^^^ (value ^^^ 0xFFFFFFFF) = 0xFFFFFFFF := by
    exact ⟨xor_xor_self key _, xor_xor_self value _⟩
  apply (effects_set _ world).trans
  simp only [wellFormed, true_and, and_true]

theorem erase_faithful (partitionIdx : U8) (sectorIdx sectorCount : U32) {lost : Nat} (inside : lost < 18) :
    Faithful (effects (execute config (.eraseFlashSector,
        lostArgs (.eraseFlashSector partitionIdx sectorIdx sectorCount) lost) world).2)
        (effects (runCall config (.eraseFlashSector partitionIdx sectorIdx sectorCount) world).2) ↔
      ¬ Slips config world lost (.eraseFlashSector partitionIdx sectorIdx sectorCount) := by
  have bytes : lostArgs (.eraseFlashSector partitionIdx sectorIdx sectorCount) lost =
      (head partitionIdx sectorIdx sectorCount).eraseIdx lost ++ [frameStart] := by
    rw [lostArgs, erase_args]
    rfl
  rw [effects_call_erase, bytes]
  constructor
  · rintro faithful ⟨otherPartition, otherIdx, otherCount, misread, differs⟩
    obtain ⟨first, second, index, last, shape, firstReads, secondReads, indexMatches, lastMatches⟩ :=
      misread_head misread
    rw [shape, (effects_execute_erase _ _ firstReads secondReads).1
      ⟨⟨xor8.mpr rfl, indexMatches⟩, lastMatches⟩] at faithful
    exact (eraseEffects_faithful _ _ _ _ _ _).mp faithful differs
  · intro kept
    obtain ⟨a, b, first, second, x, u, index, last, shape, firstReads, secondReads, matched⟩ :=
      damaged_head partitionIdx sectorIdx sectorCount frameStart inside
    rw [shape]
    by_cases accepted : (a ^^^ b = 0xFF ∧ index) ∧ last
    · rw [(effects_execute_erase a b firstReads secondReads).1 accepted]
      exact (eraseEffects_faithful _ _ _ _ _ _).mpr fun differs => kept ⟨a, x, u, matched accepted, differs⟩
    · exact .inl ((effects_execute_erase a b firstReads secondReads).2 accepted)

/-- The data of a sector write moves up into a damaged head. -/
private theorem write_head (partitionIdx : U8) (sectorIdx : U32) (sector : Sector) {lost : Nat} (inside : lost < 18) :
    lostArgs (.writeFlashSector partitionIdx sectorIdx sector) lost =
      (head partitionIdx sectorIdx (crc32 sector.bytes)).eraseIdx lost ++ [sector.bytes.getD 0 0] ++
        (sector.bytes.eraseIdx 0 ++ [frameStart]) := by
  obtain ⟨bytes, whole⟩ := sector
  match bytes, whole with
  | first :: rest, _ =>
    rw [lostArgs, write_args]
    have front : lost < (head partitionIdx sectorIdx (crc32 (first :: rest))).length := inside
    show (head partitionIdx sectorIdx (crc32 (first :: rest)) ++ first :: rest).eraseIdx lost ++ _ = _
    rw [List.eraseIdx_append_of_lt_length front]
    simp

private theorem write_data (partitionIdx : U8) (sectorIdx : U32) (sector : Sector) (lost : Nat) :
    lostArgs (.writeFlashSector partitionIdx sectorIdx sector) (18 + lost) =
      [partitionIdx, ~~~partitionIdx] ++ (paired sectorIdx ++ paired (crc32 sector.bytes)) ++
        (sector.bytes.eraseIdx lost ++ [frameStart]) := by
  have front : (head partitionIdx sectorIdx (crc32 sector.bytes)).length = 18 := rfl
  rw [lostArgs, write_args]
  show (head partitionIdx sectorIdx (crc32 sector.bytes) ++ sector.bytes).eraseIdx (18 + lost) ++ _ = _
  rw [List.eraseIdx_append_of_length_le (front ▸ Nat.le_add_right 18 lost), front, Nat.add_sub_cancel_left,
    List.append_assoc]
  rfl

private theorem moved_length (sector : Sector) {lost : Nat} (inside : lost < flashSectorSize) :
    (sector.bytes.eraseIdx lost ++ [frameStart]).length = flashSectorSize := by
  rw [List.length_append, List.length_eraseIdx_of_lt (sector.whole ▸ inside), sector.whole]
  rfl

private theorem misread_write {partitionIdx otherPartition : U8} {sectorIdx otherIdx otherCrc : U32}
    {sector : Sector} {otherSector : List U8} {lost : Nat}
    (misread : WriteMisread partitionIdx sectorIdx (crc32 sector.bytes) sector.bytes lost otherPartition otherIdx
      otherCrc otherSector) :
    effects (execute config (.writeFlashSector, lostArgs (.writeFlashSector partitionIdx sectorIdx sector) lost)
      world).2 = writeEffects config world otherPartition otherIdx otherCrc otherSector := by
  cases misread with
  | head misread =>
    have inside : lost < 18 := by
      cases misread <;> omega
    obtain ⟨first, second, index, last, shape, firstReads, secondReads, indexMatches, lastMatches⟩ :=
      misread_head misread
    rw [write_head _ _ _ inside, shape]
    exact (effects_execute_write _ _ firstReads secondReads (moved_length sector (by decide))).1
      ⟨⟨xor8.mpr rfl, indexMatches⟩, lastMatches⟩
  | sector inside =>
    rw [write_data]
    exact (effects_execute_write _ _ (paired_reads _) (paired_reads _) (moved_length sector inside)).1
      ⟨⟨xor8.mpr rfl, trivial⟩, trivial⟩

theorem write_faithful (partitionIdx : U8) (sectorIdx : U32) (sector : Sector) {lost : Nat}
    (inside : lost < 18 + flashSectorSize) :
    Faithful (effects (execute config (.writeFlashSector,
        lostArgs (.writeFlashSector partitionIdx sectorIdx sector) lost) world).2)
        (effects (runCall config (.writeFlashSector partitionIdx sectorIdx sector) world).2) ↔
      ¬ Slips config world lost (.writeFlashSector partitionIdx sectorIdx sector) := by
  rw [effects_call_write]
  constructor
  · rintro faithful ⟨otherPartition, otherIdx, otherCrc, otherSector, misread, differs⟩
    rw [misread_write misread] at faithful
    exact (writeEffects_faithful _ _ _ _ _ _ _).mp faithful differs
  · intro kept
    have same {a : U8} {x u : U32} {data : List U8}
        (misread : WriteMisread partitionIdx sectorIdx (crc32 sector.bytes) sector.bytes lost a x u data) :
        Faithful (writeEffects config world a x u data)
          (writeEffects config world partitionIdx sectorIdx (crc32 sector.bytes) sector.bytes) :=
      (writeEffects_faithful _ _ _ _ _ _ _).mpr fun differs => kept ⟨a, x, u, data, misread, differs⟩
    rcases Nat.lt_or_ge lost 18 with inHead | inData
    · obtain ⟨a, b, first, second, x, u, index, last, shape, firstReads, secondReads, matched⟩ :=
        damaged_head partitionIdx sectorIdx (crc32 sector.bytes) (sector.bytes.getD 0 0) inHead
      have length := moved_length sector (by decide : 0 < flashSectorSize)
      rw [write_head _ _ _ inHead, shape]
      by_cases accepted : (a ^^^ b = 0xFF ∧ index) ∧ last
      · rw [(effects_execute_write a b firstReads secondReads length).1 accepted]
        exact same (.head (matched accepted))
      · exact .inl ((effects_execute_write a b firstReads secondReads length).2 accepted)
    · obtain ⟨rest, rfl⟩ := Nat.exists_eq_add_of_le inData
      have misread : WriteMisread partitionIdx sectorIdx (crc32 sector.bytes) sector.bytes (18 + rest) _ _ _ _ :=
        .sector (Nat.lt_of_add_lt_add_left inside)
      rw [misread_write misread]
      exact same misread

private theorem key_high {key : U16} (known : key < modchipSettingsKeysTotal) : byteAt key 1 = 0 := by
  have small : key < 4 := known
  simp only [byteAt]
  bv_omega

/-- A key that has moved up next to the first byte of a next frame is not known. -/
private theorem set_key_refused (a b c : U8) (value : U32) :
    effects (execute config (.kvSet, [a, b, c, byteAt value 0] ++ damaged value frameStart 0) world).2 = [] := by
  apply (effects_execute_set a b c _ (damaged_reads value frameStart (Nat.zero_lt_succ 7))).2
  intro accepted
  obtain ⟨⟨complement, known⟩, moved⟩ := accepted
  have start : byteAt value 0 = frameStart := Eq.symm moved
  have high := (xor_le16.mp complement).2
  rw [start] at high
  have zero := key_high known
  rw [byteAt_le16_one] at zero
  rw [zero] at high
  exact absurd high (by decide)

private theorem set_key_lost (key : U16) (value : U32) {lost : Nat} (inside : lost < 4) :
    effects (execute config (.kvSet, lostArgs (.settingsSet key value) lost) world).2 = [] := by
  rw [lostArgs, set_args]
  match lost, inside with
  | 0, _ | 1, _ | 2, _ | 3, _ => exact set_key_refused _ _ _ value

private theorem set_value_lost (key : U16) (value : U32) {lost : Nat} (inside : lost < 8) :
    (key < modchipSettingsKeysTotal ∧ Survives value frameStart lost →
      effects (execute config (.kvSet, lostArgs (.settingsSet key value) (4 + lost)) world).2 =
        (runSetter world (kvSetter key (shifted value lost))).2) ∧
    (¬ (key < modchipSettingsKeysTotal ∧ Survives value frameStart lost) →
      effects (execute config (.kvSet, lostArgs (.settingsSet key value) (4 + lost)) world).2 = []) := by
  have bytes : lostArgs (.settingsSet key value) (4 + lost) = [byteAt key 0, byteAt key 1,
      byteAt (key ^^^ 0xFFFF) 0, byteAt (key ^^^ 0xFFFF) 1] ++ damaged value frameStart lost := by
    rw [lostArgs, set_args, Nat.add_comm]
    rfl
  have whole : le16 (byteAt key 0) (byteAt key 1) ^^^
      le16 (byteAt (key ^^^ 0xFFFF) 0) (byteAt (key ^^^ 0xFFFF) 1) = 0xFFFF := by
    rw [le16_byteAt, le16_byteAt, xor_xor_self]
  have done := @effects_execute_set config world (byteAt key 0) (byteAt key 1) (byteAt (key ^^^ 0xFFFF) 0)
    (byteAt (key ^^^ 0xFFFF) 1) _ _ _ (damaged_reads value frameStart inside)
  rw [le16_byteAt] at done whole
  rw [bytes]
  exact ⟨fun accepted => done.1 ⟨⟨whole, accepted.1⟩, accepted.2⟩,
    fun refused => done.2 fun accepted => refused ⟨accepted.1.2, accepted.2⟩⟩

theorem set_faithful (key : U16) (value : U32) {lost : Nat} (inside : lost < 12) :
    Faithful (effects (execute config (.kvSet, lostArgs (.settingsSet key value) lost) world).2)
        (effects (runCall config (.settingsSet key value) world).2) ↔
      ¬ Slips config world lost (.settingsSet key value) := by
  rcases Nat.lt_or_ge lost 4 with inKey | inValue
  · rw [set_key_lost key value inKey]
    exact ⟨fun _ slips => absurd slips.2.1 (Nat.not_le.mpr inKey), fun _ => .inl rfl⟩
  · obtain ⟨rest, rfl⟩ := Nat.exists_eq_add_of_le inValue
    have done := @set_value_lost config world key value rest (Nat.lt_of_add_lt_add_left inside)
    simp only [Slips, Nat.add_sub_cancel_left, Nat.le_add_right, true_and]
    rw [effects_call_set]
    constructor
    · rintro faithful ⟨known, survives, differs⟩
      rw [done.1 ⟨known, survives⟩, if_pos known] at faithful
      rcases faithful with none | same
      · exact List.cons_ne_nil _ _ none
      · exact differs (Event.settingsSet.inj (List.head_eq_of_cons_eq same))
    · intro kept
      by_cases accepted : key < modchipSettingsKeysTotal ∧ Survives value frameStart rest
      · have same := Decidable.byContradiction fun differs => kept ⟨accepted.1, accepted.2, differs⟩
        rw [done.1 accepted, if_pos accepted.1, same]
        exact .inr rfl
      · exact .inl (done.2 accepted)

/-! Two bytes and their complements leave no room for a mistake. -/

private theorem lock_lost (lock : Bool) {lost : Nat} (inside : lost < 2) :
    effects (execute config (.writeLock, lostArgs (.setWriteLock lock) lost) world).2 = [] := by
  match lost, inside, lock with
  | 0, _, true | 0, _, false | 1, _, true | 1, _, false => rfl

private theorem reboot_lost (mode : U8) {lost : Nat} (inside : lost < 2) :
    effects (execute config (.reboot, lostArgs (.reboot mode) lost) world).2 = [] := by
  have refused (byte : U8) : effects (rebootBody ⟨byte, frameStart⟩ world).2 = [] := by
    have invalid : ¬ (byte ^^^ frameStart = 0xFF ∧ 0 ≤ byte ∧ byte < modchipRebootModeTotal) := by
      rintro ⟨complement, _, known⟩
      have whole := xor8.mp complement
      have undone : byte = ~~~frameStart := by
        rw [whole, BitVec.not_not]
      rw [undone] at known
      exact absurd known (by decide)
    rw [rebootBody]
    simp only [invalid, ite_false]
    rfl
  obtain rfl | rfl : lost = 0 ∨ lost = 1 := by omega
  · exact refused _
  · exact refused _

def IsStateful : Call → Prop
  | .setWriteLock _ | .writeFlashSector _ _ _ | .eraseFlashSector _ _ _ | .reboot _ | .settingsSet _ _ => True
  | _ => False

theorem lost_faithful {call : Call} (stateful : IsStateful call) {lost : Nat}
    (inside : lost < argLength (callCmd call)) :
    Faithful (effects (execute config (callCmd call, lostArgs call lost) world).2)
        (effects (runCall config call world).2) ↔ ¬ Slips config world lost call := by
  cases call
  case setWriteLock lock => exact ⟨fun _ slips => slips, fun _ => .inl (lock_lost lock inside)⟩
  case reboot mode => exact ⟨fun _ slips => slips, fun _ => .inl (reboot_lost mode inside)⟩
  case eraseFlashSector partitionIdx sectorIdx sectorCount =>
    exact erase_faithful partitionIdx sectorIdx sectorCount inside
  case writeFlashSector partitionIdx sectorIdx sector => exact write_faithful partitionIdx sectorIdx sector inside
  case settingsSet key value => exact set_faithful key value inside
  all_goals cases stateful

end Fruitchip.Firmware
