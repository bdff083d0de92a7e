import Fruitchip.Bootloader

/-! Power cuts during a firmware update. The first sector is erased first and
written last, so an interrupted copy never looks valid, except while the first
sector itself is being written: its checksum covers the first page only. -/

namespace Fruitchip.Bootloader
open Embedded

theorem applyAll_flashRangeProgram_take (offset : Nat) {data : List U8} {pages : Nat}
    (enough : flashPageSize * pages ≤ data.length) (flash : Flash) :
    applyAll ((flashRangeProgram offset data).take pages) flash =
      flash.program offset (data.take (flashPageSize * pages)) := by
  have positive : 0 < flashPageSize := by decide
  have counted : pages ≤ data.length / flashPageSize :=
    (Nat.le_div_iff_mul_le positive).mpr (by rwa [Nat.mul_comm])
  rw [flashRangeProgram, ← List.map_take, List.take_range, Nat.min_eq_left counted]
  clear counted
  induction pages with
  | zero => simp
  | succ pages ih =>
    have fits : flashPageSize * pages ≤ data.length := Nat.le_trans (Nat.mul_le_mul_left _ (Nat.le_succ _)) enough
    have split : data.take (flashPageSize * (pages + 1)) =
        data.take (flashPageSize * pages) ++ (data.drop (flashPageSize * pages)).take flashPageSize := by
      rw [Nat.mul_succ, List.take_add]
    have length : (data.take (flashPageSize * pages)).length = flashPageSize * pages := by
      rw [List.length_take, Nat.min_eq_left fits]
    rw [List.range_succ, List.map_append, applyAll_append, ih fits, split, Flash.program_append, length]
    rfl

theorem applyAll_flashRangeProgram (offset : Nat) {data : List U8} (sector : data.length = flashSectorSize)
    (flash : Flash) : applyAll (flashRangeProgram offset data) flash = flash.program offset data := by
  have whole : (flashRangeProgram offset data).take 16 = flashRangeProgram offset data := by
    apply List.take_of_length_le
    rw [flashRangeProgram, List.length_map, List.length_range, sector]
    decide
  have enough : flashPageSize * 16 ≤ data.length := by
    rw [sector]
    decide
  rw [← whole, applyAll_flashRangeProgram_take offset enough, List.take_of_length_le]
  rw [sector]
  decide

theorem flashRangeProgram_covers {offset address : Nat} {data : List U8} {op : FlashOp}
    (member : op ∈ flashRangeProgram offset data) (covered : op.covers address) :
    offset ≤ address ∧ address < offset + data.length := by
  obtain ⟨page, _, rfl⟩ := List.mem_map.mp member
  simp only [FlashOp.covers, List.length_take, List.length_drop] at covered
  omega

theorem copySector_covers {flash : Flash} {offset address : Nat} {op : FlashOp}
    (member : op ∈ copySector flash offset) (covered : op.covers address) :
    fwPartitionOffset + offset ≤ address ∧ address < fwPartitionOffset + offset + flashSectorSize := by
  simp only [copySector] at member
  split at member
  · cases member
  · rcases List.mem_cons.mp member with rfl | page
    · exact covered
    · have inside := flashRangeProgram_covers page covered
      rwa [Flash.read_length] at inside

theorem copySector_copies (flash : Flash) (offset : Nat) {index : Nat} (inside : index < flashSectorSize) :
    applyAll (copySector flash offset) flash (fwPartitionOffset + offset + index) =
      flash (updatePartitionOffset + offset + index) := by
  simp only [copySector]
  split
  next same => exact Flash.read_eq_iff.mp same index inside
  · have bound : index < (flash.read (updatePartitionOffset + offset) flashSectorSize).length := by
      rwa [Flash.read_length]
    have blank : (FlashOp.rangeErase (fwPartitionOffset + offset) flashSectorSize).apply flash
        (fwPartitionOffset + offset + index) = 0xFF :=
      Flash.erase_inside (Nat.le_add_right _ _) (Nat.add_lt_add_left inside _)
    rw [applyAll_cons, applyAll_flashRangeProgram _ (Flash.read_length _ _ _), Flash.program_erased bound blank]
    simp [Flash.read]

theorem copySectors_covers {flash : Flash} {offset : Nat} (aligned : offset % 4096 = 0)
    {op : FlashOp} (member : op ∈ copySectors flash offset) {address : Nat} (covered : op.covers address) :
    fwPartitionOffset + offset ≤ address ∧ address < fwPartitionOffset + fwPartitionSizeBytes := by
  have sectors : fwPartitionSizeBytes = 162 * flashSectorSize := rfl
  have positive : flashSectorSize = 4096 := rfl
  induction flash, offset using copySectors.induct with
  | case1 flash offset inside ops ih =>
    rw [copySectors, if_pos inside] at member
    rcases List.mem_append.mp member with here | later
    · have bounds := copySector_covers here covered
      omega
    · have bounds := ih (by omega) later
      omega
  | case2 flash offset outside =>
    rw [copySectors, if_neg outside] at member
    cases member

/-- After the loop the firmware partition holds the update, from the first
sector it looked at to the end. -/
theorem copySectors_copies (flash : Flash) {offset : Nat} (aligned : offset % 4096 = 0)
    {index : Nat} (low : offset ≤ index) (high : index < fwPartitionSizeBytes) :
    applyAll (copySectors flash offset) flash (fwPartitionOffset + index) =
      flash (updatePartitionOffset + index) := by
  have sectors : fwPartitionSizeBytes = 162 * flashSectorSize := rfl
  have positive : flashSectorSize = 4096 := rfl
  have apart : updatePartitionOffset = fwPartitionOffset + fwPartitionSizeBytes := rfl
  induction flash, offset using copySectors.induct with
  | case1 flash offset inside ops ih =>
    rw [copySectors, if_pos inside, applyAll_append]
    have update : applyAll ops flash (updatePartitionOffset + index) = flash (updatePartitionOffset + index) := by
      apply applyAll_outside
      intro op member covered
      have bounds := copySector_covers member covered
      omega
    rcases Nat.lt_or_ge index (offset + flashSectorSize) with here | later
    · have kept : applyAll (copySectors (applyAll ops flash) (offset + flashSectorSize)) (applyAll ops flash)
          (fwPartitionOffset + index) = applyAll ops flash (fwPartitionOffset + index) := by
        apply applyAll_outside
        intro op member covered
        have bounds := copySectors_covers (by omega) member covered
        omega
      obtain ⟨rest, rfl⟩ := Nat.exists_eq_add_of_le low
      have copied := copySector_copies flash offset (show rest < flashSectorSize by omega)
      rw [kept, ← Nat.add_assoc, ← Nat.add_assoc]
      exact copied
    · rw [ih (by omega) later, update]
  | case2 flash offset outside => omega

section Update

variable {flash : Flash}

/-- Everything before the first sector is written back. -/
def copyOps (flash : Flash) : List FlashOp :=
  eraseFirstSector :: copySectors (eraseFirstSector.apply flash) flashSectorSize

private theorem copyOps_covers {op : FlashOp} (member : op ∈ copyOps flash) {address : Nat}
    (covered : op.covers address) :
    fwPartitionOffset ≤ address ∧ address < fwPartitionOffset + fwPartitionSizeBytes := by
  rcases List.mem_cons.mp member with rfl | copied
  · have first : flashSectorSize ≤ fwPartitionSizeBytes := by decide
    simp only [eraseFirstSector, FlashOp.covers] at covered
    omega
  · have bounds := copySectors_covers (by decide) copied covered
    omega

private theorem copyOps_blank {steps : Nat} (some : 0 < steps) {index : Nat} (inside : index < flashSectorSize) :
    applyAll ((copyOps flash).take steps) flash (fwPartitionOffset + index) = 0xFF := by
  obtain ⟨rest, rfl⟩ := Nat.exists_eq_add_of_lt some
  rw [copyOps, Nat.zero_add, List.take_succ_cons, applyAll_cons, applyAll_outside]
  · exact Flash.erase_inside (Nat.le_add_right _ _) (Nat.add_lt_add_left inside _)
  · intro op member covered
    have bounds := copySectors_covers (by decide) (List.mem_of_mem_take member) covered
    omega

private theorem copyOps_copies {index : Nat} (low : flashSectorSize ≤ index) (high : index < fwPartitionSizeBytes) :
    applyAll (copyOps flash) flash (fwPartitionOffset + index) = flash (updatePartitionOffset + index) := by
  have apart : updatePartitionOffset = fwPartitionOffset + fwPartitionSizeBytes := rfl
  have first : flashSectorSize ≤ fwPartitionSizeBytes := by decide
  rw [copyOps, applyAll_cons, copySectors_copies _ (by decide) low high]
  apply FlashOp.apply_outside
  simp only [eraseFirstSector, FlashOp.covers]
  omega

private theorem copyOps_update (index : Nat) :
    applyAll (copyOps flash) flash (updatePartitionOffset + index) = flash (updatePartitionOffset + index) := by
  have apart : updatePartitionOffset = fwPartitionOffset + fwPartitionSizeBytes := rfl
  apply applyAll_outside
  intro op member covered
  have bounds := copyOps_covers member covered
  omega

private def firstSector (flash : Flash) : List U8 := flash.read updatePartitionOffset flashSectorSize

private theorem tryUpdateFirmware_valid (valid : isUpdateValid flash) :
    tryUpdateFirmware flash = copyOps flash ++ flashRangeProgram fwPartitionOffset (firstSector flash) := by
  have same : (applyAll (copyOps flash) flash).read updatePartitionOffset flashSectorSize = firstSector flash := by
    apply Flash.read_eq_iff.mpr
    intro index _
    exact copyOps_update index
  rw [copyOps, applyAll_cons] at same
  simp only [tryUpdateFirmware, valid, ite_true, same, copyOps]

private theorem pages_length : (flashRangeProgram fwPartitionOffset (firstSector flash)).length = 16 := by
  rw [flashRangeProgram, List.length_map, List.length_range, firstSector, Flash.read_length]
  decide

inductive Progress (flash : Flash) (steps : Nat) (after : Flash) : Prop where
  | untouched (none : steps = 0) (same : after = flash)
  | copying (some : 0 < steps) (blank : ∀ index < flashSectorSize, after (fwPartitionOffset + index) = 0xFF)
  | writing (pages : Nat) (some : 0 < pages) (position : steps + 16 = (tryUpdateFirmware flash).length + pages ∨ pages = 16)
      (image : ∀ index < fwPartitionSizeBytes, after (fwPartitionOffset + index) =
        if flashPageSize * pages ≤ index ∧ index < flashSectorSize then 0xFF
        else flash (updatePartitionOffset + index))

private theorem writing_image {pages : Nat} (few : pages ≤ 16) {index : Nat} (inside : index < fwPartitionSizeBytes) :
    applyAll ((flashRangeProgram fwPartitionOffset (firstSector flash)).take pages)
        (applyAll (copyOps flash) flash) (fwPartitionOffset + index) =
      if flashPageSize * pages ≤ index ∧ index < flashSectorSize then 0xFF
      else flash (updatePartitionOffset + index) := by
  have pageSize : flashPageSize = 256 := rfl
  have sectorSize : flashSectorSize = 4096 := rfl
  have fits : flashPageSize * pages ≤ 4096 := by
    rw [pageSize]
    omega
  have length : (firstSector flash).length = flashSectorSize := Flash.read_length _ _ _
  have taken : ((firstSector flash).take (flashPageSize * pages)).length = flashPageSize * pages := by
    rw [List.length_take, length]
    omega
  have blank {index : Nat} (first : index < flashSectorSize) :
      applyAll (copyOps flash) flash (fwPartitionOffset + index) = 0xFF := by
    have all : applyAll ((copyOps flash).take (copyOps flash).length) flash (fwPartitionOffset + index) = 0xFF :=
      copyOps_blank (Nat.succ_pos _) first
    rwa [List.take_length] at all
  rw [applyAll_flashRangeProgram_take _ (by omega)]
  rcases Nat.lt_or_ge index (flashPageSize * pages) with early | late
  · rw [if_neg (by omega), Flash.program_erased (by omega) (blank (by omega)), List.getElem_take]
    simp [firstSector, Flash.read]
  · rw [Flash.program_outside (by omega)]
    split
    next both => exact blank both.2
    next other => exact copyOps_copies (by omega) inside

theorem update_length (valid : isUpdateValid flash) :
    (tryUpdateFirmware flash).length = (copyOps flash).length + 16 := by
  rw [tryUpdateFirmware_valid valid, List.length_append, pages_length]

theorem update_writing (valid : isUpdateValid flash) {steps pages : Nat} (few : pages ≤ 16)
    (position : steps + 16 = (tryUpdateFirmware flash).length + pages) {index : Nat}
    (inside : index < fwPartitionSizeBytes) :
    applyAll ((tryUpdateFirmware flash).take steps) flash (fwPartitionOffset + index) =
      if flashPageSize * pages ≤ index ∧ index < flashSectorSize then 0xFF
      else flash (updatePartitionOffset + index) := by
  obtain rfl : steps = (copyOps flash).length + pages := by
    rw [update_length valid] at position
    omega
  rw [tryUpdateFirmware_valid valid, List.take_length_add_append, applyAll_append]
  exact writing_image few inside

theorem update_complete (valid : isUpdateValid flash) {index : Nat} (inside : index < fwPartitionSizeBytes) :
    applyAll (tryUpdateFirmware flash) flash (fwPartitionOffset + index) = flash (updatePartitionOffset + index) := by
  have sectorSize : flashSectorSize = 4096 := rfl
  have pageSize : flashPageSize = 256 := rfl
  have written := update_writing valid (Nat.le_refl 16) rfl inside
  rwa [List.take_length, if_neg (by omega)] at written

theorem update_progress (valid : isUpdateValid flash) (steps : Nat) :
    Progress flash steps (applyAll ((tryUpdateFirmware flash).take steps) flash) := by
  have total := update_length valid
  rcases Nat.eq_zero_or_pos steps with none | some
  · apply Progress.untouched none
    rw [none]
    rfl
  · rcases Nat.lt_or_ge (copyOps flash).length steps with later | earlier
    · obtain ⟨pages, rfl⟩ := Nat.exists_eq_add_of_le (Nat.le_of_lt later)
      rcases Nat.le_total pages 16 with few | done
      · apply Progress.writing pages (by omega) (.inl (by omega))
        intro index inside
        exact update_writing valid few (by omega) inside
      · apply Progress.writing 16 (by omega) (.inr rfl)
        intro index inside
        have sectorSize : flashSectorSize = 4096 := rfl
        have pageSize : flashPageSize = 256 := rfl
        rw [List.take_of_length_le (by omega), update_complete valid inside, if_neg (by omega)]
    · apply Progress.copying some
      intro index inside
      rw [tryUpdateFirmware_valid valid, List.take_append_of_le_length earlier]
      exact copyOps_blank some inside

theorem tryUpdateFirmware_covers {op : FlashOp} (member : op ∈ tryUpdateFirmware flash) {address : Nat}
    (covered : op.covers address) :
    fwPartitionOffset ≤ address ∧ address < fwPartitionOffset + fwPartitionSizeBytes := by
  have first : flashSectorSize ≤ fwPartitionSizeBytes := by decide
  cases valid : isUpdateValid flash with
  | false =>
    rw [tryUpdateFirmware, valid] at member
    cases member
  | true =>
    rw [tryUpdateFirmware_valid valid] at member
    rcases List.mem_append.mp member with copied | page
    · exact copyOps_covers copied covered
    · have bounds := flashRangeProgram_covers page covered
      rw [firstSector, Flash.read_length] at bounds
      omega

end Update

/-- The checksum of an image looks at its first page only. -/
theorem checksum_congr {first second : Flash} {x y : Nat}
    (same : ∀ index < 256, first (x + index) = second (y + index)) :
    (dmaCrc32 (first.read x 252) 0xffffffff = bl2crc first x) ↔
      (dmaCrc32 (second.read y 252) 0xffffffff = bl2crc second y) := by
  have data : first.read x 252 = second.read y 252 :=
    Flash.read_eq_iff.mpr fun index inside => same index (by omega)
  have word : bl2crc first x = bl2crc second y := by
    rw [bl2crc, bl2crc, same 0xfc (by decide), same 0xfd (by decide), same 0xfe (by decide), same 0xff (by decide)]
  rw [data, word]

theorem isUpdateValid_congr {first second : Flash}
    (same : ∀ index < updatePartitionSizeBytes,
      first (updatePartitionOffset + index) = second (updatePartitionOffset + index)) :
    isUpdateValid first = isUpdateValid second := by
  have page : 256 ≤ updatePartitionSizeBytes := by decide
  rw [isUpdateValid, isUpdateValid, decide_eq_decide]
  exact checksum_congr fun index inside => same index (by omega)

/-- The checksum register after blank bytes. Testing it in each step keeps its
evaluation from piling up. -/
private def blankRegister : Nat → U32 → U32
  | 0, crc => crc
  | count + 1, crc =>
    if crc = 0 then blankRegister count (Crc.shiftByte 0 0xFF) else blankRegister count (Crc.shiftByte crc 0xFF)

private theorem crc32_blank (count : Nat) (crc : U32) :
    Crc.crc32 crc (List.replicate count 0xFF) = blankRegister count crc := by
  induction count generalizing crc with
  | zero => rfl
  | succ count ih =>
    rw [blankRegister, ← ih, ← ih]
    split
    next zero => rw [zero]; rfl
    · rfl

private theorem blank_read (offset size : Nat) :
    Flash.read (fun _ => 0xFF) offset size = List.replicate size 0xFF := by
  rw [Flash.read, List.map_const', List.length_range]

private theorem checksum_blank {flash : Flash} {x : Nat}
    (blank : ∀ index < flashSectorSize, flash (x + index) = 0xFF) :
    ¬ dmaCrc32 (flash.read x 252) 0xffffffff = bl2crc flash x := by
  have page : 256 ≤ flashSectorSize := by decide
  have register : blankRegister 252 0xffffffff ≠ 0xffffffff := by decide +kernel
  have never : ¬ dmaCrc32 (Flash.read (fun _ => 0xFF) x 252) 0xffffffff = bl2crc (fun _ => 0xFF) x := by
    have ones : le32 0xFF 0xFF 0xFF 0xFF = 0xffffffff := by decide
    rw [dmaCrc32, blank_read, crc32_blank, bl2crc, ones]
    exact register
  intro matching
  exact never ((checksum_congr fun index inside => blank index (by omega)).mp matching)

theorem isFwValid_blank {flash : Flash}
    (blank : ∀ index < flashSectorSize, flash (fwPartitionOffset + index) = 0xFF) : isFwValid flash = false :=
  decide_eq_false (checksum_blank blank)

theorem isUpdateValid_blank {flash : Flash}
    (blank : ∀ index < flashSectorSize, flash (updatePartitionOffset + index) = 0xFF) : isUpdateValid flash = false :=
  decide_eq_false (checksum_blank blank)

private theorem fwImage_eq {flash first : Flash}
    (same : ∀ index < fwPartitionSizeBytes, flash (fwPartitionOffset + index) = first (updatePartitionOffset + index)) :
    fwImage flash = updateImage first := Flash.read_eq_iff.mpr same

/-- Power is lost when the first page of the first sector is written and a later
page that is not blank is not. -/
def Boot.Tears (boot : Boot) (flash : Flash) : Prop :=
  ∃ pages, 0 < pages ∧ pages < 16 ∧ boot.steps + 16 = (boot.ops flash).length + pages ∧
    ∃ index, flashPageSize * pages ≤ index ∧ index < flashSectorSize ∧
      flash (updatePartitionOffset + index) ≠ 0xFF

/-- Whenever the first sector is torn, the next boots ask for the update, until
one of them gets to erase the sector. -/
def Careful : Prop → Flash → List Boot → Prop
  | _, _, [] => True
  | torn, flash, boot :: rest =>
    (torn → boot.scratch0 = modchipUpdateMagic) ∧
      Careful (boot.Tears flash ∨ torn ∧ boot.steps = 0) (boot.flash flash) rest

/-- What a power cut can leave behind. -/
structure Recoverable (first flash : Flash) (torn : Prop) : Prop where
  update : ∀ index < updatePartitionSizeBytes,
    flash (updatePartitionOffset + index) = first (updatePartitionOffset + index)
  firmware : fwImage flash = fwImage first ∨
    (∀ index < flashSectorSize, flash (fwPartitionOffset + index) = 0xFF) ∨
    fwImage flash = updateImage first ∨ torn

theorem Boot.flash_update (boot : Boot) (flash : Flash) (index : Nat) :
    boot.flash flash (updatePartitionOffset + index) = flash (updatePartitionOffset + index) := by
  have apart : updatePartitionOffset = fwPartitionOffset + fwPartitionSizeBytes := rfl
  apply applyAll_outside
  intro op member covered
  have issued : op ∈ tryUpdateFirmware flash := by
    have whole := List.mem_of_mem_take member
    rw [Boot.ops, main] at whole
    split at whole
    · exact whole
    · cases whole
  have bounds := tryUpdateFirmware_covers issued covered
  omega

private theorem Boot.idle {boot : Boot} {flash : Flash}
    (quiet : ¬ (boot.scratch0 = modchipUpdateMagic ∨ ¬ isFwValid flash)) :
    boot.ops flash = [] ∧ boot.flash flash = flash := by
  have ops : boot.ops flash = [] := if_neg quiet
  refine ⟨ops, ?_⟩
  rw [Boot.flash, ops, List.take_nil, applyAll_nil]

private theorem Boot.updating {boot : Boot} {flash : Flash}
    (updating : boot.scratch0 = modchipUpdateMagic ∨ ¬ isFwValid flash) :
    boot.ops flash = tryUpdateFirmware flash ∧
      boot.flash flash = applyAll ((tryUpdateFirmware flash).take boot.steps) flash := by
  have ops : boot.ops flash = tryUpdateFirmware flash := if_pos updating
  exact ⟨ops, by rw [Boot.flash, ops]⟩

theorem Recoverable.boot {first flash : Flash} {torn : Prop} (valid : isUpdateValid first)
    (recoverable : Recoverable first flash torn) {boot : Boot}
    (asked : torn → boot.scratch0 = modchipUpdateMagic) :
    Recoverable first (boot.flash flash) (boot.Tears flash ∨ torn ∧ boot.steps = 0) ∧
      (boot.Starts flash → fwImage (boot.flash flash) = fwImage first ∨
        fwImage (boot.flash flash) = updateImage first) := by
  obtain ⟨update, firmware⟩ := recoverable
  have untouched : ∀ index < updatePartitionSizeBytes,
      boot.flash flash (updatePartitionOffset + index) = first (updatePartitionOffset + index) := by
    intro index inside
    rw [boot.flash_update, update index inside]
  have ready : isUpdateValid flash := by rw [isUpdateValid_congr update, valid]
  by_cases updating : boot.scratch0 = modchipUpdateMagic ∨ ¬ isFwValid flash
  · obtain ⟨ops, after⟩ := Boot.updating updating
    constructor
    · refine ⟨untouched, ?_⟩
      cases update_progress ready boot.steps with
      | untouched none same =>
        rw [after, same]
        rcases firmware with old | blank | new | torn
        · exact .inl old
        · exact .inr (.inl blank)
        · exact .inr (.inr (.inl new))
        · exact .inr (.inr (.inr (.inr ⟨torn, none⟩)))
      | copying some blank =>
        rw [after]
        exact .inr (.inl blank)
      | writing pages some position image =>
        rw [after]
        right
        right
        by_cases torn : ∃ index, flashPageSize * pages ≤ index ∧ index < flashSectorSize ∧
            flash (updatePartitionOffset + index) ≠ 0xFF
        · have few : pages < 16 := by
            obtain ⟨index, low, high, _⟩ := torn
            simp only [flashPageSize, flashSectorSize] at low high
            omega
          refine .inr (.inl ⟨pages, some, few, ?_, torn⟩)
          rw [ops]
          rcases position with exact | full
          · exact exact
          · omega
        · left
          apply fwImage_eq
          intro index inside
          rw [image index inside, ← update index inside]
          split
          next rest =>
            exact Decidable.byContradiction fun differs => torn ⟨index, rest.1, rest.2, Ne.symm differs⟩
          · rfl
    · rintro ⟨complete, _⟩
      right
      apply fwImage_eq
      intro index inside
      rw [ops] at complete
      rw [after, List.take_of_length_le complete, update_complete ready inside, update index inside]
  · obtain ⟨_, after⟩ := Boot.idle updating
    have whole : fwImage flash = fwImage first ∨ fwImage flash = updateImage first := by
      rcases firmware with old | blank | new | torn
      · exact .inl old
      · exact absurd (.inr (by simp [isFwValid_blank blank])) updating
      · exact .inr new
      · exact absurd (.inl (asked torn)) updating
    constructor
    · refine ⟨untouched, ?_⟩
      rw [after]
      rcases whole with old | new
      · exact .inl old
      · exact .inr (.inr (.inl new))
    · intro _
      rw [after]
      exact whole

private theorem Recoverable.boots {first flash : Flash} {torn : Prop} (valid : isUpdateValid first)
    (recoverable : Recoverable first flash torn) {boots : List Boot} {boot : Boot}
    (careful : Careful torn flash (boots ++ [boot])) (starts : boot.Starts (runBoots flash boots)) :
    fwImage (boot.flash (runBoots flash boots)) = fwImage first ∨
      fwImage (boot.flash (runBoots flash boots)) = updateImage first := by
  induction boots generalizing flash torn with
  | nil => exact (recoverable.boot valid careful.1).2 starts
  | cons next rest ih => exact ih (recoverable.boot valid careful.1).1 careful.2 starts

/-- Whatever power cuts interrupt the update, the firmware that is started is
the old one or the new one, provided that no torn first sector is booted
without asking for the update. -/
theorem update_crash_safe {first : Flash} (valid : isUpdateValid first) {boots : List Boot} {boot : Boot}
    (careful : Careful False first (boots ++ [boot])) (starts : boot.Starts (runBoots first boots)) :
    fwImage (boot.flash (runBoots first boots)) = fwImage first ∨
      fwImage (boot.flash (runBoots first boots)) = updateImage first :=
  Recoverable.boots valid ⟨fun _ _ => rfl, .inl rfl⟩ careful starts

/-- Two images that are blank but for the checksum and one byte of the second page. -/
def tornFlash : Flash := fun address =>
  if fwPartitionOffset + 252 ≤ address ∧ address < fwPartitionOffset + 256 then
    byteAt (0x0b8fd31a : U32) (address - (fwPartitionOffset + 252))
  else if updatePartitionOffset + 252 ≤ address ∧ address < updatePartitionOffset + 256 then
    byteAt (0x0b8fd31a : U32) (address - (updatePartitionOffset + 252))
  else if address = fwPartitionOffset + 256 then 0x11
  else if address = updatePartitionOffset + 256 then 0x22
  else 0xFF

private theorem blank_checksum : Crc.crc32 0xffffffff (List.replicate 252 0xFF) = 0x0b8fd31a := by
  rw [crc32_blank]
  decide +kernel

theorem tornFlash_blank {address : Nat}
    (low : ∀ offset, offset = fwPartitionOffset ∨ offset = updatePartitionOffset →
      address < offset + 252 ∨ offset + 256 < address) : tornFlash address = 0xFF := by
  have first := low fwPartitionOffset (.inl rfl)
  have second := low updatePartitionOffset (.inr rfl)
  unfold tornFlash
  split
  · omega
  · split
    · omega
    · split
      · omega
      · split
        · omega
        · rfl

private theorem tornFlash_data {offset : Nat} (image : offset = fwPartitionOffset ∨ offset = updatePartitionOffset) :
    Crc.crc32 0xffffffff (tornFlash.read offset 252) = 0x0b8fd31a := by
  have apart : updatePartitionOffset = fwPartitionOffset + 663552 := rfl
  have data : tornFlash.read offset 252 = List.replicate 252 0xFF := by
    rw [← blank_read offset]
    apply Flash.read_eq_iff.mpr
    intro index inside
    apply tornFlash_blank
    rintro other (rfl | rfl)
    · omega
    · omega
  rw [data, blank_checksum]

theorem tornFlash_update : isUpdateValid tornFlash := by
  rw [isUpdateValid, decide_eq_true_iff, dmaCrc32, tornFlash_data (.inr rfl)]
  decide

theorem tornFlash_firmware : isFwValid tornFlash := by
  rw [isFwValid, decide_eq_true_iff, dmaCrc32, tornFlash_data (.inl rfl)]
  decide

private def cutBoot : Boot := ⟨modchipUpdateMagic, 1⟩

private def againBoot (flash : Flash) : Boot := ⟨0, (tryUpdateFirmware (cutBoot.flash flash)).length⟩

private theorem cut_recovers {flash : Flash} (valid : isUpdateValid flash) :
    Careful False flash ([cutBoot] ++ [againBoot flash]) ∧
      (againBoot flash).Starts (runBoots flash [cutBoot]) := by
  obtain ⟨ops, after⟩ := @Boot.updating cutBoot flash (.inl rfl)
  have total := update_length valid
  have copying : 0 < (copyOps flash).length := Nat.succ_pos _
  have blank : isFwValid (cutBoot.flash flash) = false := by
    apply isFwValid_blank
    intro index inside
    have one : cutBoot.steps = 1 := rfl
    rw [after, one, tryUpdateFirmware_valid valid, List.take_append_of_le_length copying]
    exact copyOps_blank Nat.one_pos inside
  have update : isUpdateValid (cutBoot.flash flash) := by
    rw [isUpdateValid_congr fun index _ => cutBoot.flash_update flash index, valid]
  obtain ⟨finish, finished⟩ := @Boot.updating (againBoot flash) (cutBoot.flash flash) (.inr (by simp [blank]))
  constructor
  · refine ⟨False.elim, ?_, trivial⟩
    rintro (⟨pages, some, few, position, _⟩ | ⟨never, _⟩)
    · have one : cutBoot.steps = 1 := rfl
      rw [ops, total] at position
      omega
    · exact never.elim
  · constructor
    · rw [runBoots_cons, runBoots_nil, finish]
      exact Nat.le_refl _
    · have updated := update
      rw [runBoots_cons, runBoots_nil, finished, tryStartFirmware]
      rw [isUpdateValid, decide_eq_true_iff] at update
      rw [isFwValid, decide_eq_true_iff]
      refine (checksum_congr fun index inside => ?_).mpr update
      have page : 256 ≤ fwPartitionSizeBytes := by decide
      have all : (againBoot flash).steps = (tryUpdateFirmware (cutBoot.flash flash)).length := rfl
      rw [all, List.take_length, update_complete updated (by omega)]

theorem update_crash_safe_interrupted :
    fwImage ((againBoot tornFlash).flash (runBoots tornFlash [cutBoot])) = fwImage tornFlash ∨
      fwImage ((againBoot tornFlash).flash (runBoots tornFlash [cutBoot])) = updateImage tornFlash :=
  update_crash_safe tornFlash_update (cut_recovers tornFlash_update).1 (cut_recovers tornFlash_update).2

def tornBoot (flash : Flash) : Boot := ⟨modchipUpdateMagic, (tryUpdateFirmware flash).length - 15⟩

def plainBoot : Boot := ⟨0, 0⟩

private theorem torn_image {flash : Flash} (update : isUpdateValid flash) {index : Nat}
    (inside : index < fwPartitionSizeBytes) :
    (tornBoot flash).flash flash (fwPartitionOffset + index) =
      if flashPageSize * 1 ≤ index ∧ index < flashSectorSize then 0xFF else flash (updatePartitionOffset + index) := by
  have total := update_length update
  rw [(Boot.updating (.inl rfl)).2]
  exact update_writing update (by decide) (by dsimp only [tornBoot]; omega) inside

private theorem torn_valid {flash : Flash} (update : isUpdateValid flash) :
    isFwValid ((tornBoot flash).flash flash) := by
  have page : 256 < fwPartitionSizeBytes := by decide
  have image {index : Nat} (inside : index < fwPartitionSizeBytes) := torn_image update inside
  rw [isUpdateValid, decide_eq_true_iff] at update
  rw [isFwValid, decide_eq_true_iff]
  refine (checksum_congr fun index inside => ?_).mpr update
  rw [image (by omega), if_neg (by simp only [flashPageSize]; omega)]

private theorem torn_starts {flash : Flash} (update : isUpdateValid flash) :
    plainBoot.Starts (runBoots flash [tornBoot flash]) ∧
      plainBoot.flash (runBoots flash [tornBoot flash]) (fwPartitionOffset + 256) = 0xFF := by
  have page : 256 < fwPartitionSizeBytes := by decide
  have valid := torn_valid update
  obtain ⟨none, same⟩ := @Boot.idle plainBoot ((tornBoot flash).flash flash) (by
    rw [valid]
    decide)
  rw [runBoots_cons, runBoots_nil, Boot.Starts, none, same]
  refine ⟨⟨Nat.zero_le _, valid⟩, ?_⟩
  rw [torn_image update page]
  exact if_pos ⟨by decide, by decide⟩

/-- The next boot starts what is neither image. -/
theorem torn_sector_starts :
    isFwValid tornFlash ∧ isUpdateValid tornFlash ∧
      plainBoot.Starts (runBoots tornFlash [tornBoot tornFlash]) ∧
      fwImage (plainBoot.flash (runBoots tornFlash [tornBoot tornFlash])) ≠ fwImage tornFlash ∧
      fwImage (plainBoot.flash (runBoots tornFlash [tornBoot tornFlash])) ≠ updateImage tornFlash := by
  have page : 256 < fwPartitionSizeBytes := by decide
  obtain ⟨starts, left⟩ := torn_starts tornFlash_update
  refine ⟨tornFlash_firmware, tornFlash_update, starts, ?_, ?_⟩
  · intro old
    have byte := Flash.read_eq_iff.mp old 256 page
    have stored : tornFlash (fwPartitionOffset + 256) = 0x11 := by decide
    rw [left, stored] at byte
    exact absurd byte (by decide)
  · intro new
    have byte := Flash.read_eq_iff.mp new 256 page
    have stored : tornFlash (updatePartitionOffset + 256) = 0x22 := by decide
    rw [left, stored] at byte
    exact absurd byte (by decide)

end Fruitchip.Bootloader
