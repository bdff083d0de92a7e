import Fruitchip.Proofs.SectorBounds
import Fruitchip.Proofs.SectorCommands

/-! What the answers of the sector commands are worth: which sectors can be
written at all, and when an erase that is acknowledged has erased what it was
asked to. -/

namespace Fruitchip.Firmware
open Embedded Client

variable {config : Config} {partitionIdx : U8} {sectorIdx : U32} {base size : Nat}

/-- Frames of a command that are answered with an error change no byte of flash. -/
def RefusalsHarmless (config : Config) (cmd : Cmd) : Prop :=
  ∀ (start : FirmwareState) (args : List U8), start.writeHandler = .idle → args.length = argLength cmd →
    AnswersWith config ((machine config).run start (cmd.opcode ++ args)) modchipCmdResultErr →
    ((machine config).run start (cmd.opcode ++ args)).1.world.flash = start.world.flash

/-- A command body that changes flash before it answers OK only. -/
def Careful (result : World × List Event) (world : World) : Prop :=
  (∃ next, Finishes result next modchipCmdResultOk) ∨ Finishes result world modchipCmdResultErr

theorem careful_harmless {cmd : Cmd}
    (careful : ∀ args world, Careful (execute config (cmd, args) world) world) : RefusalsHarmless config cmd := by
  intro start args idle length refused
  obtain ⟨_, world, events⟩ := run_frame config idle length
  rw [world]
  rcases careful args start.world with ⟨next, done⟩ | kept
  · have accepted : AnswersWith config ((machine config).run start (cmd.opcode ++ args)) modchipCmdResultOk := by
      apply Finishes.answersWith
      rw [events]
      exact done
    exact absurd (refused.unique accepted) (by decide)
  · rw [kept.world]

theorem write_careful (s : FlashStatics) (world : World) : Careful (writeFlashSectorBody config s world) world := by
  simp only [writeFlashSectorBody]
  split
  · refine .inl ⟨_, rfl, _, ?_, rfl⟩
    intro event member
    rcases List.mem_append.mp member with checked | changed
    · exact crc_silent _ _ event checked
    · exact flash_silent _ event changed
  · exact .inr ⟨rfl, _, crc_silent _ _, rfl⟩

theorem erase_careful (s : FlashStatics) (world : World) : Careful (eraseFlashSectorBody config s world) world := by
  simp only [eraseFlashSectorBody]
  split
  · exact .inl ⟨_, rfl, _, flash_silent _, rfl⟩
  · exact .inr ⟨rfl, [], List.forall_mem_nil _, rfl⟩

theorem write_refusals_harmless (config : Config) : RefusalsHarmless config .writeFlashSector :=
  careful_harmless fun _ world => write_careful _ world

theorem erase_refusals_harmless (config : Config) : RefusalsHarmless config .eraseFlashSector :=
  careful_harmless fun _ world => erase_careful _ world

theorem sectorAddr_bounds (bounds : partitionBounds config partitionIdx = some (base, size)) (sectorIdx : U32) :
    let sectorSize := BitVec.ofNat 32 flashSectorSize
    let flashOffset := BitVec.ofNat 32 base + sectorIdx * sectorSize
    sectorAddr config partitionIdx sectorIdx =
      (flashOffset, decide (flashOffset + sectorSize < BitVec.ofNat 32 base + BitVec.ofNat 32 size)) := by
  unfold partitionBounds at bounds
  split at bounds
  next update =>
    cases bounds
    rw [sectorAddr, if_pos update]
  next other =>
    split at bounds
    next apps =>
      cases bounds
      rw [sectorAddr, if_neg other, if_pos apps]
    · cases bounds

theorem partitionSize_bounds (bounds : partitionBounds config partitionIdx = some (base, size)) :
    (partitionSize config partitionIdx).toNat = size := by
  obtain ⟨small, _⟩ := bounds_small bounds
  have word : (BitVec.ofNat 32 size).toNat = size := by
    apply toNat_ofNat_of_lt
    omega
  unfold partitionBounds at bounds
  split at bounds
  next update =>
    cases bounds
    rw [update]
    exact word
  next other =>
    split at bounds
    next apps =>
      cases bounds
      rw [apps]
      exact word
    · cases bounds

theorem sectorAddr_inside (bounds : partitionBounds config partitionIdx = some (base, size))
    (inside : (sectorIdx.toNat + 1) * flashSectorSize ≤ size) :
    sectorStart config partitionIdx sectorIdx = base + sectorIdx.toNat * flashSectorSize ∧
      ((sectorAddr config partitionIdx sectorIdx).2 = true ↔ (sectorIdx.toNat + 1) * flashSectorSize < size) := by
  obtain ⟨small, _⟩ := bounds_small bounds
  have sector : flashSectorSize = 4096 := rfl
  have sectorWord : (BitVec.ofNat 32 4096).toNat = 4096 := rfl
  have baseWord : (BitVec.ofNat 32 base).toNat = base := by
    apply toNat_ofNat_of_lt
    omega
  have sizeWord : (BitVec.ofNat 32 size).toNat = size := by
    apply toNat_ofNat_of_lt
    omega
  rw [sectorStart, sectorAddr_bounds bounds]
  rw [sector] at inside ⊢
  have offset : (sectorIdx * BitVec.ofNat 32 4096).toNat = sectorIdx.toNat * 4096 := by
    rw [BitVec.toNat_mul, sectorWord]
    omega
  dsimp only
  rw [decide_eq_true_iff, BitVec.lt_def]
  simp only [BitVec.toNat_add, offset, sectorWord, baseWord, sizeWord]
  omega

/-- The frame is answered OK, the sector holds what was sent and everything else
what it held before. -/
structure SectorWritten (config : Config) (before : FirmwareState) (start : Nat) (bytes : List U8)
    (after : FirmwareState × List Event) : Prop where
  acknowledged : AnswersWith config after modchipCmdResultOk
  sector : after.1.world.flash.read start flashSectorSize = bytes
  outside : ∀ address, address < start ∨ start + flashSectorSize ≤ address →
    after.1.world.flash address = before.world.flash address

/-- Unlocked, every sector but the last one of a partition can be written, with
any contents over any contents. -/
theorem write_sector_exact_iff (config : Config) {start : FirmwareState} (idle : start.writeHandler = .idle)
    (unlocked : start.world.flashWriteLock = false)
    (bounds : partitionBounds config partitionIdx = some (base, size))
    (inside : (sectorIdx.toNat + 1) * flashSectorSize ≤ (partitionSize config partitionIdx).toNat) (sector : Sector) :
    (SectorWritten config start (base + sectorIdx.toNat * flashSectorSize) sector.bytes
        ((machine config).run start (Call.writeFlashSector partitionIdx sectorIdx sector).poked) ∧
      RefusalsHarmless config .writeFlashSector) ↔
    (sectorIdx.toNat + 1) * flashSectorSize < (partitionSize config partitionIdx).toNat := by
  rw [partitionSize_bounds bounds] at inside ⊢
  obtain ⟨place, valid⟩ := sectorAddr_inside bounds inside
  constructor
  · rintro ⟨written, _⟩
    apply valid.mp
    apply Decidable.not_not.mp
    intro invalid
    have refuses : ¬ Accepts config start.world partitionIdx sectorIdx := fun accepts => invalid accepts.valid
    obtain ⟨refused, _⟩ := call_finishes idle (write_refused refuses sector)
    exact absurd (written.acknowledged.unique refused) (by decide)
  · intro before
    have accepts : Accepts config start.world partitionIdx sectorIdx := ⟨unlocked, valid.mpr before⟩
    obtain ⟨flash, finishes, bytes, outside⟩ := write_accepted accepts sector
    obtain ⟨acknowledged, world⟩ := call_finishes idle finishes
    rw [place] at bytes outside
    refine ⟨⟨acknowledged, ?_, ?_⟩, write_refusals_harmless config⟩
    · rw [world]
      exact bytes
    · rw [world]
      exact outside

def unlockedFirmware (flash : Flash) : FirmwareState :=
  let firmware := FirmwareState.powerUp flash ⟨.defaults, WearLeveling.clearCache⟩
  { firmware with world.flashWriteLock := false }

def blankSector : Sector := ⟨List.replicate flashSectorSize 0xFF, List.length_replicate⟩

theorem write_sector_exact_first :
    (SectorWritten default (unlockedFirmware fun _ => 0) (updatePartitionOffset + (0 : U32).toNat * flashSectorSize)
        blankSector.bytes ((machine default).run (unlockedFirmware fun _ => 0)
          (Call.writeFlashSector modchipPartitionIdxFwUpdate 0 blankSector).poked) ∧
      RefusalsHarmless default .writeFlashSector) ↔
    ((0 : U32).toNat + 1) * flashSectorSize < (partitionSize default modchipPartitionIdxFwUpdate).toNat :=
  write_sector_exact_iff default rfl rfl
    (show partitionBounds default modchipPartitionIdxFwUpdate =
      some (updatePartitionOffset, updatePartitionSizeBytes) from rfl) (by decide) blankSector

/-- The last sector of the update partition is refused. -/
theorem last_sector_refused :
    ((161 : U32).toNat + 1) * flashSectorSize ≤ (partitionSize default modchipPartitionIdxFwUpdate).toNat ∧
      ¬ SectorWritten default (unlockedFirmware fun _ => 0)
        (updatePartitionOffset + (161 : U32).toNat * flashSectorSize) blankSector.bytes
        ((machine default).run (unlockedFirmware fun _ => 0)
          (Call.writeFlashSector modchipPartitionIdxFwUpdate 161 blankSector).poked) := by
  refine ⟨by decide, ?_⟩
  intro written
  have refuses : ¬ Accepts default (unlockedFirmware fun _ => 0).world modchipPartitionIdxFwUpdate 161 :=
    fun accepts => absurd accepts.valid (by decide)
  obtain ⟨refused, _⟩ := call_finishes rfl (write_refused refuses blankSector)
  exact absurd (written.acknowledged.unique refused) (by decide)

/-- The first address of a sector, as the partition and the index name it. -/
def namedStart (config : Config) (partitionIdx : U8) (sectorIdx : U32) : Nat :=
  ((partitionBounds config partitionIdx).elim 0 (·.1)) + sectorIdx.toNat * flashSectorSize

/-- The bytes of the sectors that an erase names. -/
def Named (config : Config) (partitionIdx : U8) (sectorIdx sectorCount : U32) (address : Nat) : Prop :=
  namedStart config partitionIdx sectorIdx ≤ address ∧
    address < namedStart config partitionIdx sectorIdx + sectorCount.toNat * flashSectorSize

/-- An erase that is answered OK has erased the sectors it names and nothing else. -/
structure EraseHonest (config : Config) (before : FirmwareState) (partitionIdx : U8) (sectorIdx sectorCount : U32)
    (after : FirmwareState × List Event) : Prop where
  blank : AnswersWith config after modchipCmdResultOk →
    ∀ address, Named config partitionIdx sectorIdx sectorCount address → after.1.world.flash address = 0xFF
  outside : AnswersWith config after modchipCmdResultOk →
    ∀ address, ¬ Named config partitionIdx sectorIdx sectorCount address →
      after.1.world.flash address = before.world.flash address

/-- What an accepted erase needs to find. If it erases nothing, the named
sectors have to be blank already. If it erases, then no address may have
wrapped, and what the 32-bit length leaves out has to be blank. -/
structure EraseFits (config : Config) (flash : Flash) (partitionIdx : U8) (sectorIdx sectorCount : U32) : Prop where
  idle : TestedBlank config flash partitionIdx sectorIdx ∨ erasedLength sectorCount = 0 →
    ∀ address, Named config partitionIdx sectorIdx sectorCount address → flash address = 0xFF
  erasing : ¬ TestedBlank config flash partitionIdx sectorIdx → erasedLength sectorCount ≠ 0 →
    namedStart config partitionIdx sectorIdx < 2 ^ 32 ∧
      ∀ address, namedStart config partitionIdx sectorIdx + erasedLength sectorCount ≤ address →
        Named config partitionIdx sectorIdx sectorCount address → flash address = 0xFF

theorem sectorStart_named (valid : (sectorAddr config partitionIdx sectorIdx).2 = true) :
    sectorStart config partitionIdx sectorIdx = namedStart config partitionIdx sectorIdx % 2 ^ 32 := by
  obtain ⟨base, size, bounds, start⟩ := sectorAddr_valid valid
  have sector : flashSectorSize = 4096 := rfl
  rw [sectorStart, start, namedStart, bounds, sectorOffset, BitVec.toNat_mul, sector]
  show (base + _ % 2 ^ 32) % 2 ^ 32 = (base + _) % 2 ^ 32
  have word : (BitVec.ofNat 32 4096).toNat = 4096 := rfl
  rw [word]
  omega

theorem erasedLength_cases (sectorCount : U32) :
    (erasedLength sectorCount = 0 ∨ flashSectorSize ≤ erasedLength sectorCount) ∧
      erasedLength sectorCount ≤ sectorCount.toNat * flashSectorSize := by
  have sector : flashSectorSize = 4096 := rfl
  have word : (BitVec.ofNat 32 4096).toNat = 4096 := rfl
  rw [erasedLength, sector, BitVec.toNat_mul, word]
  omega

variable {before : FirmwareState} {sectorCount : U32} {after : FirmwareState × List Event}

theorem honest_idle (acknowledged : AnswersWith config after modchipCmdResultOk)
    (same : after.1.world.flash = before.world.flash) :
    EraseHonest config before partitionIdx sectorIdx sectorCount after ↔
      ∀ address, Named config partitionIdx sectorIdx sectorCount address → before.world.flash address = 0xFF := by
  constructor
  · intro honest
    rw [← same]
    exact honest.blank acknowledged
  · intro blank
    refine ⟨?_, fun _ _ _ => by rw [same]⟩
    intro _
    rw [same]
    exact blank

theorem honest_erasing (valid : (sectorAddr config partitionIdx sectorIdx).2 = true)
    (acknowledged : AnswersWith config after modchipCmdResultOk)
    (filled : ¬ TestedBlank config before.world.flash partitionIdx sectorIdx) (some : erasedLength sectorCount ≠ 0)
    (erased : after.1.world.flash =
      before.world.flash.erase (sectorStart config partitionIdx sectorIdx) (erasedLength sectorCount)) :
    EraseHonest config before partitionIdx sectorIdx sectorCount after ↔
      namedStart config partitionIdx sectorIdx < 2 ^ 32 ∧
        ∀ address, namedStart config partitionIdx sectorIdx + erasedLength sectorCount ≤ address →
          Named config partitionIdx sectorIdx sectorCount address → before.world.flash address = 0xFF := by
  have start := sectorStart_named valid
  obtain ⟨length, bound⟩ := erasedLength_cases sectorCount
  have aligned := @sectorStart_aligned config partitionIdx sectorIdx
  have sector : flashSectorSize = 4096 := rfl
  constructor
  · intro honest
    -- a byte of the tested sector changes, so it is one of the named ones
    have unwrapped : namedStart config partitionIdx sectorIdx < 2 ^ 32 := by
      apply Decidable.not_not.mp
      intro wrapped
      apply filled
      intro index inside
      have unnamed : ¬ Named config partitionIdx sectorIdx sectorCount
          (sectorStart config partitionIdx sectorIdx + index) := by
        rintro ⟨low, _⟩
        omega
      rw [← honest.outside acknowledged _ unnamed, erased]
      exact Flash.erase_inside (Nat.le_add_right _ index) (by omega)
    refine ⟨unwrapped, ?_⟩
    intro address late named
    rw [← honest.blank acknowledged address named, erased]
    exact (Flash.erase_outside (.inr (by omega))).symm
  · rintro ⟨unwrapped, rest⟩
    have same : sectorStart config partitionIdx sectorIdx = namedStart config partitionIdx sectorIdx := by
      rw [start]
      exact Nat.mod_eq_of_lt unwrapped
    constructor
    · intro _ address named
      rw [erased, same]
      by_cases late : namedStart config partitionIdx sectorIdx + erasedLength sectorCount ≤ address
      · rw [Flash.erase_outside (.inr late)]
        exact rest address late named
      · exact Flash.erase_inside named.1 (by omega)
    · intro _ address unnamed
      rw [erased, same]
      apply Flash.erase_outside
      apply Decidable.not_not.mp
      intro inside
      exact unnamed ⟨by omega, by omega⟩

theorem erase_honest_accepted {start : FirmwareState} (idle : start.writeHandler = .idle)
    (accepts : Accepts config start.world partitionIdx sectorIdx) :
    EraseHonest config start partitionIdx sectorIdx sectorCount
        ((machine config).run start (Call.eraseFlashSector partitionIdx sectorIdx sectorCount).poked) ↔
      EraseFits config start.world.flash partitionIdx sectorIdx sectorCount := by
  obtain ⟨flash, finishes, kept, erased⟩ := erase_finishes accepts sectorCount
  obtain ⟨acknowledged, world⟩ := call_finishes idle finishes
  have flashAfter := congrArg World.flash world
  by_cases nothing : TestedBlank config start.world.flash partitionIdx sectorIdx ∨ erasedLength sectorCount = 0
  · have same : flash = start.world.flash := by
      by_cases blank : TestedBlank config start.world.flash partitionIdx sectorIdx
      · exact kept blank
      · rw [erased blank, nothing.resolve_left blank]
        funext address
        exact Flash.erase_outside (by omega)
    rw [honest_idle acknowledged (flashAfter.trans same)]
    refine ⟨fun blank => ⟨fun _ => blank, fun filled some => ?_⟩, fun fits => fits.idle nothing⟩
    rcases nothing with blank | none
    · exact absurd blank filled
    · exact absurd none some
  · obtain ⟨filled, some⟩ := not_or.mp nothing
    rw [honest_erasing accepts.valid acknowledged filled some (flashAfter.trans (erased filled))]
    exact ⟨fun rest => ⟨fun idle => absurd idle nothing, fun _ _ => rest⟩, fun fits => fits.erasing filled some⟩

/-- For every frame and any contents of flash, an erase does what its answer
says exactly when it is refused or finds what it needs. -/
theorem erase_honest_iff (config : Config) {start : FirmwareState} (idle : start.writeHandler = .idle)
    (partitionIdx : U8) (sectorIdx sectorCount : U32) :
    (EraseHonest config start partitionIdx sectorIdx sectorCount
        ((machine config).run start (Call.eraseFlashSector partitionIdx sectorIdx sectorCount).poked) ∧
      RefusalsHarmless config .eraseFlashSector) ↔
    (Accepts config start.world partitionIdx sectorIdx →
      EraseFits config start.world.flash partitionIdx sectorIdx sectorCount) := by
  constructor
  · rintro ⟨honest, _⟩ accepts
    exact (erase_honest_accepted idle accepts).mp honest
  · intro fits
    refine ⟨?_, erase_refusals_harmless config⟩
    by_cases accepts : Accepts config start.world partitionIdx sectorIdx
    · exact (erase_honest_accepted idle accepts).mpr (fits accepts)
    · obtain ⟨refused, _⟩ := call_finishes idle (erase_refused accepts sectorCount)
      constructor
      · intro acknowledged
        exact absurd (acknowledged.unique refused) (by decide)
      · intro acknowledged
        exact absurd (acknowledged.unique refused) (by decide)

theorem erase_honest_one_sector :
    (EraseHonest default (unlockedFirmware fun _ => 0) modchipPartitionIdxApps 0 1
        ((machine default).run (unlockedFirmware fun _ => 0)
          (Call.eraseFlashSector modchipPartitionIdxApps 0 1).poked) ∧
      RefusalsHarmless default .eraseFlashSector) ↔
    (Accepts default (unlockedFirmware fun _ => 0).world modchipPartitionIdxApps 0 →
      EraseFits default (unlockedFirmware fun _ => 0).world.flash modchipPartitionIdxApps 0 1) :=
  erase_honest_iff default rfl modchipPartitionIdxApps 0 1

def secondSectorFilled : Flash := fun address => if address < appsPartitionOffset + flashSectorSize then 0xFF else 0

/-- An erase of two sectors is acknowledged, and the second one keeps its contents. -/
theorem second_sector_kept :
    ¬ EraseHonest default (unlockedFirmware secondSectorFilled) modchipPartitionIdxApps 0 2
      ((machine default).run (unlockedFirmware secondSectorFilled)
        (Call.eraseFlashSector modchipPartitionIdxApps 0 2).poked) := by
  have accepts : Accepts default (unlockedFirmware secondSectorFilled).world modchipPartitionIdxApps 0 :=
    ⟨rfl, by decide⟩
  obtain ⟨flash, finishes, kept, _⟩ := erase_finishes accepts 2
  obtain ⟨acknowledged, world⟩ := call_finishes rfl finishes
  have start : sectorStart default modchipPartitionIdxApps 0 = appsPartitionOffset := by decide
  have blank : TestedBlank default secondSectorFilled modchipPartitionIdxApps 0 := by
    intro index inside
    rw [start]
    exact if_pos (Nat.add_lt_add_left inside _)
  rw [honest_idle acknowledged ((congrArg World.flash world).trans (kept blank))]
  intro all
  have second := all (appsPartitionOffset + flashSectorSize) ⟨by decide, by decide⟩
  exact absurd second (by decide)

end Fruitchip.Firmware
