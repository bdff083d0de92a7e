import Fruitchip.Proofs.FrameRefinement

/-! Which addresses the two sector commands reach. Their address test is made
in wrapping 32-bit arithmetic and for one sector only, so it keeps a command
inside its partition exactly when nothing wraps and the count fits. -/

namespace Fruitchip.Firmware
open Embedded

variable {config : Config}

/-- First address and size of a partition that sector commands may name. -/
def partitionBounds (config : Config) (partitionIdx : U8) : Option (Nat × Nat) :=
  if partitionIdx = modchipPartitionIdxFwUpdate then
    some (updatePartitionOffset, updatePartitionSizeBytes)
  else if partitionIdx = modchipPartitionIdxApps then
    some (appsPartitionOffset, appsPartitionSizeBytes config.flashSize)
  else none

def InPartition (config : Config) (partitionIdx : U8) (address : Nat) : Prop :=
  ∃ base size, partitionBounds config partitionIdx = some (base, size) ∧
    base ≤ address ∧ address < base + size

/-- `sector_idx * sector_size` in 32 bits. -/
def sectorOffset (sectorIdx : U32) : Nat := (sectorIdx * BitVec.ofNat 32 flashSectorSize).toNat

/-- The changed bytes start at the sector that the frame names and end inside
its partition. -/
def RangeInside (config : Config) (s : FlashStatics) (size : Nat) : Prop :=
  size = 0 ∨ ∃ base limit, partitionBounds config s.partitionIdx = some (base, limit) ∧
    sectorOffset s.sectorIdx + size ≤ limit

theorem bounds_small {partitionIdx : U8} {base size : Nat}
    (bounds : partitionBounds config partitionIdx = some (base, size)) :
    base + size ≤ 16777216 ∧ 4096 ≤ size := by
  unfold partitionBounds at bounds
  split at bounds
  · cases bounds
    decide
  · split at bounds
    · cases bounds
      cases config.flashSize <;> decide
    · cases bounds

/-- What the address test of a sector command says, without 32-bit words. -/
theorem sectorAddr_valid {partitionIdx : U8} {sectorIdx : U32}
    (valid : (sectorAddr config partitionIdx sectorIdx).2 = true) :
    ∃ base size, partitionBounds config partitionIdx = some (base, size) ∧
      (sectorAddr config partitionIdx sectorIdx).1.toNat = (base + sectorOffset sectorIdx) % 2 ^ 32 := by
  unfold sectorAddr at valid ⊢
  unfold partitionBounds sectorOffset
  split
  next update =>
    refine ⟨_, _, rfl, ?_⟩
    simp only [BitVec.toNat_add]
    rfl
  next other =>
    rw [if_neg other] at valid
    split
    next apps =>
      refine ⟨_, _, rfl, ?_⟩
      simp only [BitVec.toNat_add]
      rfl
    next neither =>
      rw [if_neg neither] at valid
      cases valid

private theorem checkedSectorAddr_valid {s : FlashStatics} (valid : (checkedSectorAddr config s).2 = true) :
    checkedSectorAddr config s = sectorAddr config s.partitionIdx s.sectorIdx := by
  simp only [checkedSectorAddr] at valid ⊢
  split
  · rfl
  next refused =>
    rw [if_neg refused] at valid
    cases valid

theorem range_inside_iff {s : FlashStatics} {size : Nat} (valid : (checkedSectorAddr config s).2 = true) :
    (∀ address, (checkedSectorAddr config s).1.toNat ≤ address →
      address < (checkedSectorAddr config s).1.toNat + size → InPartition config s.partitionIdx address) ↔
    RangeInside config s size := by
  have same := checkedSectorAddr_valid valid
  rw [same] at valid ⊢
  obtain ⟨base, limit, bounds, first⟩ := sectorAddr_valid valid
  obtain ⟨small, _⟩ := bounds_small bounds
  have below : sectorOffset s.sectorIdx < 2 ^ 32 := BitVec.isLt _
  constructor
  · intro inside
    rcases Nat.eq_zero_or_pos size with none | some
    · exact .inl none
    · refine .inr ⟨base, limit, bounds, ?_⟩
      obtain ⟨_, _, again, low, _⟩ := inside _ (Nat.le_refl _) (Nat.lt_add_of_pos_right some)
      obtain ⟨_, _, last, _, high⟩ := inside
        ((sectorAddr config s.partitionIdx s.sectorIdx).1.toNat + (size - 1)) (by omega) (by omega)
      rw [bounds] at again last
      cases again
      cases last
      -- a wrapped offset would start below the partition
      omega
  · rintro (none | ⟨_, _, again, fits⟩) address low high
    · omega
    · rw [bounds] at again
      cases again
      exact ⟨base, limit, bounds, by omega, by omega⟩

/-- A write frame passes every test and the sector differs from what flash holds. -/
structure WriteChanges (config : Config) (s : FlashStatics) (world : World) : Prop where
  unlocked : world.flashWriteLock = false
  address : (checkedSectorAddr config s).2 = true
  complement : s.sectorCrc ^^^ s.sectorCrcXor = 0xFFFFFFFF
  checksum : dmaCrc32 s.sectorBytes 0xFFFFFFFF = s.sectorCrc
  differs : xipBytes world.flash (xipBase + (checkedSectorAddr config s).1) flashSectorSize ≠ s.sectorBytes

/-- An erase frame passes every test and its first sector is not erased yet. -/
structure EraseChanges (config : Config) (s : FlashStatics) (world : World) : Prop where
  unlocked : world.flashWriteLock = false
  address : (checkedSectorAddr config s).2 = true
  complement : s.sectorCount ^^^ s.sectorCountXor = 0xFFFFFFFF
  filled : ¬ (xipBytes world.flash (xipBase + (checkedSectorAddr config s).1) flashSectorSize).all
    (· = 0xFF)

def sectorsSize (s : FlashStatics) : Nat := (s.sectorCount * BitVec.ofNat 32 flashSectorSize).toNat

theorem write_flash_iff {s : FlashStatics} {world : World} {op : FlashOp} :
    .flash op ∈ (writeFlashSectorBody config s world).2 ↔ WriteChanges config s world ∧
      (op = .rangeErase (checkedSectorAddr config s).1.toNat flashSectorSize ∨
        op = .rangeProgram (checkedSectorAddr config s).1.toNat s.sectorBytes) := by
  simp only [writeFlashSectorBody]
  constructor
  · intro issued
    split at issued
    next accepted =>
      obtain ⟨unlocked, address, complement, checksum⟩ := accepted
      rw [if_pos complement] at issued
      split at issued
      · simp at issued
      next differs =>
        refine ⟨⟨unlocked, address, complement, checksum, differs⟩, ?_⟩
        simpa using issued
    · split at issued <;> simp at issued
  · rintro ⟨changes, issued⟩
    rw [if_pos ⟨changes.unlocked, changes.address, changes.complement, changes.checksum⟩,
      if_neg changes.differs]
    rcases issued with rfl | rfl <;> simp

theorem erase_flash_iff {s : FlashStatics} {world : World} {op : FlashOp} :
    .flash op ∈ (eraseFlashSectorBody config s world).2 ↔ EraseChanges config s world ∧
      op = .rangeErase (checkedSectorAddr config s).1.toNat (sectorsSize s) := by
  simp only [eraseFlashSectorBody]
  constructor
  · intro issued
    split at issued
    next accepted =>
      obtain ⟨unlocked, address, complement⟩ := accepted
      split at issued
      · simp at issued
      next filled =>
        refine ⟨⟨unlocked, address, complement, filled⟩, ?_⟩
        simp only [List.map_cons, List.map_nil, List.mem_append, List.mem_cons, List.not_mem_nil,
          reduceCtorEq, Event.flash.injEq, or_false, false_or] at issued
        exact issued
    · simp at issued
  · rintro ⟨changes, rfl⟩
    rw [if_pos ⟨changes.unlocked, changes.address, changes.complement⟩, if_neg changes.filled]
    simp [sectorsSize]

/-- What `write_flash_sector` or `erase_flash_sector` does on a byte stays in
the partition that the received frame names. -/
def StaysInside (config : Config) (firmware : FirmwareState) (w : U8) : Prop :=
  firmware.writeHandler = .writeFlashSector ∨ firmware.writeHandler = .eraseFlashSector →
    ∀ op, .flash op ∈ (handle config firmware w).2 →
      ∀ address, op.covers address → InPartition config firmware.statics.flash.partitionIdx address

/-- A frame that is going to change flash names a range inside its partition. -/
def FrameInside (config : Config) (world : World) (cmd : Cmd) (args : List U8) : Prop :=
  let s := flashArgs (fun index => args.getD index 0)
  match cmd with
  | .writeFlashSector => WriteChanges config s world → RangeInside config s flashSectorSize
  | .eraseFlashSector => EraseChanges config s world → RangeInside config s (sectorsSize s)
  | _ => True

private theorem sectorBytes_length (s : FlashStatics) : s.sectorBytes.length = flashSectorSize := by
  simp [FlashStatics.sectorBytes]

theorem frame_inside_iff {world : World} {cmd : Cmd} {args : List U8}
    (sector : cmd = .writeFlashSector ∨ cmd = .eraseFlashSector) :
    (∀ op, .flash op ∈ (execute config (cmd, args) world).2 →
      ∀ address, op.covers address → InPartition config (args.getD 0 0) address) ↔
    FrameInside config world cmd args := by
  rcases sector with rfl | rfl
  · simp only [execute, FrameInside, write_flash_iff]
    constructor
    · intro inside changes
      apply (range_inside_iff changes.address).mp
      intro address low high
      exact inside _ ⟨changes, .inl rfl⟩ address ⟨low, high⟩
    · rintro fits op ⟨changes, rfl | rfl⟩ address covered
      · exact (range_inside_iff changes.address).mpr (fits changes) address covered.1 covered.2
      · simp only [FlashOp.covers, sectorBytes_length] at covered
        exact (range_inside_iff changes.address).mpr (fits changes) address covered.1 covered.2
  · simp only [execute, FrameInside, erase_flash_iff]
    constructor
    · intro inside changes
      apply (range_inside_iff changes.address).mp
      intro address low high
      exact inside _ ⟨changes, rfl⟩ address ⟨low, high⟩
    · rintro fits op ⟨changes, rfl⟩ address covered
      exact (range_inside_iff changes.address).mpr (fits changes) address covered.1 covered.2

private theorem named_partition {firmware : FirmwareState} {cmd : Cmd} {args : List U8}
    (sector : cmd = .writeFlashSector ∨ cmd = .eraseFlashSector)
    (tracks : Tracks config firmware (cmd.opcode ++ args)) (w : U8)
    (whole : args.length + 1 = argLength cmd) :
    firmware.writeHandler = (switchOf config cmd).next ∧
      firmware.statics.flash.partitionIdx = (args ++ [w]).getD 0 0 := by
  rcases sector with rfl | rfl
  · rcases tracks.opcode_inv with ⟨_, room⟩ | ⟨handler, low, collected⟩
    · have short : args.length < 18 := room
      have long : args.length + 1 = 18 + flashSectorSize := whole
      simp only [flashSectorSize] at long
      omega
    · obtain ⟨s, _, statics⟩ := collected_fields [w] 18 rfl low collected
      refine ⟨handler, ?_⟩
      rw [statics]
      rfl
  · rcases tracks.opcode_inv with ⟨_, room⟩ | ⟨handler, low, collected⟩
    · have short : args.length < 17 := room
      have long : args.length + 1 = 18 := whole
      omega
    · obtain ⟨s, _, statics⟩ := collected_fields [w] 17 rfl low collected
      refine ⟨handler, ?_⟩
      rw [statics]
      rfl

private theorem frame_of_run {start : FirmwareState} {stream : List U8}
    (inside : ∀ before w after, stream = before ++ w :: after →
      StaysInside config ((machine config).run start before).1 w)
    {before : List U8} {cmd : Cmd} {args after : List U8}
    (split : stream = before ++ cmd.opcode ++ args ++ after) (length : args.length = argLength cmd)
    (resting : ((machine config).run start before).1.writeHandler = .idle) :
    FrameInside config ((machine config).run start before).1.world cmd args := by
  by_cases sector : cmd = .writeFlashSector ∨ cmd = .eraseFlashSector
  · have some : args ≠ [] := by
      rintro rfl
      rcases sector with rfl | rfl <;> cases length
    obtain ⟨init, w, rfl⟩ : ∃ init w, args = init ++ [w] :=
      ⟨args.dropLast, args.getLast some, (List.dropLast_concat_getLast some).symm⟩
    have whole : init.length + 1 = argLength cmd := by simpa using length
    obtain ⟨_, tracks, effect⟩ := last_byte w resting whole
    obtain ⟨handler, named⟩ := named_partition sector tracks w whole
    have step := inside (before ++ (cmd.opcode ++ init)) w after (by rw [split]; simp)
    rw [Mealy.run_append] at step
    rw [← frame_inside_iff sector, ← named, ← effect]
    exact step (by rcases sector with rfl | rfl; exacts [.inl handler, .inr handler])
  · unfold FrameInside
    split
    · exact False.elim (sector (.inl rfl))
    · exact False.elim (sector (.inr rfl))
    · trivial

private theorem sector_frame {firmware : FirmwareState} {pending : List U8} {w : U8} {cmd : Cmd}
    {args : List U8} (tracks : Tracks config firmware pending)
    (handler : firmware.writeHandler = .writeFlashSector ∨ firmware.writeHandler = .eraseFlashSector)
    (bytes : pending ++ [w] = cmd.opcode ++ args) :
    (cmd = .writeFlashSector ∨ cmd = .eraseFlashSector) ∧
      ∃ init, pending = cmd.opcode ++ init ∧ args = init ++ [w] := by
  have double : (switchOf config .writeFlashSector).next ≠ .idle ∧
      (switchOf config .eraseFlashSector).next ≠ .idle := ⟨Handler.noConfusion, Handler.noConfusion⟩
  rcases handler with handler | handler
  · obtain ⟨init, rfl⟩ := tracks.second_inv double.1 handler
    rw [List.append_assoc] at bytes
    obtain ⟨rfl, rfl⟩ := opcode_append_inj bytes
    exact ⟨.inl rfl, init, rfl, rfl⟩
  · obtain ⟨init, rfl⟩ := tracks.second_inv double.2 handler
    rw [List.append_assoc] at bytes
    obtain ⟨rfl, rfl⟩ := opcode_append_inj bytes
    exact ⟨.inr rfl, init, rfl, rfl⟩

/-- In every stream, all that the sector commands do stays in the partition
they name exactly when every frame received names a range inside it. -/
theorem sector_commands_inside_iff (config : Config) {start : FirmwareState} (idle : start.writeHandler = .idle)
    (stream : List U8) :
    (∀ before w after, stream = before ++ w :: after →
      StaysInside config ((machine config).run start before).1 w) ↔
    (∀ before cmd args after, stream = before ++ cmd.opcode ++ args ++ after →
      args.length = argLength cmd → ((machine config).run start before).1.writeHandler = .idle →
      FrameInside config ((machine config).run start before).1.world cmd args) := by
  constructor
  · intro inside before cmd args after split length resting
    exact frame_of_run inside split length resting
  · intro frames before w after split handler op issued
    obtain ⟨earlier, cmd, args, pending, shape, bytes, length, tracks, resting, world, effect⟩ :=
      event_source w idle issued
    obtain ⟨sector, init, rfl, rfl⟩ := sector_frame tracks handler bytes
    have whole : init.length + 1 = argLength cmd := by simpa using length
    obtain ⟨_, named⟩ := named_partition sector tracks w whole
    have frame := frames earlier cmd (init ++ [w]) after (by rw [split, shape]; simp) length resting
    rw [world] at frame
    rw [effect] at issued
    rw [named]
    exact (frame_inside_iff sector).mpr frame op issued

/-- Sector 0xFFFFF of the apps partition: 4096 bytes below its first one. -/
def wrappingEraseArgs : List U8 :=
  [0x02, 0xFD] ++ bytes32 0xFFFFF ++ bytes32 0xFFF00000 ++ bytes32 1 ++ bytes32 0xFFFFFFFE

def wrappingErase : List U8 :=
  Cmd.opcode .writeLock ++ [0x00, 0xFF] ++ Cmd.opcode .eraseFlashSector ++ wrappingEraseArgs

def wrappingEraseStart : FirmwareState := .powerUp (fun _ => 0) ⟨.defaults, WearLeveling.clearCache⟩

theorem sector_commands_inside_wrapping_erase :
    (∀ before w after, wrappingErase = before ++ w :: after →
      StaysInside default ((machine default).run wrappingEraseStart before).1 w) ↔
    (∀ before cmd args after, wrappingErase = before ++ cmd.opcode ++ args ++ after →
      args.length = argLength cmd →
      ((machine default).run wrappingEraseStart before).1.writeHandler = .idle →
      FrameInside default ((machine default).run wrappingEraseStart before).1.world cmd args) :=
  sector_commands_inside_iff default rfl wrappingErase

/-- The erase that follows an unlock takes the last sector of the settings partition. -/
theorem wrapping_erase_leaves_partition :
    ¬ ∀ before w after, wrappingErase = before ++ w :: after →
      StaysInside default ((machine default).run wrappingEraseStart before).1 w := by
  intro inside
  let unlocked := ((machine default).run wrappingEraseStart (Cmd.opcode .writeLock ++ [0x00, 0xFF])).1
  have resting : unlocked.writeHandler = .idle := rfl
  have frame : FrameInside default unlocked.world .eraseFlashSector wrappingEraseArgs :=
    frame_of_run inside (List.append_nil _).symm rfl resting
  have filled : ¬ (xipBytes (fun _ => 0) (xipBase + 0x14D000#32) flashSectorSize).all (· = 0xFF) := by
    intro all
    have member : (0 : U8) ∈ xipBytes (fun _ => 0) (xipBase + 0x14D000#32) flashSectorSize :=
      List.mem_map.mpr ⟨0, List.mem_range.mpr (by decide), rfl⟩
    have blank := List.all_eq_true.mp all 0 member
    exact absurd blank (by decide)
  rcases frame ⟨rfl, rfl, rfl, filled⟩ with none | ⟨_, _, bounds, fits⟩
  · exact absurd none (by decide)
  · cases bounds
    exact absurd fits (by decide)

end Fruitchip.Firmware
