import Fruitchip.BootloaderCopy
import Fruitchip.Proofs.UpdateSafety

/-! The update with its buffer and its DMA channel copies the partition as a
whole, from whatever it finds, and touches no more than it has to. -/

namespace Fruitchip.Bootloader
open Embedded Embedded.Dma

namespace Machine

variable {machine next last : Machine} {ops rest : List FlashOp} {offset : Nat}

structure Ready (machine : Machine) : Prop where
  ctrl : (machine.engine.channels machine.memcpyChannel).ctrl = memcpyConfig machine.memcpyChannel
  writeAddr : (machine.engine.channels machine.memcpyChannel).writeAddr = ⟨.sectorBuffer, 0⟩
  transCount : (machine.engine.channels machine.memcpyChannel).transCount = flashSectorSize
  idle : (machine.engine.channels machine.memcpyChannel).busy = false

/-- The machine has made flash operations, and is ready for the next copy. -/
structure Made (machine : Machine) (ops : List FlashOp) (next : Machine) : Prop where
  ready : next.Ready
  flash : next.flash = applyAll ops machine.flash
  ops : next.ops = machine.ops ++ ops

theorem Made.trans (made : Made machine ops next) (more : Made next rest last) : Made machine (ops ++ rest) last := by
  refine ⟨more.ready, ?_, ?_⟩
  · rw [more.flash, made.flash, applyAll_append]
  · rw [more.ops, made.ops, List.append_assoc]

theorem Ready.made_nil (ready : machine.Ready) : Made machine [] machine := by
  refine ⟨ready, applyAll_nil _, ?_⟩
  rw [List.append_nil]

theorem Ready.perform (ready : machine.Ready) (ops : List FlashOp) : Made machine ops (machine.perform ops) :=
  ⟨⟨ready.ctrl, ready.writeAddr, ready.transCount, ready.idle⟩, rfl, rfl⟩

theorem dmaInitMemcpy_ready (idle : ∀ index, (machine.engine.channels index).busy = false) :
    Made machine [] machine.dmaInitMemcpy := by
  refine ⟨?_, applyAll_nil _, ?_⟩
  · constructor <;> simp only [dmaInitMemcpy, Engine.set_channels_self, idle]
  · rw [List.append_nil]
    rfl

theorem memcpyConfig_fills (channel : Nat) : (memcpyConfig channel).Fills channel 12 :=
  ⟨rfl, rfl, rfl, rfl, rfl, nofun, rfl, rfl⟩

structure Buffered (flash : Flash) (src units : Nat) (memory : Memory) : Prop where
  untouched : memory.flash = flash
  buffer : ∀ index < units, memory.sectorBuffer index = flash (src + index)

theorem Buffered.unit {flash : Flash} {src units : Nat} {memory : Memory} (buffered : Buffered flash src units memory)
    (inside : units < 2 ^ 12) :
    ∃ word stored, load memory ⟨.flash, src + units⟩ = some word ∧
      store memory ⟨.sectorBuffer, units⟩ word = some stored ∧ Buffered flash src (units + 1) stored := by
  refine ⟨_, _, rfl, if_pos inside, ?_⟩
  refine ⟨buffered.untouched, ?_⟩
  intro index before
  dsimp only
  split
  next here =>
    rw [here, BitVec.setWidth_setWidth_of_le _ (by decide), BitVec.setWidth_eq, buffered.untouched]
  next other => exact buffered.buffer index (by omega)

theorem dmaMemcpySector_copies (ready : machine.Ready) (src : Nat) :
    ∃ next, machine.dmaMemcpySector src = some next ∧ Made machine [] next ∧
      next.sectorBuffer = machine.flash.read src flashSectorSize := by
  let channel := machine.memcpyChannel
  let addressed : Channel Object := { machine.engine.channels channel with readAddr := ⟨.flash, src⟩ }
  let triggered : Engine Object Memory := (machine.engine.set channel addressed).trigger channel
  have fills : addressed.ctrl.Fills channel 12 := ready.ctrl ▸ memcpyConfig_fills channel
  have started : triggered.channels channel = addressed.triggered := by
    have here : (machine.engine.set channel addressed).channels channel = addressed := Engine.set_channels_self _ _ _
    show ((machine.engine.set channel addressed).set channel _).channels channel = _
    rw [Engine.set_channels_self, here]
  have filling : Filling (triggered.channels channel) channel 12 ⟨.flash, src⟩ .sectorBuffer 0 := by
    rw [started]
    exact .start fills ready.idle rfl ready.writeAddr ready.transCount
  obtain ⟨engine, waited, copied, registers⟩ := @Filling.run _ _ bus triggered channel 12 0 ⟨.flash, src⟩ .sectorBuffer
    (Buffered machine.flash src) _ ((triggered.channels channel).remaining + 1) rfl
    (fun units inside memory buffered => buffered.unit inside) filling rfl ⟨rfl, nofun⟩
    (Nat.lt_succ_of_le (Nat.le_of_eq filling.remaining.symm))
  have stopped : engine.channels channel = (triggered.channels channel).filled 12 ⟨.flash, src⟩ .sectorBuffer := by
    rw [registers, Engine.set_channels_self]
  refine ⟨{ machine with engine }, ?_, ⟨?_, copied.untouched, ?_⟩, ?_⟩
  · have done : machine.dmaMemcpySector src =
        (triggered.wait bus channel ((triggered.channels channel).remaining + 1)).map fun engine => { machine with engine } := rfl
    rw [done, waited]
    rfl
  · rw [started] at stopped
    constructor
    · rw [stopped]
      exact (Channel.triggered_ctrl addressed).trans ready.ctrl
    · rw [stopped]
      rfl
    · rw [stopped]
      exact (Channel.triggered_transCount addressed).trans ready.transCount
    · rw [stopped]
      rfl
  · rw [List.append_nil]
  · rw [sectorBuffer, Flash.read, List.map_inj_left]
    intro index inside
    have bits : flashSectorSize = 2 ^ 12 := rfl
    rw [List.mem_range, bits] at inside
    exact copied.buffer index inside

theorem copySector_made (ready : machine.Ready) (offset : Nat) :
    ∃ next, machine.copySector offset = some next ∧ Made machine (Bootloader.copySector machine.flash offset) next := by
  simp only [copySector, Bootloader.copySector]
  split
  · exact ⟨machine, rfl, ready.made_nil⟩
  · obtain ⟨middle, copied, made, buffer⟩ := dmaMemcpySector_copies ready (updatePartitionOffset + offset)
    refine ⟨_, congrArg _ copied, ?_⟩
    have erased := made.trans (made.ready.perform [.rangeErase (fwPartitionOffset + offset) flashSectorSize])
    have programmed := erased.trans
      (erased.ready.perform (Bootloader.flashRangeProgram (fwPartitionOffset + offset) middle.sectorBuffer))
    rw [← buffer]
    exact programmed

theorem copySectors_made (ready : machine.Ready) (offset : Nat) :
    ∃ next, machine.copySectors offset = some next ∧ Made machine (Bootloader.copySectors machine.flash offset) next := by
  generalize same : machine.flash = flash
  induction flash, offset using Bootloader.copySectors.induct generalizing machine with
  | case1 flash offset inside ops =>
    rename_i ih
    obtain ⟨middle, first, made⟩ := copySector_made ready offset
    rw [same] at made
    obtain ⟨next, rest, more⟩ := ih made.ready (by rw [made.flash, same])
    refine ⟨next, ?_, ?_⟩
    · rw [copySectors, if_pos inside, first, Option.bind_some, rest]
    · rw [Bootloader.copySectors, if_pos inside]
      exact made.trans more
  | case2 flash offset outside =>
    refine ⟨machine, ?_, ?_⟩
    · rw [copySectors, if_neg outside]
    · rw [Bootloader.copySectors, if_neg outside]
      exact ready.made_nil

theorem tryUpdateFirmware_made (idle : ∀ index, (machine.engine.channels index).busy = false)
    (valid : isUpdateValid machine.flash) :
    ∃ next, machine.tryUpdateFirmware = some next ∧ Made machine (Bootloader.tryUpdateFirmware machine.flash) next := by
  have started := dmaInitMemcpy_ready idle
  have erased := started.trans (started.ready.perform [eraseFirstSector])
  have flash : (machine.dmaInitMemcpy.perform [eraseFirstSector]).flash = eraseFirstSector.apply machine.flash := rfl
  obtain ⟨copied, looped, made⟩ := copySectors_made erased.ready flashSectorSize
  obtain ⟨buffered, transferred, moved, buffer⟩ := dmaMemcpySector_copies made.ready updatePartitionOffset
  have programmed := ((erased.trans made).trans moved).trans
    (moved.ready.perform (Bootloader.flashRangeProgram fwPartitionOffset buffered.sectorBuffer))
  refine ⟨buffered.perform (Bootloader.flashRangeProgram fwPartitionOffset buffered.sectorBuffer), ?_, ?_⟩
  · have inner : machine.tryUpdateFirmware =
        ((machine.dmaInitMemcpy.perform [eraseFirstSector]).copySectors flashSectorSize).bind fun machine =>
          (machine.dmaMemcpySector updatePartitionOffset).map fun machine =>
            machine.flashRangeProgram fwPartitionOffset machine.sectorBuffer := if_pos valid
    rw [inner, looped, Option.bind_some, transferred]
    rfl
  · have ops : Bootloader.tryUpdateFirmware machine.flash =
        [] ++ [eraseFirstSector] ++ Bootloader.copySectors (eraseFirstSector.apply machine.flash) flashSectorSize ++ [] ++
          Bootloader.flashRangeProgram fwPartitionOffset buffered.sectorBuffer := by
      rw [Bootloader.tryUpdateFirmware, if_pos valid, buffer, made.flash, flash, List.append_nil]
      rfl
    rw [flash] at programmed
    rw [ops]
    exact programmed

end Machine

/-- What the operation programs is erased. -/
def Clean (flash : Flash) : FlashOp → Prop
  | .rangeErase _ _ => True
  | .rangeProgram offset data | .pageProgram offset data => ∀ index < data.length, flash (offset + index) = 0xFF

/-- Each operation finds erased what it programs. -/
inductive AllClean : List FlashOp → Flash → Prop where
  | nil {flash : Flash} : AllClean [] flash
  | cons {op : FlashOp} {rest : List FlashOp} {flash : Flash} (clean : Clean flash op)
      (after : AllClean rest (op.apply flash)) : AllClean (op :: rest) flash

variable {flash : Flash} {offset : Nat}

theorem allClean_append {first rest : List FlashOp} (clean : AllClean first flash)
    (after : AllClean rest (applyAll first flash)) : AllClean (first ++ rest) flash := by
  induction clean with
  | nil => exact after
  | cons here _ ih => exact .cons here (ih after)

theorem flashRangeProgram_clean {data : List U8} (blank : ∀ index < data.length, flash (offset + index) = 0xFF) :
    AllClean (flashRangeProgram offset data) flash := by
  have each (pages : Nat) (enough : pages ≤ data.length / flashPageSize) :
      AllClean ((flashRangeProgram offset data).take pages) flash := by
    induction pages with
    | zero => exact .nil
    | succ pages ih =>
      have page : (flashRangeProgram offset data)[pages]? = some (.pageProgram (offset + flashPageSize * pages)
          ((data.drop (flashPageSize * pages)).take flashPageSize)) := by
        rw [flashRangeProgram, List.getElem?_map, List.getElem?_range enough]
        rfl
      have fits : flashPageSize * (pages + 1) ≤ data.length :=
        Nat.le_trans (Nat.mul_le_mul_left _ enough) (Nat.mul_div_le _ _)
      have before : flashPageSize * pages ≤ data.length := Nat.le_trans (Nat.mul_le_mul_left _ (Nat.le_succ _)) fits
      rw [List.take_add_one, page]
      refine allClean_append (ih (Nat.le_of_succ_le enough)) (.cons (fun index inside => ?_) .nil)
      -- the pages before this one end where it starts
      rw [applyAll_flashRangeProgram_take offset before, Flash.program_outside, Nat.add_assoc]
      · apply blank
        rw [List.length_take, List.length_drop] at inside
        omega
      · rw [List.length_take, Nat.min_eq_left before]
        omega
  have all := each _ (Nat.le_refl _)
  rwa [List.take_of_length_le (Nat.le_of_eq (by rw [flashRangeProgram, List.length_map, List.length_range]))] at all

theorem copySector_clean (flash : Flash) (offset : Nat) : AllClean (copySector flash offset) flash := by
  unfold copySector
  dsimp only
  split
  · exact .nil
  · apply AllClean.cons
    · exact True.intro
    · apply flashRangeProgram_clean
      intro index inside
      rw [Flash.read_length] at inside
      exact Flash.erase_inside (Nat.le_add_right _ _) (Nat.add_lt_add_left inside _)

theorem copySectors_clean (flash : Flash) (offset : Nat) : AllClean (copySectors flash offset) flash := by
  induction flash, offset using copySectors.induct with
  | case1 flash offset inside ops ih =>
    rw [copySectors, if_pos inside]
    apply allClean_append
    · exact copySector_clean flash offset
    · exact ih
  | case2 flash offset outside =>
    rw [copySectors, if_neg outside]
    exact .nil

theorem tryUpdateFirmware_clean (flash : Flash) : AllClean (tryUpdateFirmware flash) flash := by
  unfold tryUpdateFirmware
  split
  · refine allClean_append (.cons True.intro (copySectors_clean _ _)) (flashRangeProgram_clean fun index inside => ?_)
    rw [Flash.read_length] at inside
    rw [applyAll_cons, applyAll_outside]
    · exact Flash.erase_inside (Nat.le_add_right _ _) (Nat.add_lt_add_left inside _)
    · intro op member covered
      have bounds := copySectors_covers (by decide) member covered
      omega
  · exact .nil

theorem copySectors_keeps {start : Nat} (aligned : offset % 4096 = 0) (whole : start % 4096 = 0) (low : offset ≤ start)
    (same : flash.read (fwPartitionOffset + start) flashSectorSize =
      flash.read (updatePartitionOffset + start) flashSectorSize) {op : FlashOp} (member : op ∈ copySectors flash offset)
    {index : Nat} (inside : index < flashSectorSize) : ¬ op.covers (fwPartitionOffset + start + index) := by
  have sector : flashSectorSize = 4096 := rfl
  have apart : updatePartitionOffset = fwPartitionOffset + fwPartitionSizeBytes := rfl
  have sectors : fwPartitionSizeBytes = 162 * flashSectorSize := rfl
  intro covered
  induction flash, offset using copySectors.induct with
  | case1 flash offset more ops ih =>
    rw [copySectors, if_pos more] at member
    rcases List.mem_append.mp member with here | later
    · have bounds := copySector_covers here covered
      obtain rfl : offset = start := by omega
      simp only [copySector, same, ite_true] at here
      cases here
    · have bounds := copySectors_covers (by omega) later covered
      refine ih (by omega) (by omega) ?_ later
      have kept {place : Nat} (elsewhere : ∀ index < flashSectorSize, place + index < fwPartitionOffset + offset ∨
          fwPartitionOffset + offset + flashSectorSize ≤ place + index) :
          (applyAll ops flash).read place flashSectorSize = flash.read place flashSectorSize := by
        apply Flash.read_eq_iff.mpr
        intro index inside
        apply applyAll_outside
        intro op member covered
        have bounds := copySector_covers member covered
        have outside := elsewhere index inside
        omega
      rw [kept fun _ _ => by omega, kept fun _ _ => by omega, same]
  | case2 flash offset outside =>
    rw [copySectors, if_neg outside] at member
    cases member

/-- The operations copy the update as a whole and touch no more than they have to. -/
structure Copies (flash : Flash) (ops : List FlashOp) : Prop where
  copied : ∀ index < fwPartitionSizeBytes,
    applyAll ops flash (fwPartitionOffset + index) = flash (updatePartitionOffset + index)
  outside : ∀ address, address < fwPartitionOffset ∨ fwPartitionOffset + fwPartitionSizeBytes ≤ address →
    applyAll ops flash address = flash address
  clean : AllClean ops flash
  kept : ∀ sector, 0 < sector → flash.read (fwPartitionOffset + flashSectorSize * sector) flashSectorSize =
      flash.read (updatePartitionOffset + flashSectorSize * sector) flashSectorSize →
    ∀ op ∈ ops, ∀ index < flashSectorSize, ¬ op.covers (fwPartitionOffset + flashSectorSize * sector + index)

theorem tryUpdateFirmware_copies (valid : isUpdateValid flash) : Copies flash (tryUpdateFirmware flash) := by
  have size : flashSectorSize = 4096 := rfl
  refine ⟨fun _ => update_complete valid, ?_, tryUpdateFirmware_clean flash, ?_⟩
  · intro address outside
    apply applyAll_outside
    intro op member covered
    have bounds := tryUpdateFirmware_covers member covered
    omega
  · intro sector later same op member index inside covered
    have apart : updatePartitionOffset = fwPartitionOffset + fwPartitionSizeBytes := rfl
    rw [size] at same inside covered
    rw [tryUpdateFirmware, if_pos valid] at member
    rcases List.mem_append.mp member with copied | written
    · rcases List.mem_cons.mp copied with rfl | looped
      · simp only [eraseFirstSector, FlashOp.covers, size] at covered
        omega
      · have kept {place : Nat} (elsewhere : fwPartitionOffset + 4096 ≤ place) :
            (eraseFirstSector.apply flash).read place 4096 = flash.read place 4096 := by
          apply Flash.read_eq_iff.mpr
          intro index _
          apply Flash.erase_outside
          rw [size]
          omega
        refine copySectors_keeps (by decide) (Nat.mul_mod_right 4096 sector) (by omega) ?_ looped inside covered
        rw [size, kept (by omega), kept (by omega), same]
    · have bounds := flashRangeProgram_covers written covered
      rw [Flash.read_length] at bounds
      omega

/-- The bootloader after a reset. No transfer is under way. -/
def Machine.reset (flash : Flash) (sectorBuffer : Nat → U8) : Machine where
  engine := { channels := fun _ => ⟨⟨.flash, 0⟩, ⟨.flash, 0⟩, 0, .null, false, 0⟩, memory := ⟨flash, sectorBuffer⟩ }
  claimed := 0
  memcpyChannel := 0
  ops := []

/-- With a valid update, and whatever else is in flash and in the buffer, the
update comes to its end, and its operations copy the partition as a whole. -/
theorem update_copies_partition (machine : Machine) (idle : ∀ index, (machine.engine.channels index).busy = false)
    (valid : isUpdateValid machine.flash) :
    ∃ next ops, machine.tryUpdateFirmware = some next ∧ next.ops = machine.ops ++ ops ∧
      next.flash = applyAll ops machine.flash ∧ Copies machine.flash ops := by
  obtain ⟨next, done, made⟩ := Machine.tryUpdateFirmware_made idle valid
  exact ⟨next, _, done, made.ops, made.flash, tryUpdateFirmware_copies valid⟩

theorem update_copies_torn :
    ∃ next ops, (Machine.reset tornFlash (fun _ => 0)).tryUpdateFirmware = some next ∧ next.ops = [] ++ ops ∧
      next.flash = applyAll ops tornFlash ∧ Copies tornFlash ops :=
  update_copies_partition (Machine.reset tornFlash (fun _ => 0)) (fun _ => rfl) tornFlash_update

end Fruitchip.Bootloader
