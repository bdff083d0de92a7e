import Fruitchip.Library.Runs
import Fruitchip.Proofs.InstallSession
import Fruitchip.Proofs.SettingsPower

/-! Updates over power cycles. The firmware that is started is the first one or
one that the menu wrote completely, wherever power is lost, as long as the
bootloader is not cut while it writes the first sector of the firmware. -/

namespace Fruitchip
open Embedded Client Firmware Menu Bootloader WearLeveling

variable {flash after first : Flash} {scratch0 : U32} {sent : Update → Prop} {config : Config} {update : Update}
  {log : Log} {world : World}

def Single (op : FlashOp) : Prop := op.pieces = [op]

theorem flatMap_pieces {ops : List FlashOp} (single : ∀ op ∈ ops, Single op) : ops.flatMap FlashOp.pieces = ops := by
  induction ops with
  | nil => rfl
  | cons op ops ih =>
    have first : op.pieces = [op] := single op List.mem_cons_self
    rw [List.flatMap_cons, first, ih fun other member => single other (List.mem_cons_of_mem _ member)]
    rfl

theorem rangeErase_single (offset : Nat) : Single (.rangeErase offset flashSectorSize) := rfl

theorem flashRangeProgram_single (offset : Nat) (data : List U8) : ∀ op ∈ flashRangeProgram offset data, Single op := by
  intro op member
  obtain ⟨page, _, rfl⟩ := List.mem_map.mp member
  rfl

theorem copySector_single (flash : Flash) (offset : Nat) : ∀ op ∈ copySector flash offset, Single op := by
  simp only [copySector]
  split
  · exact List.forall_mem_nil _
  · exact List.forall_mem_cons.mpr ⟨rangeErase_single _, flashRangeProgram_single _ _⟩

theorem copySectors_single (flash : Flash) (offset : Nat) : ∀ op ∈ copySectors flash offset, Single op := by
  induction flash, offset using copySectors.induct with
  | case1 flash offset inside ops ih =>
    rw [copySectors, if_pos inside]
    exact List.forall_mem_append.mpr ⟨copySector_single flash offset, ih⟩
  | case2 flash offset outside =>
    rw [copySectors, if_neg outside]
    exact List.forall_mem_nil _

theorem main_single (flash : Flash) (scratch0 : U32) : ∀ op ∈ main flash scratch0, Single op := by
  simp only [main]
  split
  · simp only [tryUpdateFirmware]
    split
    · exact List.forall_mem_append.mpr ⟨List.forall_mem_cons.mpr ⟨rangeErase_single _, copySectors_single _ _⟩,
        flashRangeProgram_single _ _⟩
    · exact List.forall_mem_nil _
  · exact List.forall_mem_nil _

theorem interrupt_append (first rest : List FlashOp) (steps : Nat) (flash : Flash) :
    interrupt (first ++ rest) steps flash =
      interrupt rest (steps - (first.flatMap FlashOp.pieces).length) (interrupt first steps flash) := by
  rw [interrupt, List.flatMap_append, List.take_append, applyAll_append]
  rfl

theorem main_covers {op : FlashOp} (member : op ∈ main flash scratch0) {address : Nat} (covered : op.covers address) :
    fwPartitionOffset ≤ address ∧ address < fwPartitionOffset + fwPartitionSizeBytes := by
  simp only [main] at member
  split at member
  · exact tryUpdateFirmware_covers member covered
  · cases member

/-- The firmware is the first one, or one that was sent. -/
def Installed (first : Flash) (sent : Update → Prop) (flash : Flash) : Prop :=
  fwImage flash = fwImage first ∨ ∃ update, sent update ∧ Image fwPartitionOffset update flash

/-- An update that was sent lies in its partition. -/
def Pending (sent : Update → Prop) (flash : Flash) : Prop :=
  ∃ update, sent update ∧ Image updatePartitionOffset update flash

/-- Where an update stands when the bootloader starts. -/
inductive Stage (first : Flash) (sent : Update → Prop) (flash : Flash) : Prop
  | installed (valid : isFwValid flash = true) (image : Installed first sent flash)
  | copying (blank : ∀ index < flashSectorSize, flash (fwPartitionOffset + index) = 0xFF)
      (valid : isUpdateValid flash = true) (pending : Pending sent flash)

def InImages (address : Nat) : Prop := fwPartitionOffset ≤ address ∧ address < settingsPartitionOffset

theorem fw_in_images {index : Nat} (inside : index < fwPartitionSizeBytes) : InImages (fwPartitionOffset + index) := by
  have room : fwPartitionOffset + fwPartitionSizeBytes ≤ settingsPartitionOffset := by decide
  exact ⟨Nat.le_add_right _ _, by omega⟩

theorem update_in_images {index : Nat} (inside : index < updatePartitionSizeBytes) :
    InImages (updatePartitionOffset + index) := by
  have room : updatePartitionOffset + updatePartitionSizeBytes = settingsPartitionOffset := rfl
  have behind : fwPartitionOffset ≤ updatePartitionOffset := by decide
  exact ⟨by omega, by omega⟩

theorem images_not_settings {address : Nat} (images : InImages address) : ¬ InSettings address :=
  fun settings => absurd settings.1 (Nat.not_le_of_lt images.2)

theorem fw_same (same : ∀ index < fwPartitionSizeBytes, after (fwPartitionOffset + index) = flash (fwPartitionOffset + index)) :
    isFwValid after = isFwValid flash ∧ (Installed first sent flash → Installed first sent after) := by
  have page : 256 ≤ fwPartitionSizeBytes := by decide
  constructor
  · rw [isFwValid, isFwValid, decide_eq_decide]
    exact checksum_congr fun index inside => same index (by omega)
  · rintro (old | ⟨update, known, fits, bytes⟩)
    · exact .inl ((Flash.read_eq_iff.mpr same).trans old)
    · refine .inr ⟨update, known, fits, fun index inside => ?_⟩
      rw [same index (Nat.lt_of_lt_of_le inside fits), bytes index inside]

theorem Pending.congr (pending : Pending sent flash)
    (same : ∀ index < updatePartitionSizeBytes, after (updatePartitionOffset + index) = flash (updatePartitionOffset + index)) :
    Pending sent after := by
  obtain ⟨update, known, fits, bytes⟩ := pending
  refine ⟨update, known, fits, fun index inside => ?_⟩
  rw [same index (Nat.lt_of_lt_of_le inside fits), bytes index inside]

theorem Stage.congr (stage : Stage first sent flash) (same : ∀ address, InImages address → after address = flash address) :
    Stage first sent after := by
  have fw := @fw_same flash after first sent fun index inside => same _ (fw_in_images inside)
  cases stage with
  | installed valid image => exact .installed (fw.1.trans valid) (fw.2 image)
  | copying blank valid pending =>
    have room : flashSectorSize ≤ fwPartitionSizeBytes := by decide
    have update (index : Nat) (inside : index < updatePartitionSizeBytes) := same _ (update_in_images inside)
    refine .copying (fun index inside => ?_) ?_ (pending.congr update)
    · rw [same _ (fw_in_images (Nat.lt_of_lt_of_le inside room)), blank index inside]
    · rw [isUpdateValid_congr update, valid]

theorem copied_installed (valid : isUpdateValid flash = true) (pending : Pending sent flash)
    (copied : ∀ index < fwPartitionSizeBytes, after (fwPartitionOffset + index) = flash (updatePartitionOffset + index)) :
    isFwValid after = true ∧ Installed first sent after := by
  have page : 256 ≤ fwPartitionSizeBytes := by decide
  constructor
  · rw [isUpdateValid, decide_eq_true_iff] at valid
    rw [isFwValid, decide_eq_true_iff]
    exact (checksum_congr fun index inside => copied index (by omega)).mpr valid
  · obtain ⟨update, known, fits, bytes⟩ := pending
    refine .inr ⟨update, known, fits, fun index inside => ?_⟩
    rw [copied index (Nat.lt_of_lt_of_le inside fits), bytes index inside]

theorem Stage.pending (stage : Stage first sent flash) (asked : scratch0 = modchipUpdateMagic → Pending sent flash)
    (updating : scratch0 = modchipUpdateMagic ∨ ¬ isFwValid flash = true) : Pending sent flash := by
  cases stage with
  | installed valid image =>
    rcases updating with requested | broken
    · exact asked requested
    · exact absurd valid broken
  | copying blank valid pending => exact pending

theorem Stage.idle (stage : Stage first sent flash)
    (nothing : ¬ ((scratch0 = modchipUpdateMagic ∨ ¬ isFwValid flash = true) ∧ isUpdateValid flash = true)) :
    main flash scratch0 = [] ∧ isFwValid flash = true ∧ Installed first sent flash := by
  constructor
  · simp only [main, tryUpdateFirmware]
    split
    next updating => exact if_neg fun valid => nothing ⟨updating, valid⟩
    · rfl
  · cases stage with
    | installed valid image => exact ⟨valid, image⟩
    | copying blank valid pending =>
      have broken : isFwValid flash = false := isFwValid_blank blank
      exact absurd ⟨.inr (by simp [broken]), valid⟩ nothing

theorem main_updating (updating : scratch0 = modchipUpdateMagic ∨ ¬ isFwValid flash = true) :
    main flash scratch0 = tryUpdateFirmware flash := if_pos updating

theorem boot_complete (stage : Stage first sent flash) (asked : scratch0 = modchipUpdateMagic → Pending sent flash) :
    isFwValid (applyAll (main flash scratch0) flash) = true ∧
      Installed first sent (applyAll (main flash scratch0) flash) := by
  by_cases updating : (scratch0 = modchipUpdateMagic ∨ ¬ isFwValid flash = true) ∧ isUpdateValid flash = true
  · rw [main_updating updating.1]
    exact copied_installed updating.2 (stage.pending asked updating.1) fun index inside => update_complete updating.2 inside
  · obtain ⟨ops, installed⟩ := stage.idle updating
    rw [ops]
    exact installed

/-- An update that is cut has not begun, or can go on, unless it was cut in the last sector. -/
theorem copy_cut (updating : scratch0 = modchipUpdateMagic ∨ ¬ isFwValid flash = true) (valid : isUpdateValid flash = true)
    (pending : Pending sent flash) {steps : Nat} (whole : ¬ (Boot.mk scratch0 steps).Tears flash) :
    steps = 0 ∨ Stage first sent (applyAll ((main flash scratch0).take steps) flash) := by
  have ops := main_updating updating
  have update (index : Nat) : applyAll ((tryUpdateFirmware flash).take steps) flash (updatePartitionOffset + index) =
      flash (updatePartitionOffset + index) := by
    apply applyAll_outside
    intro op member covered
    have bounds := tryUpdateFirmware_covers (List.mem_of_mem_take member) covered
    have apart : updatePartitionOffset = fwPartitionOffset + fwPartitionSizeBytes := rfl
    omega
  rw [ops]
  cases update_progress valid steps with
  | untouched none same => exact .inl none
  | copying some blank =>
    refine .inr (.copying blank ?_ (pending.congr fun index _ => update index))
    rw [isUpdateValid_congr fun index _ => update index, valid]
  | writing pages some position image =>
    -- what is not written yet is blank in the update, too
    have copied : ∀ index < fwPartitionSizeBytes, applyAll ((tryUpdateFirmware flash).take steps) flash
        (fwPartitionOffset + index) = flash (updatePartitionOffset + index) := by
      intro index inside
      rw [image index inside]
      split
      next rest =>
        by_contra differs
        apply whole
        have few : pages < 16 := by
          obtain ⟨low, high⟩ := rest
          simp only [flashPageSize, flashSectorSize] at low high
          omega
        refine ⟨pages, some, few, ?_, index, rest.1, rest.2, Ne.symm differs⟩
        show steps + 16 = (main flash scratch0).length + pages
        rw [ops]
        rcases position with exact | full
        · exact exact
        · omega
      · rfl
    obtain ⟨now, installed⟩ := copied_installed valid pending copied
    exact .inr (.installed now installed)

theorem boot_cut (stage : Stage first sent flash) (asked : scratch0 = modchipUpdateMagic → Pending sent flash)
    {steps : Nat} (whole : ¬ (Boot.mk scratch0 steps).Tears flash) :
    Stage first sent (applyAll ((main flash scratch0).take steps) flash) := by
  by_cases updating : (scratch0 = modchipUpdateMagic ∨ ¬ isFwValid flash = true) ∧ isUpdateValid flash = true
  · rcases copy_cut updating.1 updating.2 (stage.pending asked updating.1) whole with none | still
    · rw [none]
      exact stage
    · exact still
  · rw [(stage.idle updating).1, List.take_nil]
    exact stage

/-- Out of reset. -/
structure Resting (first : Flash) (sent : Update → Prop) (flash : Flash) (scratch0 : U32) : Prop where
  stage : Stage first sent flash
  asked : scratch0 = modchipUpdateMagic → Pending sent flash
  logged : ∃ log, Replays flash log

/-- While the firmware runs. -/
structure Running (first : Flash) (sent : Update → Prop) (world : World) : Prop where
  valid : isFwValid world.flash = true
  image : Installed first sent world.flash
  durable : SettingsDurable world.flash world.settings
  asked : world.scratch0 = modchipUpdateMagic → world.rebooting = true ∧ Pending sent world.flash

def Device.Sound (first : Flash) (sent : Update → Prop) : Device → Prop
  | .reset flash scratch0 => Resting first sent flash scratch0
  | .running world => Running first sent world ∧ world.rebooting = false
  | .usbBoot _ => False

theorem no_request : ¬ (0 : U32) = modchipUpdateMagic := by decide

theorem Running.resting (running : Running first sent world) : Resting first sent world.flash world.scratch0 := by
  obtain ⟨log, replays, _⟩ := durable_replays running.durable
  exact ⟨.installed running.valid running.image, fun request => (running.asked request).2, log, replays⟩

theorem Resting.powerLoss (resting : Resting first sent flash scratch0) : Resting first sent flash 0 :=
  ⟨resting.stage, fun request => absurd request no_request, resting.logged⟩

theorem Running.ofWorld (running : Running first sent world) : (Device.ofWorld world).Sound first sent := by
  rw [Device.ofWorld]
  split
  · exact running.resting
  next awake => exact ⟨running, Bool.eq_false_iff.mpr awake⟩

theorem Running.quiet (running : Running first sent world) (awake : world.rebooting = false) :
    world.scratch0 ≠ modchipUpdateMagic := by
  intro request
  rw [(running.asked request).1] at awake
  cases awake

theorem settings_behind_fw {ops : List FlashOp} (member : ∀ op ∈ ops, op ∈ main flash scratch0) :
    ∀ address, InSettings address → applyAll ops after address = after address := by
  intro address settings
  apply applyAll_outside
  intro op issued covered
  have bounds := main_covers (member op issued) covered
  have room : fwPartitionOffset + fwPartitionSizeBytes ≤ settingsPartitionOffset := by decide
  have start := settings.1
  omega

/-- The firmware is started by the bootloader, which can be cut before. -/
structure Boots (flash : Flash) (scratch0 : U32) (ops : List FlashOp) (world : World) : Prop where
  booted : Device.boot flash scratch0 = some (ops, .running world)
  durable : SettingsDurable world.flash world.settings
  idle : world.rebooting = false ∧ world.scratch0 = 0
  apart : ∀ address, ¬ InSettings address → world.flash address = applyAll (main flash scratch0) flash address
  cutImages : ∀ steps address, InImages address →
    interrupt ops steps flash address = applyAll ((main flash scratch0).take steps) flash address
  cutLogged : ∀ steps, ∃ log, Replays (interrupt ops steps flash) log

theorem boots (valid : isFwValid (applyAll (main flash scratch0) flash) = true) (replays : Replays flash log) :
    ∃ ops world, Boots flash scratch0 ops world := by
  have found := replays.congr (settings_kept (@settings_behind_fw flash flash scratch0 _ fun _ member => member))
  obtain ⟨state, init, started, durable, _, cut, _⟩ := settingsInit_cut found
  have only := settingsInit_only found started
  have apart : ∀ op ∈ init, ∀ address, ¬ InSettings address → ¬ op.covers address :=
    fun op member address outside covered => outside (only op member address covered)
  have pieces := flatMap_pieces (main_single flash scratch0)
  have split (steps : Nat) : interrupt (main flash scratch0) steps flash = applyAll ((main flash scratch0).take steps) flash := by
    rw [interrupt, pieces]
  refine ⟨main flash scratch0 ++ init, .powerUp (applyAll init (applyAll (main flash scratch0) flash)) state, ?_, durable,
    ⟨rfl, rfl⟩, fun address outside => applyAll_outside fun op member => apart op member address outside,
    fun steps address images => ?_, fun steps => ?_⟩
  · simp only [Device.boot, tryStartFirmware, valid, if_true, started]
    rfl
  · rw [interrupt_append, interrupt_outside apart _ (images_not_settings images), split]
  · rw [interrupt_append, pieces, split]
    rcases Nat.le_total (main flash scratch0).length steps with done | early
    · rw [List.take_of_length_le done]
      exact cut.interrupted _
    · rw [Nat.sub_eq_zero_of_le early, interrupt, List.take_zero]
      refine ⟨log, replays.congr (settings_kept ?_)⟩
      exact @settings_behind_fw flash flash scratch0 _ fun _ member => List.mem_of_mem_take member

theorem Boots.run {ops : List FlashOp} (boots : Boots flash scratch0 ops world) :
    Device.run config (.reset flash scratch0) .boot = some (.running world) := by
  rw [Device.run, boots.booted]
  rfl

theorem Boots.runCut {ops : List FlashOp} (boots : Boots flash scratch0 ops world) (steps : Nat) :
    Device.run config (.reset flash scratch0) (.bootCut steps) = some (.reset (interrupt ops steps flash) 0) := by
  rw [Device.run, boots.booted]
  rfl

theorem Boots.running {ops : List FlashOp} (boots : Boots flash scratch0 ops world)
    (valid : isFwValid (applyAll (main flash scratch0) flash) = true)
    (image : Installed first sent (applyAll (main flash scratch0) flash)) :
    (Device.running world).Sound first sent := by
  have fw := @fw_same (applyAll (main flash scratch0) flash) world.flash first sent
    fun index inside => boots.apart _ (images_not_settings (fw_in_images inside))
  refine ⟨⟨fw.1.trans valid, fw.2 image, boots.durable, fun request => ?_⟩, boots.idle.1⟩
  rw [boots.idle.2] at request
  exact absurd request no_request

theorem Boots.cut {ops : List FlashOp} (boots : Boots flash scratch0 ops world) {steps : Nat}
    (stage : Stage first sent (applyAll ((main flash scratch0).take steps) flash)) :
    Resting first sent (interrupt ops steps flash) 0 :=
  ⟨stage.congr (boots.cutImages steps), fun request => absurd request no_request, boots.cutLogged steps⟩

/-- Out of reset the firmware starts. If power is lost before, it does the next time. -/
theorem Resting.boot (resting : Resting first sent flash scratch0) :
    ∃ ops world, Boots flash scratch0 ops world ∧ (Device.running world).Sound first sent ∧
      ∀ steps, ¬ (Boot.mk scratch0 steps).Tears flash → Resting first sent (interrupt ops steps flash) 0 := by
  obtain ⟨valid, image⟩ := boot_complete resting.stage resting.asked
  obtain ⟨log, replays⟩ := resting.logged
  obtain ⟨ops, world, starts⟩ := boots valid replays
  exact ⟨ops, world, starts, starts.running valid image,
    fun steps whole => starts.cut (boot_cut resting.stage resting.asked whole)⟩

/-- A call that has nothing to do with updates. -/
def Plain : Call → Prop
  | .writeFlashSector _ _ _ | .eraseFlashSector _ _ _ => False
  | .reboot mode => mode ≠ modchipRebootModeUpdate
  | _ => True

variable {made : Call}

theorem plain_sector (plain : Plain made) : ¬ (callCmd made = .writeFlashSector ∨ callCmd made = .eraseFlashSector) := by
  cases made with
  | writeFlashSector | eraseFlashSector => exact plain.elim
  | _ => rintro (never | never) <;> cases never

theorem plain_inside (plain : Plain made) : SectorsInside config made := by
  intro world
  cases made with
  | writeFlashSector | eraseFlashSector => exact plain.elim
  | _ => trivial

theorem plain_images (plain : Plain made) (durable : SettingsDurable world.flash world.settings) :
    ∀ op ∈ flashOps (runCall config made world).2, ∀ address, InImages address → ¬ op.covers address := by
  by_cases set : callCmd made = .kvSet
  · obtain ⟨key, value, rfl⟩ := callCmd_kvSet set
    rcases @runCall_kvSet_ops config key value world with ⟨ops, _⟩ | ⟨_, ops, _⟩
    · rw [ops]
      exact List.forall_mem_nil _
    · rw [ops]
      intro op member address images covered
      exact images_not_settings images ((kvSetter key value).run_only durable.settled.placed op member address covered)
  · rw [← execute_call]
    intro op member
    rcases flash_source (mem_flashOps.mp member) with never | ⟨sector, _⟩
    · exact absurd never set
    · exact absurd sector (plain_sector plain)

theorem plain_scratch0 (plain : Plain made) (world : World) :
    (runCall config made world).1.scratch0 = world.scratch0 := by
  by_cases reboot : callCmd made = .reboot
  · cases made with
    | reboot mode =>
      rcases (@runCall_reboot config mode world).2.2.1 with refused | ⟨_, same | update⟩
      · rw [refused]
      · exact same
      · exact absurd update plain
    | _ => cases reboot
  · rw [← execute_call]
    exact (execute_rebooting reboot _ _).1

theorem Running.call (running : Running first sent world) (awake : world.rebooting = false) (plain : Plain made) :
    Running first sent (runCall config made world).1 := by
  have same (address : Nat) (images : InImages address) :
      (runCall config made world).1.flash address = world.flash address := by
    rw [call_flash]
    exact applyAll_outside fun op member => plain_images plain running.durable op member address images
  have fw := @fw_same world.flash (runCall config made world).1.flash first sent
    fun index inside => same _ (fw_in_images inside)
  refine ⟨fw.1.trans running.valid, fw.2 running.image, runCall_durable running.durable (plain_inside plain), ?_⟩
  rw [plain_scratch0 plain]
  exact fun request => absurd request (running.quiet awake)

theorem Running.callCut (running : Running first sent world) (plain : Plain made) (steps : Nat) :
    Resting first sent (interrupt (flashOps (runCall config made world).2) steps world.flash) 0 := by
  refine ⟨?_, fun request => absurd request no_request, ?_⟩
  · exact running.resting.stage.congr fun address images =>
      interrupt_outside (plain_images plain running.durable) steps images
  · exact (runCall_cut running.durable (plain_inside plain)).interrupted steps

theorem apart_fw {updateType : UpdateType} {index : Nat} (inside : index < fwPartitionSizeBytes) :
    Apart config updateType (fwPartitionOffset + index) := by
  have update : fwPartitionOffset + fwPartitionSizeBytes = updatePartitionOffset := rfl
  have apps : fwPartitionOffset + fwPartitionSizeBytes ≤ appsPartitionOffset := by decide
  cases updateType with
  | fw => exact .inl (by show _ < updatePartitionOffset; omega)
  | apps => exact .inl (by show _ < appsPartitionOffset; omega)

theorem apart_settings {updateType : UpdateType} {address : Nat} (settings : InSettings address) :
    Apart config updateType address := by
  have update : updatePartitionOffset + updatePartitionSizeBytes = settingsPartitionOffset := rfl
  have apps : settingsPartitionOffset + wearLevelingBackingSize = appsPartitionOffset := rfl
  obtain ⟨low, high⟩ := settings
  cases updateType with
  | fw => exact .inr (by show updatePartitionOffset + updatePartitionSizeBytes ≤ _; omega)
  | apps => exact .inl (by show _ < appsPartitionOffset; omega)

theorem Running.install (running : Running first sent world) (awake : world.rebooting = false)
    {updateType : UpdateType} {deliveries : List Delivery} (known : updateType = .fw → sent update) :
    Running first sent (installUpdate config updateType update ⟨world, deliveries, []⟩).world := by
  obtain ⟨apart, settings, rebooted⟩ := installUpdate_installs config updateType update world deliveries
  have fw := @fw_same world.flash (installUpdate config updateType update ⟨world, deliveries, []⟩).world.flash first sent
    fun index inside => apart _ (apart_fw inside)
  refine ⟨fw.1.trans running.valid, fw.2 running.image, ?_, fun request => ?_⟩
  · rw [settings]
    exact durable_congr running.durable fun address inside => apart _ (apart_settings inside)
  · rcases rebooted with same | ⟨started, rfl, image⟩
    · exact absurd (same.symm.trans request) (running.quiet awake)
    · exact ⟨started, update, known rfl, image⟩

theorem Running.installCut (running : Running first sent world) (updateType : UpdateType) (update : Update)
    (deliveries : List Delivery) (heard steps : Nat) :
    Resting first sent
      ((installUpdate config updateType update ⟨world, deliveries, []⟩).cutFlash config heard steps) 0 := by
  have apart {address : Nat} := @installUpdate_cut config updateType update world deliveries heard steps address
  obtain ⟨log, replays, _⟩ := durable_replays running.durable
  have fw := @fw_same world.flash ((installUpdate config updateType update ⟨world, deliveries, []⟩).cutFlash config heard steps)
    first sent fun index inside => apart (apart_fw inside)
  refine ⟨.installed (fw.1.trans running.valid) (fw.2 running.image), fun request => absurd request no_request, log, ?_⟩
  exact replays.congr (settings_kept fun address inside => apart (apart_settings inside))

def updated (update : Update) : Flash := fun address => update.byte (address - fwPartitionOffset)

theorem Installed.image (fits : update.size.toNat ≤ updatePartitionSizeBytes)
    (installed : Installed (updated update) (· = update) flash) : Image fwPartitionOffset update flash := by
  rcases installed with same | ⟨other, rfl, image⟩
  · refine ⟨fits, fun index inside => ?_⟩
    have room : updatePartitionSizeBytes = fwPartitionSizeBytes := rfl
    rw [Flash.read_eq_iff.mp same index (by omega), updated, Nat.add_sub_cancel_left]
  · exact image

/-- The image of the update is in its partition, and can be started. -/
structure Ready (update : Update) (flash : Flash) : Prop where
  valid : isUpdateValid flash = true
  image : Image updatePartitionOffset update flash
  logged : ∃ log, Replays flash log

/-- The bootloader that is asked for the update makes it, or goes on with it
after power is lost, once it has erased the old firmware. -/
theorem Ready.boot (ready : Ready update flash) :
    ∃ ops world, Boots flash modchipUpdateMagic ops world ∧ (Device.running world).Sound (updated update) (· = update) ∧
      ∀ steps, steps ≠ 0 → ¬ (Boot.mk modchipUpdateMagic steps).Tears flash →
        Resting (updated update) (· = update) (interrupt ops steps flash) 0 := by
  have pending : Pending (· = update) flash := ⟨update, rfl, ready.image⟩
  have updating : modchipUpdateMagic = modchipUpdateMagic ∨ ¬ isFwValid flash = true := .inl rfl
  have copied := @copied_installed flash (applyAll (main flash modchipUpdateMagic) flash) (updated update) _ ready.valid
    pending fun index inside => by
      rw [main_updating updating]
      exact update_complete ready.valid inside
  obtain ⟨log, replays⟩ := ready.logged
  obtain ⟨ops, world, starts⟩ := boots copied.1 replays
  refine ⟨ops, world, starts, starts.running copied.1 copied.2, fun steps some whole => ?_⟩
  rcases @copy_cut flash (updated update) _ _ updating ready.valid pending steps whole with none | stage
  · exact absurd none some
  · exact starts.cut stage

theorem Running.requests (running : Running first sent world) (awake : world.rebooting = false)
    {deliveries : List Delivery} (whole : update.size.toNat % 4096 = 0) (some : 0 < update.size.toNat)
    (fits : update.size.toNat < updatePartitionSizeBytes)
    (valid : isUpdateValid (fun address => update.byte (address - updatePartitionOffset)) = true)
    (lossless : Lossless (update.size.toNat / 4096 + 5) deliveries) :
    ∃ flash, Device.run config (.running world) (.install .fw update deliveries) =
      Option.some (.reset flash modchipUpdateMagic) ∧ Ready update flash := by
  obtain ⟨rebooting, request⟩ := @installUpdate_requests config update world deliveries whole some fits lossless
  obtain ⟨apart, _, rebooted⟩ := installUpdate_installs config .fw update world deliveries
  obtain ⟨log, replays, _⟩ := durable_replays running.durable
  refine ⟨(installUpdate config .fw update ⟨world, deliveries, []⟩).world.flash, ?_, ?_, ?_, log, ?_⟩
  · rw [Device.run, Device.ofWorld, if_pos rebooting, request]
  all_goals rcases rebooted with same | ⟨_, _, image⟩
  · exact absurd (same.symm.trans request) (running.quiet awake)
  · rw [isUpdateValid, decide_eq_true_iff] at valid ⊢
    refine (checksum_congr fun index inside => ?_).mp valid
    rw [Nat.add_sub_cancel_left, image.bytes index (by omega)]
  · exact absurd (same.symm.trans request) (running.quiet awake)
  · exact image
  · exact absurd (same.symm.trans request) (running.quiet awake)
  · exact replays.congr (settings_kept fun address inside => apart address (apart_settings inside))

namespace Device

def Step.Known (sent : Update → Prop) : Step → Prop
  | .call made | .callCut made _ => Plain made
  | .install .fw update _ => sent update
  | _ => True

/-- Power is lost while the bootloader writes the first sector of the firmware. -/
def Tears : Device → Step → Prop
  | .reset flash scratch0, .bootCut steps => (Boot.mk scratch0 steps).Tears flash
  | _, _ => False

variable {device : Device} {step : Step}

/-- Every step returns, and keeps what is known unless it tears the firmware. -/
theorem Sound.run (config : Config) (sound : device.Sound first sent) (known : step.Known sent) :
    ∃ next, device.run config step = some next ∧ (¬ device.Tears step → next.Sound first sent) := by
  cases device with
  | usbBoot flash => exact sound.elim
  | reset flash scratch0 =>
    have resting : Resting first sent flash scratch0 := sound
    cases step with
    | boot =>
      obtain ⟨ops, world, starts, running, _⟩ := resting.boot
      exact ⟨.running world, starts.run, fun _ => running⟩
    | bootCut steps =>
      obtain ⟨ops, world, starts, _, cut⟩ := resting.boot
      exact ⟨.reset (interrupt ops steps flash) 0, starts.runCut steps, cut steps⟩
    | powerLoss => exact ⟨_, rfl, fun _ => resting.powerLoss⟩
    | call | callCut | install | installCut | resetButton => exact ⟨_, rfl, fun _ => resting⟩
  | running world =>
    obtain ⟨running, awake⟩ := sound
    cases step with
    | boot | bootCut => exact ⟨_, rfl, fun _ => ⟨running, awake⟩⟩
    | call made => exact ⟨_, rfl, fun _ => (running.call awake known).ofWorld⟩
    | callCut made steps => exact ⟨_, rfl, fun _ => running.callCut known steps⟩
    | install updateType update deliveries =>
      refine ⟨_, rfl, fun _ => (running.install awake ?_).ofWorld⟩
      rintro rfl
      exact known
    | installCut updateType update deliveries steps => exact ⟨_, rfl, fun _ => running.installCut _ _ _ _ _⟩
    | resetButton => exact ⟨_, rfl, fun _ => running.resting⟩
    | powerLoss => exact ⟨_, rfl, fun _ => running.resting.powerLoss⟩

theorem Sound.runs {config : Config} {steps : List Step} (sound : device.Sound first sent)
    (known : ∀ step ∈ steps, step.Known sent)
    (whole : Along (Device.run config) (fun device step => ¬ device.Tears step) device steps) :
    ∃ last, device.runs config steps = some last ∧ last.Sound first sent := by
  induction steps generalizing device with
  | nil => exact ⟨device, rfl, sound⟩
  | cons step steps ih =>
    obtain ⟨next, ran, kept⟩ := sound.run config (known step List.mem_cons_self)
    obtain ⟨here, later⟩ := whole next ran
    obtain ⟨last, finished, lastSound⟩ :=
      ih (kept here) (fun other member => known other (List.mem_cons_of_mem _ member)) later
    exact ⟨last, by rw [Device.runs, ran]; exact finished, lastSound⟩

/-- Wherever the modchip is, it starts when power comes back. -/
theorem Sound.restarts (config : Config) (sound : device.Sound first sent) :
    ∃ world, Device.run config (.reset device.flash 0) .boot = some (.running world) ∧ Running first sent world := by
  have resting : Resting first sent device.flash 0 := by
    cases device with
    | usbBoot flash => exact sound.elim
    | reset flash scratch0 => exact Resting.powerLoss sound
    | running world => exact sound.1.resting.powerLoss
  obtain ⟨ops, world, starts, running, _⟩ := resting.boot
  exact ⟨world, starts.run, running.1⟩

/-- The firmware updates of a session. -/
def Sent (steps : List Step) (update : Update) : Prop := ∃ deliveries, .install .fw update deliveries ∈ steps

def Step.Plain : Step → Prop
  | .call made | .callCut made _ => Fruitchip.Plain made
  | _ => True

theorem sound_reset (valid : isFwValid first = true)
    (erased : ∀ address < settingsPartitionSizeBytes, first (settingsPartitionOffset + address) = 0xFF) :
    (reset first 0).Sound first sent :=
  ⟨.installed valid (.inl rfl), fun request => absurd request no_request, (off_erased erased).1.replays⟩

theorem known_sent {steps : List Step} (plain : ∀ step ∈ steps, step.Plain) : ∀ step ∈ steps, step.Known (Sent steps) := by
  intro step member
  have fine := plain step member
  cases step with
  | call | callCut => exact fine
  | install updateType update deliveries =>
    cases updateType with
    | fw => exact ⟨deliveries, member⟩
    | apps => trivial
  | _ => trivial

/-- Whatever updates are written and wherever power is lost, the modchip does not
end in USB boot, it can be started, and what runs then is the firmware it came
with or an update of the session, whole. -/
theorem updates_survive_power_cycles (config : Config) {first : Flash} (valid : isFwValid first = true)
    (erased : ∀ address < settingsPartitionSizeBytes, first (settingsPartitionOffset + address) = 0xFF)
    {steps : List Step} (plain : ∀ step ∈ steps, step.Plain)
    (whole : Along (Device.run config) (fun device step => ¬ device.Tears step) (.reset first 0) steps) :
    ∃ last world, runs config (.reset first 0) steps = some last ∧ (∀ flash, last ≠ .usbBoot flash) ∧
      (∀ world, last = .running world → Installed first (Sent steps) world.flash) ∧
      Device.run config (.reset last.flash 0) .boot = some (.running world) ∧ Installed first (Sent steps) world.flash := by
  obtain ⟨last, ran, sound⟩ := Sound.runs (sound_reset valid erased) (known_sent plain) whole
  obtain ⟨world, started, running⟩ := sound.restarts config
  refine ⟨last, world, ran, ?_, ?_, started, running.image⟩
  · rintro flash rfl
    exact sound
  · rintro now rfl
    exact sound.1.image

theorem untorn_one : ¬ (Boot.mk scratch0 1).Tears flash := by
  rintro ⟨pages, some, few, position, _⟩
  have total : (main flash scratch0).length = 0 ∨ 17 ≤ (main flash scratch0).length := by
    simp only [main]
    split
    · by_cases valid : isUpdateValid flash = true
      · have length := update_length valid
        rw [copyOps, List.length_cons] at length
        exact .inr (by omega)
      · exact .inl (congrArg List.length (if_neg valid))
    · exact .inl rfl
  have count : 1 + 16 = (main flash scratch0).length + pages := position
  omega

theorem along_untorn {device : Device} {steps : List Step} (early : ∀ step ∈ steps, ∀ taken, step = .bootCut taken → taken = 1) :
    Along (Device.run config) (fun device step => ¬ device.Tears step) device steps := by
  induction steps generalizing device with
  | nil => trivial
  | cons step steps ih =>
    refine fun next ran => ⟨fun tears => ?_, ih fun other member => early other (List.mem_cons_of_mem _ member)⟩
    cases device with
    | reset flash scratch0 =>
      cases step with
      | bootCut taken =>
        obtain rfl := early _ List.mem_cons_self taken rfl
        exact untorn_one tears
      | _ => exact tears
    | _ => exact tears

theorem tornFlash_erased : ∀ address < settingsPartitionSizeBytes, tornFlash (settingsPartitionOffset + address) = 0xFF := by
  intro address inside
  apply tornFlash_blank
  have fw : fwPartitionOffset + 256 < settingsPartitionOffset := by decide
  have update : updatePartitionOffset + 256 < settingsPartitionOffset := by decide
  rintro offset (rfl | rfl)
  · exact .inr (by omega)
  · exact .inr (by omega)

/-- Power is lost before and after an update whose first frame gets lost. -/
def unluckySession : List Step :=
  [.bootCut 1, .boot, .call (.settingsSet 1 30), .install .fw oneSector [], .powerLoss]

theorem updates_survive_power_cycles_torn :
    ∃ last world, runs default (.reset tornFlash 0) unluckySession = some last ∧ (∀ flash, last ≠ .usbBoot flash) ∧
      (∀ world, last = .running world → Installed tornFlash (Sent unluckySession) world.flash) ∧
      Device.run default (.reset last.flash 0) .boot = some (.running world) ∧
      Installed tornFlash (Sent unluckySession) world.flash := by
  refine updates_survive_power_cycles default tornFlash_firmware tornFlash_erased ?_ (along_untorn ?_)
  · simp [unluckySession, Step.Plain, Fruitchip.Plain]
  · simp [unluckySession]

theorem runs_cons {next : Device} {steps : List Step} (ran : device.run config step = some next) :
    device.runs config (step :: steps) = next.runs config steps := by
  rw [runs, ran]
  rfl

/-- Power can be lost any number of times while the bootloader makes the update. -/
theorem cuts_then_boot {cuts : List Nat} (resting : Resting first sent flash 0)
    (whole : Along (Device.run config) (fun device step => ¬ device.Tears step) (.reset flash 0)
      (cuts.map .bootCut ++ [.boot])) :
    ∃ world, runs config (.reset flash 0) (cuts.map .bootCut ++ [.boot]) = some (.running world) ∧
      Installed first sent world.flash := by
  induction cuts generalizing flash with
  | nil =>
    obtain ⟨ops, world, starts, running, _⟩ := resting.boot
    exact ⟨world, runs_cons starts.run, running.1.image⟩
  | cons steps cuts ih =>
    obtain ⟨ops, world, starts, _, cut⟩ := resting.boot
    obtain ⟨here, later⟩ := whole _ (starts.runCut steps)
    rw [List.map_cons, List.cons_append, runs_cons (starts.runCut steps)]
    exact ih (cut steps here) later

/-- An update that arrives whole is what runs in the end, unless power is lost
before the bootloader erases the old firmware. -/
theorem update_installs (config : Config) {first : Flash} (valid : isFwValid first = true)
    (erased : ∀ address < settingsPartitionSizeBytes, first (settingsPartitionOffset + address) = 0xFF)
    {steps : List Step} (plain : ∀ step ∈ steps, step.Plain)
    (careful : Along (Device.run config) (fun device step => ¬ device.Tears step) (.reset first 0) steps) {world : World}
    (reached : runs config (.reset first 0) steps = some (.running world)) {update : Update}
    (whole : update.size.toNat % 4096 = 0) (some : 0 < update.size.toNat)
    (fits : update.size.toNat < updatePartitionSizeBytes)
    (bootable : isUpdateValid (fun address => update.byte (address - updatePartitionOffset)) = true)
    {deliveries : List Delivery} (lossless : Lossless (update.size.toNat / 4096 + 5) deliveries) {cuts : List Nat}
    (late : cuts.head? ≠ Option.some 0)
    (still : Along (Device.run config) (fun device step => ¬ device.Tears step) (.running world)
      (.install .fw update deliveries :: (cuts.map .bootCut ++ [.boot]))) :
    ∃ last, runs config (.running world) (.install .fw update deliveries :: (cuts.map .bootCut ++ [.boot])) =
        Option.some (.running last) ∧ Image fwPartitionOffset update last.flash := by
  obtain ⟨last, ran, sound⟩ := Sound.runs (sound_reset valid erased) (known_sent plain) careful
  obtain rfl : Device.running world = last := Option.some.inj (reached.symm.trans ran)
  obtain ⟨running, awake⟩ := sound
  obtain ⟨flash, asked, ready⟩ := @Running.requests _ _ config update world running awake deliveries whole some fits
    bootable lossless
  obtain ⟨_, later⟩ := still _ asked
  obtain ⟨ops, world, starts, started, cut⟩ := ready.boot
  rw [runs_cons asked]
  cases cuts with
  | nil => exact ⟨world, runs_cons starts.run, started.1.image.image (Nat.le_of_lt fits)⟩
  | cons taken cuts =>
    obtain ⟨here, later⟩ := later _ (starts.runCut taken)
    have begun : taken ≠ 0 := fun none => late (congrArg Option.some none)
    obtain ⟨last, finished, installed⟩ := cuts_then_boot (cut taken begun here) later
    exact ⟨last, (runs_cons (starts.runCut taken)).trans finished, installed.image (Nat.le_of_lt fits)⟩

/-- The image that the torn update is made of. -/
def tornUpdate : Update := ⟨fun index => tornFlash (updatePartitionOffset + index), 4096⟩

theorem tornUpdate_bootable : isUpdateValid (fun address => tornUpdate.byte (address - updatePartitionOffset)) = true := by
  have torn := tornFlash_update
  rw [isUpdateValid, decide_eq_true_iff] at torn ⊢
  refine (checksum_congr fun index inside => ?_).mp torn
  rw [Nat.add_sub_cancel_left, tornUpdate]

theorem update_installs_torn :
    ∃ world last, runs default (.reset tornFlash 0) [.boot] = some (.running world) ∧
      runs default (.running world) (.install .fw tornUpdate (lossless 6) :: ([1, 1].map .bootCut ++ [.boot])) =
        some (.running last) ∧ Image fwPartitionOffset tornUpdate last.flash := by
  obtain ⟨world, booted, _⟩ := (@sound_reset tornFlash (fun _ => False) tornFlash_firmware tornFlash_erased).restarts default
  have reached : runs default (.reset tornFlash 0) [.boot] = some (.running world) := runs_cons booted
  obtain ⟨last, installed⟩ := @update_installs default tornFlash tornFlash_firmware tornFlash_erased [.boot]
    (List.forall_mem_singleton.mpr trivial) (along_untorn (by simp)) world reached tornUpdate (by decide) (by decide)
    (by decide) tornUpdate_bootable (lossless 6) (lossless_replicate 6) [1, 1] (by decide) (along_untorn (by simp))
  exact ⟨world, last, reached, installed⟩

end Device

end Fruitchip
