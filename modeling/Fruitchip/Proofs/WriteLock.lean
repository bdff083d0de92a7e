import Fruitchip.Proofs.FrameEffects
import Fruitchip.Proofs.SettingsDurability

/-! The flash write lock over byte streams. Only whole lock frames move it,
wherever their bytes may occur otherwise, and the sector commands test it at
the last byte of their own frame. The settings do not look at the lock: storing
them erases their partition now and then. -/

namespace Fruitchip.Firmware
open Embedded

variable {config : Config}

def unlockFrame : List U8 := Cmd.opcode .writeLock ++ [0x00, 0xFF]

private def Unlocked (world : World) : Prop := world.flashWriteLock = false

/-- A frame that opens the lock. -/
private def Unlocks (frame : Cmd × List U8) : Prop :=
  frame.1 = .writeLock ∧ frame.2.getD 0 0 ^^^ frame.2.getD 1 0 = 0xFF ∧ frame.2.getD 0 0 = 0

private def Locks (frame : Cmd × List U8) : Prop :=
  frame.1 = .writeLock ∧ frame.2.getD 0 0 ^^^ frame.2.getD 1 0 = 0xFF ∧ frame.2.getD 0 0 ≠ 0

private theorem unlocks_of (frame : Cmd × List U8) (world : World) (closed : ¬ Unlocked world)
    (opened : Unlocked ((protocol config).execute frame world).1) : Unlocks frame := by
  obtain ⟨cmd, args⟩ := frame
  rw [Unlocked, protocol_execute, execute_flashWriteLock] at opened
  split at opened
  next both => exact ⟨both.1, both.2, by simpa using opened⟩
  · exact False.elim (closed opened)

private theorem locks_close (frame : Cmd × List U8) (world : World) (locks : Locks frame) :
    ¬ Unlocked ((protocol config).execute frame world).1 := by
  obtain ⟨cmd, args⟩ := frame
  obtain ⟨lock, complement, nonzero⟩ := locks
  rw [Unlocked, protocol_execute, execute_flashWriteLock, if_pos ⟨lock, complement⟩]
  simpa using nonzero

private theorem two_args {args : List U8} (length : args.length = 2) :
    args = [args.getD 0 0, args.getD 1 0] := by
  match args, length with
  | [_, _], _ => rfl

private theorem resting_iff {start : FirmwareState} (idle : start.writeHandler = .idle) (stream : List U8) :
    ((machine config).run start stream).1.writeHandler = .idle ↔
      ((protocol config).machine.run ⟨[], start.world⟩ stream).1.pending = [] :=
  (run_refines config idle stream).2.1.idle_iff

private theorem open_since {start : FirmwareState} (idle : start.writeHandler = .idle)
    (locked : start.world.flashWriteLock = true) {before : List U8}
    (unlocked : ((machine config).run start before).1.world.flashWriteLock = false) :
    ∃ first rest, before = first ++ unlockFrame ++ rest ∧
      ((machine config).run start first).1.writeHandler = .idle ∧
      ∀ skipped v x more, rest = skipped ++ (Cmd.opcode .writeLock ++ [v, x]) ++ more →
        ((machine config).run start (first ++ unlockFrame ++ skipped)).1.writeHandler = .idle →
        v ≠ 0 → x ≠ v ^^^ 0xFF := by
  have world := (run_refines config idle before).1
  have closed : ¬ Unlocked start.world := by simp [Unlocked, locked]
  have opened : Unlocked ((protocol config).machine.run ⟨[], start.world⟩ before).1.world := by
    rw [Unlocked, world, unlocked]
  obtain ⟨first, bytes, rest, ⟨cmd, args⟩, split, resting, isFrame, _, ⟨lock, complement, zero⟩, quiet⟩ :=
    Framing.latch unlocks_of locks_close closed opened
  obtain ⟨shape, length⟩ := verdict_complete isFrame.complete
  dsimp only at lock complement zero shape length
  subst lock
  have frame : bytes = unlockFrame := by
    rw [shape, two_args length, zero, xor8.mp complement, zero]
    rfl
  subst frame
  refine ⟨first, rest, split, (resting_iff idle first).mpr resting, ?_⟩
  rintro skipped v x more between idleAgain nonzero rfl
  refine quiet skipped _ more (.writeLock, [v, v ^^^ 0xFF]) between
    ((resting_iff idle _).mp idleAgain) (isFrame_opcode config rfl) (by simp [opcode_eq]) ⟨rfl, ?_, nonzero⟩
  exact xor_xor_self v 0xFF

/-- What the lock promises for the byte `w` after `before`. -/
structure LockDiscipline (config : Config) (start : FirmwareState) (before : List U8) (w : U8) : Prop where
  /-- The lock only moves at the end of a lock frame that began on an idle parser. -/
  moved : (handle config ((machine config).run start before).1 w).1.world.flashWriteLock ≠
      ((machine config).run start before).1.world.flashWriteLock →
    ∃ first v x, before ++ [w] = first ++ (Cmd.opcode .writeLock ++ [v, x]) ∧ x = v ^^^ 0xFF ∧
      ((machine config).run start first).1.writeHandler = .idle
  /-- A command other than KV_SET changes flash behind an unlock frame that no
  lock frame followed. -/
  guarded : ∀ op, .flash op ∈ (handle config ((machine config).run start before).1 w).2 →
    ((machine config).run start before).1.writeHandler ≠ .command .kvSet →
    ∃ first rest, before = first ++ unlockFrame ++ rest ∧
      ((machine config).run start first).1.writeHandler = .idle ∧
      ∀ skipped v x more, rest = skipped ++ (Cmd.opcode .writeLock ++ [v, x]) ++ more →
        ((machine config).run start (first ++ unlockFrame ++ skipped)).1.writeHandler = .idle →
        v ≠ 0 → x ≠ v ^^^ 0xFF

/-- From a locked power-up on, over every stream. -/
theorem flash_change_needs_unlock (config : Config) {start : FirmwareState} (idle : start.writeHandler = .idle)
    (locked : start.world.flashWriteLock = true) (before : List U8) (w : U8) :
    LockDiscipline config start before w where
  moved := by
    intro changed
    rcases step_source w idle before with ⟨same, _⟩ | source
    · exact False.elim (changed (congrArg World.flashWriteLock same))
    · obtain ⟨first, cmd, args, pending, split, bytes, length, _, resting, _, world, _⟩ := source
      rw [world, execute_flashWriteLock] at changed
      split at changed
      next both =>
        obtain ⟨rfl, complement⟩ := both
        refine ⟨first, args.getD 0 0, args.getD 1 0, ?_, ?_, resting⟩
        · rw [split, List.append_assoc, bytes, ← two_args length]
        · rw [← complement, xor_xor_self]
      · exact False.elim (changed rfl)
  guarded := by
    intro op issued notSettings
    obtain ⟨first, cmd, args, pending, _, bytes, length, tracks, _, _, effect⟩ := event_source w idle issued
    rw [effect] at issued
    rcases flash_source issued with rfl | ⟨_, unlocked⟩
    · have some : args ≠ [] := by
        rintro rfl
        cases length
      exact False.elim (notSettings (tracks.single_handler w bytes length rfl some))
    · exact open_since idle locked unlocked

theorem flash_change_needs_unlock_power_up :
    LockDiscipline default (.powerUp (fun _ => 0) ⟨.defaults, WearLeveling.clearCache⟩)
      (unlockFrame ++ Cmd.opcode .eraseFlashSector) 0x02 :=
  flash_change_needs_unlock default rfl rfl _ _

section Settings
open WearLeveling

private def settingsErase : FlashOp := .rangeErase settingsPartitionOffset settingsPartitionSizeBytes

private theorem wearLevelingWrite_byte {state : WearLeveling.State} {address : Nat} {byte : U8} (low : address < 64)
    (changed : (state.cache.drop address).take 1 ≠ [byte]) :
    settingsErase ∈ (wearLevelingWrite state address [byte]).2.2 ∨
      (wearLevelingWrite state address [byte]).1.writeAddress = state.writeAddress + 2 := by
  have fits : ¬ logicalSize < address + [byte].length := by
    simp only [logicalSize, wearLevelingBackingSize, List.length_singleton]
    omega
  have raw (state : WearLeveling.State) : writeRaw state address [byte] =
      WearLeveling.andThen (appendRaw state (logEntryMakeOptimized64 address byte)) fun state => (state, .success, []) := by
    rw [writeRaw]
    simp only [word01, low, ite_true, writeRaw]
  rw [wearLevelingWrite, if_neg fits, List.length_singleton, if_neg changed]
  simp only [raw, appendRaw, consolidateIfNeeded, backingStoreWriteSize]
  by_cases full : wearLevelingBackingSize ≤ state.writeAddress + 2
  · left
    simp only [full, ite_true, WearLeveling.andThen, consolidateForce]
    apply List.mem_append_right
    apply List.mem_append_left
    exact List.mem_singleton.mpr rfl
  · right
    simp only [full, ite_false, WearLeveling.andThen]
    rw [consolidateIfNeeded_room (Nat.lt_of_not_le full)]

/-- The command that flips the autoboot setting. -/
private def toggleCall (firmware : FirmwareState) : Client.Call :=
  .settingsSet modchipSettingsMenuAutoboot (if firmware.world.settings.settings.menuAutoboot then 0 else 1)

private theorem toggled_byte {flash : Flash} {state : SettingsState} (durable : SettingsDurable flash state) :
    (state.wearLeveling.cache.drop Settings.menuAutobootOffset).take 1 ≠
      [boolByte !state.settings.menuAutoboot] := by
  intro same
  have read : state.wearLeveling.cache.getD 4 0 = boolByte !state.settings.menuAutoboot := by
    have first := congrArg (fun bytes => bytes.getD 0 0) same
    simpa [Settings.menuAutobootOffset, List.getElem?_take] using first
  have stored : decide (state.wearLeveling.cache.getD 4 0 ≠ 0) = state.settings.menuAutoboot :=
    congrArg Settings.menuAutoboot durable.image
  rw [read] at stored
  revert stored
  cases state.settings.menuAutoboot <;> decide

private theorem runCall_toggle (config : Config) (firmware : FirmwareState) :
    let changed := runSetter firmware.world (.menuAutoboot !firmware.world.settings.settings.menuAutoboot)
    runCall config (toggleCall firmware) firmware.world =
      (changed.1, .startBusyCode :: changed.2 ++ [.stopBusyCode modchipCmdResultOk]) := by
  rw [toggleCall]
  cases firmware.world.settings.settings.menuAutoboot <;> rfl

private theorem toggle_erases_or_advances (config : Config) {firmware : FirmwareState} (ready : Ready firmware) :
    let result := (machine config).run firmware (toggleCall firmware).poked
    .flash settingsErase ∈ result.2 ∨ Ready result.1 ∧
      result.1.world.settings.wearLeveling.writeAddress =
        firmware.world.settings.wearLeveling.writeAddress + 2 := by
  obtain ⟨_, world, events⟩ := run_call config ready.idle (toggleCall firmware)
  obtain ⟨_, ran, next, _⟩ := Step.run_ready config ready
    (.kvSet modchipSettingsMenuAutoboot (if firmware.world.settings.settings.menuAutoboot then 0 else 1))
  cases ran
  rw [runCall_toggle] at world events
  have other : firmware.world.settings.settings.menuAutoboot ≠ !firmware.world.settings.settings.menuAutoboot := by
    simp
  simp only [runSetter, Setter.run, settingsSetMenuAutoboot, if_neg other, settingsUpdatePart] at world events
  rcases wearLevelingWrite_byte (by decide) (toggled_byte ready.durable) with erased | advanced
  · left
    rw [events]
    apply List.mem_append_left
    apply List.mem_cons_of_mem
    apply List.mem_cons_of_mem
    exact List.mem_map_of_mem erased
  · right
    refine ⟨next, ?_⟩
    rw [world]
    exact advanced

/-- Toggling one setting often enough fills the log, and a full log is erased. -/
private theorem exists_settings_erase (config : Config) {firmware : FirmwareState} (ready : Ready firmware) :
    ∃ stream, (0x97 : U8) ∉ stream ∧ .flash settingsErase ∈ ((machine config).run firmware stream).2 := by
  generalize space : wearLevelingBackingSize - firmware.world.settings.wearLeveling.writeAddress = room
  induction room using Nat.strongRecOn generalizing firmware with
  | ind room ih =>
    have absent : (0x97 : U8) ∉ (toggleCall firmware).poked := by
      rw [toggleCall]
      split <;> decide
    rcases toggle_erases_or_advances config ready with erased | ⟨next, advanced⟩
    · exact ⟨(toggleCall firmware).poked, absent, erased⟩
    · obtain ⟨_, log, synced, _⟩ := ready.durable.settled
      have bound := synced.room
      obtain ⟨stream, later, erased⟩ := ih _ (by omega) next rfl
      refine ⟨(toggleCall firmware).poked ++ stream, ?_, ?_⟩
      · rw [List.mem_append, not_or]
        exact ⟨absent, later⟩
      · rw [Mealy.run_append]
        exact List.mem_append_right _ erased

/-- From a power-up with a blank settings partition on, settings commands alone
erase flash while it is locked. -/
theorem settings_erase_while_locked :
    ∃ start before w, powerOn (fun _ => 0xFF) = some start ∧ start.world.flashWriteLock = true ∧
      .flash (.rangeErase settingsPartitionOffset settingsPartitionSizeBytes) ∈
        (handle default ((machine default).run start before).1 w).2 ∧
      ∀ first rest, before ≠ first ++ unlockFrame ++ rest := by
  obtain ⟨settings, ops, initialised, durable, _⟩ := @settingsInit_erased (fun _ => 0xFF) (fun _ _ => rfl)
  have ready : Ready (.powerUp (applyAll ops fun _ => 0xFF) settings) := ⟨rfl, durable⟩
  obtain ⟨stream, absent, erased⟩ := exists_settings_erase default ready
  obtain ⟨before, w, after, rfl, now⟩ := Mealy.output_source _ erased
  refine ⟨_, before, w, by rw [powerOn, initialised]; rfl, rfl, now, ?_⟩
  rintro first rest rfl
  apply absent
  have inside : (0x97 : U8) ∈ unlockFrame := by decide
  simp only [List.mem_append]
  exact .inl (.inl (.inr inside))

end Settings

end Fruitchip.Firmware
