import Fruitchip.Firmware.ReadHandlers
import Fruitchip.Proofs.FrameRefinement

/-! The parser cannot stay away from idle. All handlers share one counter, so
what each of them is called with depends on the handler before it; with that
known, every byte brings the end of the longest frame closer. -/

namespace Fruitchip.Firmware
open Embedded

variable {config : Config} {firmware : FirmwareState} (w : U8)

/-- The values of `cmd_byte_counter` for which a handler has a case, before it
counts the byte that it is called with. -/
def Expects (config : Config) : Handler → Nat → Prop
  | .idle, _ => True
  | .cmd, counter => counter = 0
  | .cmdGroup0, counter | .cmdGroup1, counter => counter = 1
  | .command cmd, counter => 2 ≤ counter ∧ counter ≤ 2 + (switchOf config cmd).stores.length
  | .readEeStage3, counter => counter = 20
  | .readAppsPartition, counter => counter = 22
  | .eraseFlashSector, counter => counter = 20
  | .writeFlashSector, counter => 21 ≤ counter ∧ counter ≤ flashSectorSize + 20

def Expected (config : Config) (firmware : FirmwareState) : Prop :=
  Expects config firmware.writeHandler firmware.cmdByteCounter

/-- An opcode, the fields of `write_flash_sector` and its sector. -/
def longestFrame : Nat := 4 + argLength .writeFlashSector

theorem frame_le_longest (cmd : Cmd) : 4 + argLength cmd ≤ longestFrame := by
  apply Nat.add_le_add_left
  cases cmd
  all_goals decide

/-- The bytes of the frame under way. -/
def received (firmware : FirmwareState) : Nat :=
  if firmware.writeHandler = .idle then 0 else firmware.cmdByteCounter + 1

/-- The bytes left to the end of the longest frame. -/
def remaining (firmware : FirmwareState) : Nat := longestFrame - received firmware

/-- A byte that does not lead to idle is one byte more of the frame. -/
structure Advances (config : Config) (firmware next : FirmwareState) : Prop where
  expected : Expected config next
  received : received next = received firmware + 1

theorem received_idle (idle : firmware.writeHandler = .idle) : received firmware = 0 := if_pos idle

theorem received_busy (busy : firmware.writeHandler ≠ .idle) :
    received firmware = firmware.cmdByteCounter + 1 := if_neg busy

/-- A handler that stays, or hands over, and has counted its byte. -/
private theorem counted_advances {next : FirmwareState} (busy : firmware.writeHandler ≠ .idle)
    (away : next.writeHandler ≠ .idle) (counter : next.cmdByteCounter = firmware.cmdByteCounter + 1)
    (expected : Expected config next) : Advances config firmware next := by
  refine ⟨expected, ?_⟩
  rw [received_busy busy, received_busy away, counter]

private theorem switch_cases (switch : Switch) (low : 2 ≤ firmware.cmdByteCounter)
    (high : firmware.cmdByteCounter ≤ 2 + switch.stores.length) :
    let next := (switch.handle firmware w).1
    next.writeHandler = .idle ∨ next.cmdByteCounter = firmware.cmdByteCounter + 1 ∧
      (next.writeHandler = firmware.writeHandler ∧ firmware.cmdByteCounter < 2 + switch.stores.length ∨
        next.writeHandler = switch.next ∧ firmware.cmdByteCounter = 2 + switch.stores.length) := by
  have early : ¬ firmware.cmdByteCounter + 1 < 3 := by omega
  simp only [Switch.handle, if_neg early]
  by_cases opcode : firmware.cmdByteCounter + 1 = 3
  · rw [if_pos opcode]
    split
    · exact .inl rfl
    · split
      next empty =>
        rw [List.isEmpty_iff] at empty
        rw [empty]
        exact .inr ⟨rfl, .inr ⟨rfl, by simp; omega⟩⟩
      next more =>
        have some : 0 < switch.stores.length := List.length_pos_iff.mpr (by simpa using more)
        exact .inr ⟨rfl, .inl ⟨rfl, by omega⟩⟩
  · rw [if_neg opcode]
    split
    · exact .inl rfl
    · split
      next last => exact .inr ⟨rfl, .inr ⟨rfl, by change _ + 1 - 3 = _ at last; omega⟩⟩
      next more => exact .inr ⟨rfl, .inl ⟨rfl, by change ¬ _ + 1 - 3 = _ at more; omega⟩⟩

private theorem next_expects (config : Config) (cmd : Cmd) :
    Expects config (switchOf config cmd).next (2 + (switchOf config cmd).stores.length + 1) := by
  cases cmd
  case readEeStage3 | readApp | eraseFlashSector => rfl
  case writeFlashSector => exact ⟨Nat.le_refl 21, Nat.le_add_left 21 4095⟩
  all_goals trivial

private theorem command_advances {cmd : Cmd} (handler : firmware.writeHandler = .command cmd)
    (expected : Expected config firmware) :
    let next := (handle config firmware w).1
    next.writeHandler = .idle ∨ Advances config firmware next := by
  simp only [Expected, handler, Expects] at expected
  simp only [handle, handler]
  have busy : firmware.writeHandler ≠ .idle := by simp [handler]
  by_cases ended : ((switchOf config cmd).handle firmware w).1.writeHandler = .idle
  · exact .inl ended
  · apply Or.inr
    rcases switch_cases w (switchOf config cmd) expected.1 expected.2 with idle | ⟨counter, stays | hands⟩
    · exact absurd idle ended
    · apply counted_advances busy ended counter
      simp only [Expected, stays.1, handler, counter, Expects]
      omega
    · apply counted_advances busy ended counter
      simp only [Expected, hands.1, counter, hands.2]
      exact next_expects config cmd

private theorem group_advances (cases : List Cmd) (busy : firmware.writeHandler ≠ .idle)
    (counter : firmware.cmdByteCounter = 1) :
    let next := (handleGroup cases firmware w).1
    next.writeHandler = .idle ∨ Advances config firmware next := by
  simp only [handleGroup]
  split
  · apply Or.inr
    apply counted_advances busy Handler.noConfusion rfl
    simp only [Expected, Expects, counter]
    omega
  · exact .inl rfl

private theorem sector_advances (handler : firmware.writeHandler = .writeFlashSector)
    (expected : Expected config firmware) :
    let next := (handle config firmware w).1
    next.writeHandler = .idle ∨ Advances config firmware next := by
  simp only [Expected, handler, Expects] at expected
  simp only [handle, handler, writeFlashSector]
  split
  · split
    · exact .inl rfl
    next before =>
      apply Or.inr
      apply counted_advances (by simp [handler]) Handler.noConfusion rfl
      simp only [Expected, Expects]
      omega
  · exact .inl rfl

/-- Every byte leads to idle, or is one more of a frame whose next handler is
called as it expects. -/
theorem handle_advances (expected : Expected config firmware) :
    let next := (handle config firmware w).1
    next.writeHandler = .idle ∨ Advances config firmware next := by
  cases handler : firmware.writeHandler with
  | idle =>
    simp only [handle, handler, handleWriteIdle]
    split
    · refine .inr ⟨rfl, ?_⟩
      rw [received_idle handler]
      rfl
    · exact .inl rfl
  | cmd =>
    have counter : firmware.cmdByteCounter = 0 := by simpa only [Expected, handler, Expects] using expected
    have busy : firmware.writeHandler ≠ .idle := by simp [handler]
    simp only [handle, handler, handleWriteCmd]
    split
    · exact .inr (counted_advances busy Handler.noConfusion rfl (congrArg (· + 1) counter))
    · split
      · exact .inr (counted_advances busy Handler.noConfusion rfl (congrArg (· + 1) counter))
      · exact .inl rfl
  | cmdGroup0 =>
    have counter : firmware.cmdByteCounter = 1 := by simpa only [Expected, handler, Expects] using expected
    simp only [handle, handler]
    exact group_advances w group0Cases (by simp [handler]) counter
  | cmdGroup1 =>
    have counter : firmware.cmdByteCounter = 1 := by simpa only [Expected, handler, Expects] using expected
    simp only [handle, handler]
    exact group_advances w group1Cases (by simp [handler]) counter
  | command cmd => exact command_advances w handler expected
  | readEeStage3 | readAppsPartition =>
    simp only [handle, handler]
    exact .inl rfl
  | eraseFlashSector =>
    simp only [handle, handler, eraseFlashSector]
    split
    · exact .inl rfl
    · exact .inl rfl
  | writeFlashSector => exact sector_advances w handler expected

private def KeepsSector (stores : List Store) : Prop :=
  ∀ store ∈ stores, ∀ world w s, (store world w s).flash.sector = s.flash.sector

private theorem stores_keep_sector (config : Config) (cmd : Cmd) : KeepsSector (switchOf config cmd).stores := by
  intro store member world w s
  cases cmd
  case readEeStage3 | readApp | kvGet | kvSet | getPartitionSize | writeLock | eraseFlashSector
      | writeFlashSector | reboot | pinConfig =>
    simp only [switchOf, handleWriteReadEeStage3, handleWriteReadAppsPartition, handleWriteKvGet, handleWriteKvSet,
      handleWriteGetPartitionSize, handleWriteWriteLock, handleWriteEraseFlashSector, handleWriteWriteFlashSector,
      handleWriteReboot, handleWritePinConfig, partitionStores, sectorIdxStores, wordStores, wordStoresThen,
      halfwordStores, List.take_succ_cons, List.take_zero, List.mem_append, List.mem_cons, List.not_mem_nil, or_false] at member
    aesop
  all_goals cases member

private theorem switch_sector {switch : Switch} (keeps : KeepsSector switch.stores) :
    (switch.handle firmware w).1.statics.flash.sector = firmware.statics.flash.sector := by
  simp only [Switch.handle]
  split
  · rfl
  · split
    · split
      · rfl
      · split
        · rfl
        · rfl
    · split
      · rfl
      next store found =>
        have kept := keeps store (List.mem_of_getElem? found) firmware.world w firmware.statics
        split
        · exact kept
        · exact kept

private theorem group_sector (cases : List Cmd) :
    (handleGroup cases firmware w).1.statics.flash.sector = firmware.statics.flash.sector := by
  simp only [handleGroup]
  split
  · rfl
  · rfl

private theorem written_sector {index : Nat}
    (changed : (writeFlashSector config firmware w).1.statics.flash.sector index ≠
      firmware.statics.flash.sector index) :
    index = firmware.cmdByteCounter + 1 - 22 ∧ index < flashSectorSize := by
  simp only [writeFlashSector] at changed
  split at changed
  next inside =>
    have stored : (if index = firmware.cmdByteCounter + 1 - 22 then w
        else firmware.statics.flash.sector index) ≠ firmware.statics.flash.sector index := by
      split at changed
      · exact changed
      · exact changed
    by_cases here : index = firmware.cmdByteCounter + 1 - 22
    · exact ⟨here, by omega⟩
    · rw [if_neg here] at stored
      exact absurd rfl stored
  · exact absurd rfl changed

/-- A byte changes the sector buffer in at most one place, which is in it. -/
theorem sector_changed {index : Nat} (changed : (handle config firmware w).1.statics.flash.sector index ≠
    firmware.statics.flash.sector index) :
    firmware.writeHandler = .writeFlashSector ∧ index = firmware.cmdByteCounter + 1 - 22 ∧
      index < flashSectorSize := by
  cases handler : firmware.writeHandler with
  | idle =>
    simp only [handle, handler, handleWriteIdle] at changed
    split at changed
    · exact absurd rfl changed
    · exact absurd rfl changed
  | cmd =>
    simp only [handle, handler, handleWriteCmd] at changed
    split at changed
    · exact absurd rfl changed
    · split at changed
      · exact absurd rfl changed
      · exact absurd rfl changed
  | cmdGroup0 =>
    simp only [handle, handler, handleWriteCmdGroup0, group_sector] at changed
    exact absurd rfl changed
  | cmdGroup1 =>
    simp only [handle, handler, handleWriteCmdGroup1, group_sector] at changed
    exact absurd rfl changed
  | command cmd =>
    simp only [handle, handler, switch_sector w (stores_keep_sector config cmd)] at changed
    exact absurd rfl changed
  | readEeStage3 | readAppsPartition =>
    simp only [handle, handler] at changed
    exact absurd rfl changed
  | eraseFlashSector =>
    simp only [handle, handler, eraseFlashSector] at changed
    split at changed
    · exact absurd rfl changed
    · exact absurd rfl changed
  | writeFlashSector =>
    simp only [handle, handler] at changed
    exact ⟨rfl, written_sector w changed⟩

def BusByte.isWrite : BusByte → Bool
  | .read _ => false
  | .write _ => true

theorem Expected.received_lt (expected : Expected config firmware) : received firmware < longestFrame := by
  have longest : longestFrame = 4118 := rfl
  have sector : flashSectorSize = 4096 := rfl
  by_cases idle : firmware.writeHandler = .idle
  · rw [received_idle idle]
    omega
  · rw [received_busy idle]
    unfold Expected at expected
    cases handler : firmware.writeHandler with
    | idle => exact absurd handler idle
    | command cmd =>
      have fits := frame_le_longest cmd
      have stores := stores_le config cmd
      rw [handler] at expected
      have high := expected.2
      omega
    | cmd | cmdGroup0 | cmdGroup1 | readEeStage3 | readAppsPartition | eraseFlashSector =>
      rw [handler] at expected
      change _ = _ at expected
      omega
    | writeFlashSector =>
      rw [handler] at expected
      have high := expected.2
      omega

theorem remaining_lt (expected : Expected config firmware) :
    let next := (handle config firmware w).1
    next.writeHandler = .idle ∨ remaining next < remaining firmware := by
  rcases handle_advances w expected with idle | advances
  · exact .inl idle
  · have before := expected.received_lt
    have after := advances.received
    apply Or.inr
    unfold remaining
    omega

private theorem step_expected (loop : Loop) (input : BusByte) (expected : Expected config loop.firmware) :
    Expected config ((mainLoop config).step loop input).1.firmware := by
  cases input with
  | read r => exact expected
  | write w =>
    rcases handle_advances w expected with idle | advances
    · change Expected config (handle config loop.firmware w).1
      simp only [Expected, idle, Expects]
    · exact advances.expected

theorem run_expected {loop : Loop} (expected : Expected config loop.firmware) (inputs : List BusByte) :
    Expected config ((mainLoop config).run loop inputs).1.firmware :=
  Mealy.run_preserves (mainLoop config) step_expected expected inputs

theorem run_idle {loop : Loop} (expected : Expected config loop.firmware) {inputs : List BusByte}
    (enough : remaining loop.firmware ≤ (inputs.filter BusByte.isWrite).length) :
    ∃ taken rest, inputs = taken ++ rest ∧ (taken.filter BusByte.isWrite).length ≤ remaining loop.firmware ∧
      ((mainLoop config).run loop taken).1.firmware.writeHandler = .idle := by
  have positive : ∀ loop : Loop, Expected config loop.firmware → ¬ loop.firmware.writeHandler = .idle →
      0 < remaining loop.firmware := by
    intro loop expected _
    exact Nat.sub_pos_of_lt expected.received_lt
  have lowered : ∀ (loop : Loop) (input : BusByte), Expected config loop.firmware →
      ¬ loop.firmware.writeHandler = .idle → input.isWrite = true →
      ((mainLoop config).step loop input).1.firmware.writeHandler = .idle ∨
        remaining ((mainLoop config).step loop input).1.firmware < remaining loop.firmware := by
    intro loop input expected _ written
    cases input with
    | read r => cases written
    | write w => exact remaining_lt w expected
  have kept : ∀ (loop : Loop) (input : BusByte), input.isWrite = false →
      remaining ((mainLoop config).step loop input).1.firmware ≤ remaining loop.firmware := by
    intro loop input unread
    cases input with
    | read r => exact Nat.le_refl _
    | write w => cases unread
  exact Mealy.run_reaches (mainLoop config) step_expected positive lowered kept expected enough

/-- The parser always returns to idle. In every state that the main loop reaches,
each handler is called with a counter that it has a case for; a byte leads to
idle or leaves one fewer of the longest frame, so 4117 of them reach idle; and
the sector buffer is written inside its bounds. -/
theorem parser_returns_to_idle (config : Config) (flash : Flash) (settings : SettingsState) (before : List BusByte) :
    let loop := ((mainLoop config).run (.powerUp flash settings) before).1
    let firmware := loop.firmware
    Expected config firmware ∧
    (∀ w, let next := (handle config firmware w).1
      next.writeHandler = .idle ∨ remaining next < remaining firmware) ∧
    (∀ after : List BusByte, 4117 ≤ (after.filter BusByte.isWrite).length → ∃ taken rest,
      after = taken ++ rest ∧ (taken.filter BusByte.isWrite).length ≤ 4117 ∧
        ((mainLoop config).run loop taken).1.firmware.writeHandler = .idle) ∧
    (firmware.writeHandler = .writeFlashSector →
      22 ≤ firmware.cmdByteCounter + 1 ∧ firmware.cmdByteCounter + 1 - 22 < flashSectorSize) ∧
    (∀ w index, (handle config firmware w).1.statics.flash.sector index ≠ firmware.statics.flash.sector index →
      firmware.writeHandler = .writeFlashSector ∧ index = firmware.cmdByteCounter + 1 - 22 ∧
        index < flashSectorSize) := by
  intro loop firmware
  have start : Expected config (Loop.powerUp flash settings).firmware := trivial
  have expected : Expected config firmware := run_expected start before
  refine ⟨expected, fun w => remaining_lt w expected, ?_, ?_, fun w index => sector_changed w⟩
  · intro after enough
    by_cases idle : firmware.writeHandler = .idle
    · exact ⟨[], after, rfl, Nat.zero_le 4117, idle⟩
    · have short : remaining firmware ≤ 4117 := by
        unfold remaining
        rw [received_busy idle]
        change 4118 - _ ≤ _
        omega
      obtain ⟨taken, rest, split, fewer, reached⟩ := run_idle expected (Nat.le_trans short enough)
      exact ⟨taken, rest, split, Nat.le_trans fewer short, reached⟩
  · intro handler
    simp only [Expected, handler, Expects] at expected
    omega

end Fruitchip.Firmware
