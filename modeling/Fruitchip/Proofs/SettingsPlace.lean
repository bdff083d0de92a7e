import Fruitchip.Proofs.FlashEffects
import Fruitchip.Proofs.SettingsCuts

/-! The settings keep to their partition: whatever they write, and whenever a log
is consolidated. -/

namespace Fruitchip
open Embedded WearLeveling

def InSettings (address : Nat) : Prop :=
  settingsPartitionOffset ≤ address ∧ address < settingsPartitionOffset + wearLevelingBackingSize

/-- The operations change nothing outside the settings partition. -/
def SettingsOnly (ops : List FlashOp) : Prop := ∀ op ∈ ops, ∀ address, op.covers address → InSettings address

variable {first rest ops : List FlashOp} {flash : Flash} {log : Log}

theorem settingsOnly_nil : SettingsOnly [] := List.forall_mem_nil _

theorem settingsOnly_append (one : SettingsOnly first) (other : SettingsOnly rest) : SettingsOnly (first ++ rest) :=
  List.forall_mem_append.mpr ⟨one, other⟩

namespace WearLeveling

/-- What the driver knows before it writes. -/
structure Placed (state : State) : Prop where
  length : state.cache.length = logicalSize
  even : state.writeAddress % 2 = 0
  room : state.writeAddress < wearLevelingBackingSize

/-- A step of the library keeps to the partition and can be followed by another one. -/
structure Keeps (result : State × Status × List FlashOp) : Prop where
  placed : Placed result.1
  only : SettingsOnly result.2.2

variable {state : State} {result : State × Status × List FlashOp}

theorem picoProgramBulk_only (flashAddress : Nat) (values : List U16) (low : settingsPartitionOffset ≤ flashAddress)
    (high : flashAddress + 2 * values.length ≤ settingsPartitionOffset + wearLevelingBackingSize) :
    SettingsOnly (picoProgramBulk flashAddress values) := by
  induction flashAddress, values using picoProgramBulk.induct with
  | case1 flashAddress =>
    rw [picoProgramBulk, if_pos rfl]
    exact settingsOnly_nil
  | case2 flashAddress values some ih =>
    have batch : (values.take bulkCount).length + (values.drop bulkCount).length = values.length := by
      rw [← List.length_append, List.take_append_drop]
    have bytes : ((values.take bulkCount).flatMap fun value => bytes16 (~~~value)).length =
        2 * (values.take bulkCount).length := flatMap_pairs (fun _ => rfl) _
    rw [picoProgramBulk, if_neg some]
    refine List.forall_mem_cons.mpr ⟨?_, ih (by omega) (by omega)⟩
    rintro address ⟨start, stop⟩
    rw [bytes] at stop
    exact ⟨by omega, by omega⟩

theorem backingStoreWriteBulk_only {address : Nat} {values : List U16}
    (fits : address + 2 * values.length ≤ wearLevelingBackingSize) : SettingsOnly (backingStoreWriteBulk address values) :=
  picoProgramBulk_only _ values (Nat.le_add_right _ _) (by omega)

theorem consolidateForce_keeps (length : state.cache.length = logicalSize) : Keeps (consolidateForce state) := by
  have size : logicalSize = 4096 := rfl
  have total : wearLevelingBackingSize = 8192 := rfl
  refine ⟨⟨length, (by decide : (logicalSize + 8) % 2 = 0), (by decide : logicalSize + 8 < wearLevelingBackingSize)⟩, ?_⟩
  refine settingsOnly_append ?_ (settingsOnly_append ?_ ?_)
  · intro op member address covered
    obtain rfl := List.mem_singleton.mp member
    exact covered
  · apply backingStoreWriteBulk_only
    rw [halfwords_length]
    omega
  · apply backingStoreWriteBulk_only
    rw [halfwords_length, bytes64_length]
    omega

theorem consolidateIfNeeded_keeps (length : state.cache.length = logicalSize) (even : state.writeAddress % 2 = 0) :
    Keeps (consolidateIfNeeded state) := by
  rw [consolidateIfNeeded]
  split
  · exact consolidateForce_keeps length
  next space => exact ⟨⟨length, even, Nat.lt_of_not_le space⟩, settingsOnly_nil⟩

theorem appendRaw_keeps (placed : Placed state) (value : U16) : Keeps (appendRaw state value) := by
  have even := placed.even
  have room := placed.room
  have total : wearLevelingBackingSize = 2 * 4096 := rfl
  have moved : (state.writeAddress + backingStoreWriteSize) % 2 = 0 := by
    rw [backingStoreWriteSize]
    omega
  have next := @consolidateIfNeeded_keeps { state with writeAddress := state.writeAddress + backingStoreWriteSize }
    placed.length moved
  refine ⟨next.placed, settingsOnly_append (backingStoreWriteBulk_only ?_) next.only⟩
  rw [List.length_singleton]
  omega

theorem Keeps.andThen {next : State → State × Status × List FlashOp} (keeps : Keeps result)
    (later : ∀ state, Placed state → Keeps (next state)) : Keeps (andThen result next) := by
  obtain ⟨state, status, ops⟩ := result
  cases status with
  | success =>
    have more := later state keeps.placed
    exact ⟨more.placed, settingsOnly_append keeps.only more.only⟩
  | failed | consolidated => exact keeps

theorem appendRaw_if_keeps (placed : Placed state) (some : Prop) [Decidable some] (value : U16) :
    Keeps (if some then appendRaw state value else (state, .success, [])) := by
  split
  · exact appendRaw_keeps placed value
  · exact ⟨placed, settingsOnly_nil⟩

theorem writeRawMultibyte_keeps (placed : Placed state) (address : Nat) (value : List U8) :
    Keeps (writeRawMultibyte state address value) :=
  (appendRaw_keeps placed _).andThen fun _ placed => (appendRaw_keeps placed _).andThen fun _ placed =>
    (appendRaw_if_keeps placed _ _).andThen fun _ placed => appendRaw_if_keeps placed _ _

theorem writeRaw_keeps (placed : Placed state) (address : Nat) (p : List U8) : Keeps (writeRaw state address p) := by
  induction state, address, p using writeRaw.induct with
  | case1 state address =>
    rw [writeRaw]
    exact ⟨placed, settingsOnly_nil⟩
  | case2 state address byte rest v found ih =>
    rw [writeRaw, found]
    exact (appendRaw_keeps placed _).andThen ih
  | case3 state address byte rest none low ih =>
    rw [writeRaw, none]
    simp only [if_pos low]
    exact (appendRaw_keeps placed _).andThen ih
  | case4 state address byte rest none high thisLength ih =>
    rw [writeRaw, none]
    simp only [if_neg high]
    exact (writeRawMultibyte_keeps placed _ _).andThen ih

theorem wearLevelingWrite_keeps (placed : Placed state) (address : Nat) (value : List U8) :
    Keeps (wearLevelingWrite state address value) := by
  rw [wearLevelingWrite]
  split
  · exact ⟨placed, settingsOnly_nil⟩
  next inside =>
    split
    · exact ⟨placed, settingsOnly_nil⟩
    · have copied : (memcpy state.cache address value).length = logicalSize := by
        have length := placed.length
        rw [memcpy_length (by omega), length]
      have stored : Placed { state with cache := memcpy state.cache address value } := ⟨copied, placed.even, placed.room⟩
      exact (writeRaw_keeps stored address value).andThen fun _ placed => consolidateIfNeeded_keeps placed.length placed.even

theorem Settled.placed (settled : Settled flash state) : Placed state := by
  obtain ⟨length, log, synced, _⟩ := settled
  have position := synced.position
  have start : logStart = 2 * 2052 := rfl
  exact ⟨length, by omega, synced.room⟩

theorem wearLevelingInit_keeps (replays : Replays flash log) : Keeps (wearLevelingInit flash) := by
  have start : logStart = 2 * 2052 := rfl
  rw [wearLevelingInit_replays replays]
  apply consolidateIfNeeded_keeps
  · exact replays.contents_length
  · show (logStart + 2 * log.entries.length) % 2 = 0
    omega

end WearLeveling

theorem settingsReset_only {wearLeveling : WearLeveling.State} (placed : Placed wearLeveling) {state : SettingsState}
    (reset : settingsReset wearLeveling = some (state, ops)) : SettingsOnly ops := by
  have keeps := wearLevelingWrite_keeps placed 0 Settings.defaults.toBytes
  simp only [settingsReset] at reset
  split at reset
  · cases reset
  · cases reset
    exact keeps.only

theorem settingsInit_only (replays : Replays flash log) {state : SettingsState}
    (found : settingsInit flash = some (state, ops)) : SettingsOnly ops := by
  have keeps := wearLevelingInit_keeps replays
  obtain ⟨wearLeveling, status, init, opened, working, _⟩ := wearLevelingInit_cut replays
  rw [opened] at keeps
  simp only [settingsInit, opened, if_neg working, settingsLoad] at found
  split at found
  · obtain ⟨⟨other, more⟩, reset, same⟩ := Option.map_eq_some_iff.mp found
    cases same
    exact settingsOnly_append keeps.only (settingsReset_only keeps.placed reset)
  · cases found
    exact keeps.only

namespace Firmware

variable {config : Config} {world : World} {call : Client.Call}

theorem Setter.run_only (setter : Setter) {state : SettingsState} (placed : Placed state.wearLeveling) :
    SettingsOnly (setter.run state).2 := by
  rcases setter.run_ops state with nothing | written
  · rw [nothing]
    exact settingsOnly_nil
  · rw [written]
    exact (wearLevelingWrite_keeps placed _ _).only

end Firmware

end Fruitchip
