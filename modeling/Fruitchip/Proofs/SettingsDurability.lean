import Fruitchip.Proofs.Session
import Fruitchip.Proofs.WearLevelingLog

/-! Settings over resets. The struct in RAM, the wear-leveling cache and what the
settings partition replays to are three copies of the same values, and every
KV_SET keeps them so. -/

namespace Fruitchip
open Embedded WearLeveling

/-- A reset would find in flash what RAM holds. -/
structure SettingsDurable (flash : Flash) (state : SettingsState) : Prop where
  settled : Settled flash state.wearLeveling
  image : Settings.ofBytes state.wearLeveling.cache = state.settings
  version : state.settings.versionMagic = settingsVersionMagic

namespace Settings

theorem ofBytes_take (bytes : List U8) : ofBytes (bytes.take size) = ofBytes bytes := by
  simp [ofBytes, size, List.getD_eq_getElem?_getD]

end Settings

/-- Storing one field keeps RAM and flash together when the struct with that
field replaced is what the bytes mean. -/
theorem settingsUpdatePart_durable {flash : Flash} {settings : Settings} {wearLeveling : WearLeveling.State}
    {offset : Nat} {bytes : List U8} (settled : Settled flash wearLeveling)
    (inside : offset + bytes.length ≤ Settings.size)
    (image : Settings.ofBytes (memcpy wearLeveling.cache offset bytes) = settings)
    (version : settings.versionMagic = settingsVersionMagic) :
    SettingsDurable (applyAll (settingsUpdatePart ⟨settings, wearLeveling⟩ offset bytes).2 flash)
      (settingsUpdatePart ⟨settings, wearLeveling⟩ offset bytes).1 := by
  have small : offset + bytes.length ≤ 64 := Nat.le_trans inside (by decide)
  obtain ⟨_, cache, written⟩ := wearLevelingWrite_settled settled small
  refine ⟨written, ?_, version⟩
  exact (congrArg Settings.ofBytes cache).trans image

theorem setField_durable {flash : Flash} {state : SettingsState} {settings : Settings} {offset : Nat} {bytes : List U8}
    (durable : SettingsDurable flash state) (same : Prop) [Decidable same]
    (inside : offset + bytes.length ≤ Settings.size)
    (image : Settings.ofBytes (memcpy state.wearLeveling.cache offset bytes) = settings)
    (version : settings.versionMagic = state.settings.versionMagic) :
    let result := if same then (state, []) else settingsUpdatePart ⟨settings, state.wearLeveling⟩ offset bytes
    SettingsDurable (applyAll result.2 flash) result.1 := by
  intro result
  by_cases already : same
  · have unchanged : result = (state, []) := if_pos already
    rw [unchanged]
    exact durable
  · have stored : result = settingsUpdatePart ⟨settings, state.wearLeveling⟩ offset bytes := if_neg already
    rw [stored]
    exact settingsUpdatePart_durable durable.settled inside image (version.trans durable.version)

namespace Firmware

theorem Setter.run_durable {flash : Flash} {state : SettingsState} (durable : SettingsDurable flash state)
    (setter : Setter) : SettingsDurable (applyAll (setter.run state).2 flash) (setter.run state).1 := by
  have bound : 12 ≤ state.wearLeveling.cache.length := by
    rw [durable.settled.length]
    decide
  cases setter with
  | menuAutoboot value =>
    refine setField_durable durable _ (by simp [Settings.menuAutobootOffset, Settings.size]) ?_ rfl
    have inside : 4 + [boolByte value].length ≤ state.wearLeveling.cache.length := by simp; omega
    rw [← durable.image]
    simp only [Settings.ofBytes, Settings.menuAutobootOffset, getD_memcpy _ inside, Settings.mk.injEq]
    refine ⟨rfl, ?_, rfl, rfl, rfl⟩
    cases value <;> rfl
  | menuAutobootDelaySec value =>
    refine setField_durable durable _ (by simp [Settings.menuAutobootDelaySecOffset, Settings.size]) ?_ rfl
    have inside : 6 + (bytes16 value).length ≤ state.wearLeveling.cache.length := by simp; omega
    rw [← durable.image]
    simp only [Settings.ofBytes, Settings.menuAutobootDelaySecOffset, getD_memcpy _ inside, Settings.mk.injEq]
    exact ⟨rfl, rfl, le16_byteAt value, rfl, rfl⟩
  | menuAutobootItemIdx value =>
    refine setField_durable durable _ (by simp [Settings.menuAutobootItemIdxOffset, Settings.size]) ?_ rfl
    have inside : 8 + [value.setWidth 8].length ≤ state.wearLeveling.cache.length := by simp; omega
    rw [← durable.image]
    simp only [Settings.ofBytes, Settings.menuAutobootItemIdxOffset, getD_memcpy _ inside]
    rfl
  | menuOsdsysOptions value =>
    refine setField_durable durable _ (by simp [Settings.menuOsdsysOptionsOffset, Settings.size]) ?_ rfl
    have inside : 9 + [value].length ≤ state.wearLeveling.cache.length := by simp; omega
    rw [← durable.image]
    simp only [Settings.ofBytes, Settings.menuOsdsysOptionsOffset, getD_memcpy _ inside]
    rfl

end Firmware

theorem settingsReset_durable {flash : Flash} {wearLeveling : WearLeveling.State}
    (settled : Settled flash wearLeveling) :
    ∃ state ops, settingsReset wearLeveling = some (state, ops) ∧ SettingsDurable (applyAll ops flash) state ∧
      state.settings = .defaults := by
  have small : 0 + Settings.defaults.toBytes.length ≤ 64 := by decide
  obtain ⟨succeeded, cache, written⟩ := wearLevelingWrite_settled settled small
  refine ⟨⟨.defaults, (wearLevelingWrite wearLeveling 0 Settings.defaults.toBytes).1⟩, _,
    if_neg succeeded, ⟨written, ?_, rfl⟩, rfl⟩
  have front : (memcpy wearLeveling.cache 0 Settings.defaults.toBytes).take Settings.size =
      Settings.defaults.toBytes := by
    simp only [memcpy, List.take_zero, List.nil_append]
    exact List.take_left' (Settings.toBytes_length _)
  dsimp only
  rw [cache, ← Settings.ofBytes_take, front, Settings.ofBytes_toBytes]

theorem settingsInit_durable {flash : Flash} {state : SettingsState} (durable : SettingsDurable flash state) :
    settingsInit flash = some (state, []) := by
  obtain ⟨settled, image, version⟩ := durable
  have loaded : Settings.ofBytes (wearLevelingRead state.wearLeveling 0 Settings.size) = state.settings := by
    rw [wearLevelingRead, List.drop_zero, Settings.ofBytes_take, image]
  rw [settingsInit, wearLevelingInit_settled settled]
  simp only [reduceCtorEq, ite_false, settingsLoad, loaded, version, ne_eq, not_true]

theorem settingsInit_erased {flash : Flash}
    (erased : ∀ address < settingsPartitionSizeBytes, flash (settingsPartitionOffset + address) = 0xFF) :
    ∃ state ops, settingsInit flash = some (state, ops) ∧ SettingsDurable (applyAll ops flash) state ∧
      state.settings = .defaults := by
  have settled := clearCache_settled erased
  have blank : (Settings.ofBytes (wearLevelingRead clearCache 0 Settings.size)).versionMagic ≠
      settingsVersionMagic := by decide
  obtain ⟨state, ops, reset, durable, defaults⟩ := settingsReset_durable settled
  refine ⟨state, ops, ?_, durable, defaults⟩
  rw [settingsInit, wearLevelingInit_settled settled]
  simp only [reduceCtorEq, ite_false, settingsLoad, if_pos blank, reset]
  rfl

namespace Firmware

variable {config : Config}

theorem runCall_kvSet_durable {world : World} (durable : SettingsDurable world.flash world.settings)
    (key : U16) (value : U32) :
    SettingsDurable (runCall config (.settingsSet key value) world).1.flash
      (runCall config (.settingsSet key value) world).1.settings := by
  simp only [runCall, kvSetBody]
  split
  · exact (kvSetter key value).run_durable durable
  · exact durable

/-- What KV_GET is answered, as the data-out call it ends in. -/
def kvGet (config : Config) (firmware : FirmwareState) (key : U16) : List Event :=
  ((machine config).run firmware (Client.Call.settingsGet key).poked).2

/-- An answer with a value. -/
def kvAnswer (value : U32) : List Event := [.startDataWithStatusCode modchipCmdResultOk (.word value) 4 true]

theorem kvGet_valid {firmware : FirmwareState} (idle : firmware.writeHandler = .idle) {key : U16}
    (valid : key < modchipSettingsKeysTotal) :
    kvGet config firmware key = kvAnswer (kvGetResponse firmware.world.settings key) := by
  obtain ⟨_, _, events⟩ := run_call config idle (.settingsGet key)
  have complement := xor_xor_self key 0xFFFF
  rw [kvGet, events]
  simp only [runCall, kvGetBody, complement, valid, and_self, ite_true]
  rfl

/-- Power comes up: RAM is lost and `settings_init` runs. `none` is its panic. -/
def powerOn (flash : Flash) : Option FirmwareState :=
  (settingsInit flash).map fun (settings, ops) => .powerUp (applyAll ops flash) settings

inductive Step where
  | kvSet (key : U16) (value : U32)
  | reset
  deriving DecidableEq

def Step.run (config : Config) (firmware : FirmwareState) : Step → Option FirmwareState
  | .kvSet key value => some ((machine config).run firmware (Client.Call.settingsSet key value).poked).1
  | .reset => powerOn firmware.world.flash

def runSteps (config : Config) : FirmwareState → List Step → Option FirmwareState
  | firmware, [] => some firmware
  | firmware, step :: rest => (step.run config firmware).bind (runSteps config · rest)

/-- The value of a key that was never set. -/
def kvDefault (key : U16) : U32 :=
  if key = modchipSettingsMenuAutoboot then 1 else if key = modchipSettingsMenuAutobootDelay then 10 else 0

private theorem kvGetResponse_defaults {settings : SettingsState} (defaults : settings.settings = .defaults)
    (key : U16) : kvGetResponse settings key = kvDefault key := by
  simp only [kvGetResponse, settingsGetMenuAutoboot, settingsGetMenuAutobootDelaySec,
    settingsGetMenuAutobootItemIdx, settingsGetMenuOsdsysOptions, defaults, kvDefault]
  split
  · rfl
  · split
    · rfl
    · split <;> rfl

/-- Between commands the parser rests and RAM and flash agree. -/
structure Ready (firmware : FirmwareState) : Prop where
  idle : firmware.writeHandler = .idle
  durable : SettingsDurable firmware.world.flash firmware.world.settings

theorem powerOn_ready {firmware : FirmwareState} (ready : Ready firmware) :
    ∃ next, powerOn firmware.world.flash = some next ∧ Ready next ∧
      next.world.settings = firmware.world.settings := by
  refine ⟨.powerUp firmware.world.flash firmware.world.settings, ?_, ⟨rfl, ready.durable⟩, rfl⟩
  rw [powerOn, settingsInit_durable ready.durable]
  rfl

theorem Step.run_ready (config : Config) {firmware : FirmwareState} (ready : Ready firmware) (step : Step) :
    ∃ next, step.run config firmware = some next ∧ Ready next ∧
      (step = .reset → next.world.settings = firmware.world.settings) := by
  cases step with
  | kvSet key value =>
    obtain ⟨idle, world, _⟩ := run_call config ready.idle (.settingsSet key value)
    refine ⟨_, rfl, ⟨idle, ?_⟩, by simp⟩
    rw [world]
    exact runCall_kvSet_durable ready.durable key value
  | reset =>
    obtain ⟨next, started, again, same⟩ := powerOn_ready ready
    exact ⟨next, started, again, fun _ => same⟩

theorem runSteps_ready (config : Config) {firmware : FirmwareState} (ready : Ready firmware) (steps : List Step) :
    ∃ last, runSteps config firmware steps = some last ∧ Ready last ∧
      ((∀ step ∈ steps, step = .reset) → last.world.settings = firmware.world.settings) := by
  induction steps generalizing firmware with
  | nil => exact ⟨firmware, rfl, ready, fun _ => rfl⟩
  | cons step steps ih =>
    obtain ⟨next, ran, nextReady, kept⟩ := step.run_ready config ready
    obtain ⟨last, finished, lastReady, later⟩ := ih nextReady
    refine ⟨last, by rw [runSteps, ran]; exact finished, lastReady, ?_⟩
    intro resets
    rw [later fun other member => resets other (List.mem_cons_of_mem _ member),
      kept (resets step List.mem_cons_self)]

/-- Any settings session on an erased partition, then one more reset. -/
theorem settings_survive_reset (config : Config) {flash : Flash}
    (erased : ∀ address < settingsPartitionSizeBytes, flash (settingsPartitionOffset + address) = 0xFF)
    (steps : List Step) :
    ∃ started before after, powerOn flash = some started ∧ runSteps config started steps = some before ∧
      Step.run config before .reset = some after ∧
      ∀ key < modchipSettingsKeysTotal, ∃ value,
        kvGet config before key = kvAnswer value ∧ kvGet config after key = kvAnswer value ∧
          ((∀ step ∈ steps, step = .reset) → value = kvDefault key) := by
  obtain ⟨settings, ops, initialised, durable, defaults⟩ := settingsInit_erased erased
  have started : Ready (.powerUp (applyAll ops flash) settings) := ⟨rfl, durable⟩
  obtain ⟨before, ran, ready, kept⟩ := runSteps_ready config started steps
  obtain ⟨after, restarted, again, same⟩ := Step.run_ready config ready .reset
  refine ⟨_, before, after, by rw [powerOn, initialised]; rfl, ran, restarted, ?_⟩
  intro key valid
  refine ⟨kvGetResponse before.world.settings key, kvGet_valid ready.idle valid, ?_, ?_⟩
  · rw [kvGet_valid again.idle valid, same rfl]
  · intro resets
    apply kvGetResponse_defaults
    rw [kept resets]
    exact defaults

theorem settings_survive_reset_blank :
    ∃ started before after, powerOn (fun _ => 0xFF) = some started ∧
      runSteps default started [.kvSet 1 30, .reset, .kvSet 0 0] = some before ∧
      Step.run default before .reset = some after ∧
      ∀ key < modchipSettingsKeysTotal, ∃ value,
        kvGet default before key = kvAnswer value ∧ kvGet default after key = kvAnswer value ∧
          ((∀ step ∈ [Step.kvSet 1 30, .reset, .kvSet 0 0], step = .reset) → value = kvDefault key) :=
  settings_survive_reset default (fun _ _ => rfl) _

end Firmware

end Fruitchip
