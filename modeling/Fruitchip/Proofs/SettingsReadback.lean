import Fruitchip.Proofs.SectorCommands
import Fruitchip.Proofs.SettingsDurability

/-! What can be read after a KV_SET that is acknowledged. One setter takes more
bits than its field has. -/

namespace Fruitchip.Firmware
open Embedded Client

variable {config : Config} {state next : SettingsState} {key other : U16} {value : U32}

/-- The parameter of the key's setter has room for the value. -/
def Representable (key : U16) (value : U32) : Prop :=
  if key = modchipSettingsMenuAutoboot then value.toNat < 2
  else if key = modchipSettingsMenuOsdsysSettings then value.toNat < 256
  else value.toNat < 65536

instance (key : U16) (value : U32) : Decidable (Representable key value) := by
  unfold Representable
  infer_instance

/-- The struct that a setter leaves behind. -/
def Setter.store (settings : Settings) : Setter → Settings
  | .menuAutoboot value => { settings with menuAutoboot := value }
  | .menuAutobootDelaySec value => { settings with menuAutobootDelaySec := value }
  | .menuAutobootItemIdx value => { settings with menuAutobootItemIdx := value.setWidth 8 }
  | .menuOsdsysOptions value => { settings with menuOsdsysOptions := value }

/-- The value comes back from the field as it was. -/
def Setter.Fits : Setter → Prop
  | .menuAutobootItemIdx value => (value.setWidth 8).setWidth 16 = value
  | _ => True

theorem Setter.run_settings (setter : Setter) (state : SettingsState) :
    (setter.run state).1.settings = setter.store state.settings := by
  cases setter with
  | menuAutoboot value =>
    simp only [run, settingsSetMenuAutoboot, store]
    split
    next same => rw [← same]
    next => rfl
  | menuAutobootDelaySec value =>
    simp only [run, settingsSetMenuAutobootDelaySec, store]
    split
    next same => rw [← same]
    next => rfl
  | menuAutobootItemIdx value =>
    simp only [run, settingsSetMenuAutobootItemIdx, store]
    split
    next same =>
      rw [← same, BitVec.setWidth_setWidth_of_le _ (by decide), BitVec.setWidth_eq]
    next => rfl
  | menuOsdsysOptions value =>
    simp only [run, settingsSetMenuOsdsysOptions, store]
    split
    next same => rw [← same]
    next => rfl

/-- A setter that finds its value writes nothing. -/
theorem Setter.run_again {setter : Setter} (fits : setter.Fits) (state : SettingsState) :
    setter.run (setter.run state).1 = ((setter.run state).1, []) := by
  have stored := setter.run_settings state
  generalize (setter.run state).1 = next at stored
  cases setter with
  | menuAutoboot value => exact if_pos (by rw [stored]; rfl)
  | menuAutobootDelaySec value => exact if_pos (by rw [stored]; rfl)
  | menuAutobootItemIdx value => exact if_pos (by rw [stored]; exact fits)
  | menuOsdsysOptions value => exact if_pos (by rw [stored]; rfl)

theorem keys (valid : key < modchipSettingsKeysTotal) :
    key = modchipSettingsMenuAutoboot ∨ key = modchipSettingsMenuAutobootDelay ∨
      key = modchipSettingsMenuAutobootItemIdx ∨ key = modchipSettingsMenuOsdsysSettings := by
  have small : key.toNat < 4 := valid
  simp only [← BitVec.toNat_inj]
  show key.toNat = 0 ∨ key.toNat = 1 ∨ key.toNat = 2 ∨ key.toNat = 3
  omega

def valueRead (key : U16) (value : U32) : U32 :=
  if key = modchipSettingsMenuAutobootItemIdx then (value.setWidth 8).setWidth 32 else value

theorem setWidth_back {width : Nat} (small : value.toNat < 2 ^ width) : (value.setWidth width).setWidth 32 = value := by
  apply BitVec.eq_of_toNat_eq
  rw [BitVec.toNat_setWidth, BitVec.toNat_setWidth, Nat.mod_eq_of_lt small, Nat.mod_eq_of_lt value.isLt]

theorem boolByte_back (small : value.toNat < 2) : (boolByte (value ≠ 0)).setWidth 32 = value := by
  have bit : value = 0 ∨ value = 1 := by
    simp only [← BitVec.toNat_inj]
    show value.toNat = 0 ∨ value.toNat = 1
    omega
  rcases bit with rfl | rfl
  · rfl
  · rfl

theorem get_autoboot (state : SettingsState) :
    kvGetResponse state modchipSettingsMenuAutoboot = (boolByte state.settings.menuAutoboot).setWidth 32 := rfl

theorem get_autobootDelay (state : SettingsState) :
    kvGetResponse state modchipSettingsMenuAutobootDelay = state.settings.menuAutobootDelaySec.setWidth 32 := rfl

theorem get_autobootItemIdx (state : SettingsState) : kvGetResponse state modchipSettingsMenuAutobootItemIdx =
    (state.settings.menuAutobootItemIdx.setWidth 16).setWidth 32 := rfl

theorem get_osdsysSettings (state : SettingsState) :
    kvGetResponse state modchipSettingsMenuOsdsysSettings = state.settings.menuOsdsysOptions.setWidth 32 := rfl

theorem kvGetResponse_store (valid : key < modchipSettingsKeysTotal) (representable : Representable key value)
    (otherValid : other < modchipSettingsKeysTotal)
    (stored : next.settings = (kvSetter key value).store state.settings) :
    kvGetResponse next other = if other = key then valueRead key value else kvGetResponse state other := by
  rcases keys valid with rfl | rfl | rfl | rfl
  · have settings : next.settings = { state.settings with menuAutoboot := value ≠ 0 } := stored
    rcases keys otherValid with rfl | rfl | rfl | rfl
    · rw [get_autoboot, settings]
      exact boolByte_back representable
    · rw [get_autobootDelay, settings]
      rfl
    · rw [get_autobootItemIdx, settings]
      rfl
    · rw [get_osdsysSettings, settings]
      rfl
  · have settings : next.settings = { state.settings with menuAutobootDelaySec := value.setWidth 16 } := stored
    rcases keys otherValid with rfl | rfl | rfl | rfl
    · rw [get_autoboot, settings]
      rfl
    · rw [get_autobootDelay, settings]
      exact @setWidth_back value 16 representable
    · rw [get_autobootItemIdx, settings]
      rfl
    · rw [get_osdsysSettings, settings]
      rfl
  · have settings : next.settings =
        { state.settings with menuAutobootItemIdx := (value.setWidth 16).setWidth 8 } := stored
    rcases keys otherValid with rfl | rfl | rfl | rfl
    · rw [get_autoboot, settings]
      rfl
    · rw [get_autobootDelay, settings]
      rfl
    · rw [get_autobootItemIdx, settings]
      show (((value.setWidth 16).setWidth 8).setWidth 16).setWidth 32 = (value.setWidth 8).setWidth 32
      rw [BitVec.setWidth_setWidth_of_le value (by decide), BitVec.setWidth_setWidth (by decide)]
    · rw [get_osdsysSettings, settings]
      rfl
  · have settings : next.settings = { state.settings with menuOsdsysOptions := value.setWidth 8 } := stored
    rcases keys otherValid with rfl | rfl | rfl | rfl
    · rw [get_autoboot, settings]
      rfl
    · rw [get_autobootDelay, settings]
      rfl
    · rw [get_autobootItemIdx, settings]
      rfl
    · rw [get_osdsysSettings, settings]
      exact @setWidth_back value 8 representable

theorem kvSetter_fits (valid : key < modchipSettingsKeysTotal)
    (small : ¬ (key = modchipSettingsMenuAutobootItemIdx ∧ 256 ≤ value.toNat)) : (kvSetter key value).Fits := by
  rcases keys valid with rfl | rfl | rfl | rfl
  · exact True.intro
  · exact True.intro
  · have byte : value.toNat < 256 := by
      apply Nat.lt_of_not_le
      intro large
      exact small ⟨rfl, large⟩
    show ((value.setWidth 16).setWidth 8).setWidth 16 = value.setWidth 16
    apply BitVec.eq_of_toNat_eq
    simp only [BitVec.toNat_setWidth]
    omega
  · exact True.intro

/-- The value is read back, the other keys read as before, and setting the value
once more changes nothing and starts no flash operation. -/
structure ReadBack (config : Config) (before after : FirmwareState) (key : U16) (value : U32) : Prop where
  read : kvGet config after key = kvAnswer value
  others : ∀ other < modchipSettingsKeysTotal, other ≠ key → kvGet config after other = kvGet config before other
  again : ((machine config).run after (Call.settingsSet key value).poked).1.world = after.world
  quiet : ∀ op, Event.flash op ∉ ((machine config).run after (Call.settingsSet key value).poked).2

theorem runCall_kvSet (config : Config) (valid : key < modchipSettingsKeysTotal) (value : U32) (world : World) :
    runCall config (.settingsSet key value) world =
      ((runSetter world (kvSetter key value)).1,
        .startBusyCode :: (runSetter world (kvSetter key value)).2 ++ [.stopBusyCode modchipCmdResultOk]) := by
  have complement := xor_xor_self key 0xFFFF
  have wordComplement := xor_xor_self value 0xFFFFFFFF
  simp only [runCall, kvSetBody, complement, wordComplement, valid, and_self, ite_true]

theorem kvSet_answered {firmware : FirmwareState} (idle : firmware.writeHandler = .idle)
    (valid : key < modchipSettingsKeysTotal) (value : U32) :
    AnswersWith config ((machine config).run firmware (Call.settingsSet key value).poked) modchipCmdResultOk ∧
      ((machine config).run firmware (Call.settingsSet key value).poked).1.world =
        (runSetter firmware.world (kvSetter key value)).1 := by
  apply call_finishes idle
  rw [runCall_kvSet config valid]
  refine ⟨rfl, _, ?_, rfl⟩
  intro event member
  rcases List.mem_cons.mp member with rfl | changed
  · rfl
  · exact flash_silent _ event changed

theorem kvSet_read {firmware : FirmwareState} (idle : firmware.writeHandler = .idle) (valid : key < modchipSettingsKeysTotal)
    (representable : Representable key value) (otherValid : other < modchipSettingsKeysTotal) :
    kvGet config ((machine config).run firmware (Call.settingsSet key value).poked).1 other =
      kvAnswer (if other = key then valueRead key value else kvGetResponse firmware.world.settings other) := by
  obtain ⟨_, world⟩ := @kvSet_answered config _ firmware idle valid value
  obtain ⟨resting, _, _⟩ := run_call config idle (.settingsSet key value)
  rw [kvGet_valid resting otherValid, world]
  apply congrArg kvAnswer
  exact kvGetResponse_store valid representable otherValid (Setter.run_settings _ _)

theorem runSetter_again {setter : Setter} (fits : setter.Fits) (world : World) :
    runSetter (runSetter world setter).1 setter = ((runSetter world setter).1, [.settingsSet setter]) := by
  have twice := Setter.run_again fits world.settings
  have settings : (runSetter world setter).1.settings = (setter.run world.settings).1 := rfl
  rw [runSetter, settings, twice, ← settings]
  rfl

/-- A KV_SET that is acknowledged can be read back exactly when it is not an item
index of more than 8 bits. -/
theorem settings_readback_iff (config : Config) {firmware : FirmwareState} (idle : firmware.writeHandler = .idle) {key : U16}
    (valid : key < modchipSettingsKeysTotal) {value : U32} (representable : Representable key value) :
    (AnswersWith config ((machine config).run firmware (Call.settingsSet key value).poked) modchipCmdResultOk →
        ReadBack config firmware ((machine config).run firmware (Call.settingsSet key value).poked).1 key value) ↔
      ¬ (key = modchipSettingsMenuAutobootItemIdx ∧ 256 ≤ value.toNat) := by
  obtain ⟨answered, world⟩ := @kvSet_answered config _ firmware idle valid value
  obtain ⟨resting, _, _⟩ := run_call config idle (.settingsSet key value)
  have read := @kvSet_read config _ _ _ _ idle valid representable valid
  rw [if_pos rfl] at read
  constructor
  · rintro readable ⟨itemIdx, large⟩
    have same := read.symm.trans (readable answered).read
    simp only [kvAnswer, List.cons.injEq, Event.startDataWithStatusCode.injEq, DataRef.word.injEq, true_and,
      and_true] at same
    rw [valueRead, if_pos itemIdx] at same
    have byte := congrArg BitVec.toNat same
    simp only [BitVec.toNat_setWidth] at byte
    omega
  · intro small _
    obtain ⟨_, again, events⟩ := run_call config resting (.settingsSet key value)
    rw [runCall_kvSet config valid, world, runSetter_again (kvSetter_fits valid small)] at again events
    constructor
    case read =>
      rw [read]
      apply congrArg kvAnswer
      unfold valueRead
      split
      next itemIdx =>
        apply setWidth_back
        exact Nat.lt_of_not_le fun large => small ⟨itemIdx, large⟩
      next => rfl
    case others =>
      intro other otherValid different
      rw [kvSet_read idle valid representable otherValid, if_neg different, kvGet_valid idle otherValid]
    case again => rw [again, world]
    case quiet =>
      intro op member
      rw [events] at member
      simp at member

def freshFirmware : FirmwareState := .powerUp (fun _ => 0xFF) ⟨.defaults, WearLeveling.clearCache⟩

theorem settings_readback_delay :
    (AnswersWith default ((machine default).run freshFirmware
          (Call.settingsSet modchipSettingsMenuAutobootDelay 30).poked) modchipCmdResultOk →
        ReadBack default freshFirmware ((machine default).run freshFirmware
          (Call.settingsSet modchipSettingsMenuAutobootDelay 30).poked).1 modchipSettingsMenuAutobootDelay 30) ↔
      ¬ (modchipSettingsMenuAutobootDelay = modchipSettingsMenuAutobootItemIdx ∧ 256 ≤ (30 : U32).toNat) :=
  settings_readback_iff default rfl (by decide) (by decide)

/-- Item 256 is acknowledged and read back as item 0. -/
theorem item_256_lost :
    AnswersWith default ((machine default).run freshFirmware
        (Call.settingsSet modchipSettingsMenuAutobootItemIdx 256).poked) modchipCmdResultOk ∧
      kvGet default ((machine default).run freshFirmware
        (Call.settingsSet modchipSettingsMenuAutobootItemIdx 256).poked).1 modchipSettingsMenuAutobootItemIdx =
          kvAnswer 0 ∧
      ¬ ReadBack default freshFirmware ((machine default).run freshFirmware
        (Call.settingsSet modchipSettingsMenuAutobootItemIdx 256).poked).1 modchipSettingsMenuAutobootItemIdx 256 := by
  have idle : freshFirmware.writeHandler = .idle := rfl
  have valid : modchipSettingsMenuAutobootItemIdx < modchipSettingsKeysTotal := by decide
  have read := @kvSet_read default _ _ 256 _ idle valid (by decide) valid
  rw [if_pos rfl, show valueRead modchipSettingsMenuAutobootItemIdx 256 = 0 by decide] at read
  refine ⟨(kvSet_answered idle valid 256).1, read, ?_⟩
  intro readable
  have same := read.symm.trans readable.read
  exact absurd same (by decide)

end Fruitchip.Firmware
