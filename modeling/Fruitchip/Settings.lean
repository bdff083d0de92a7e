import Fruitchip.WearLeveling

/-! `settings.c`: the settings struct in RAM in front of the wear-leveling log. -/

namespace Fruitchip
open Embedded

def settingsVersionMagic : U32 := 0x73de0002

/-- `settings_t`; its padding bytes are always written as zero. -/
structure Settings where
  versionMagic : U32
  menuAutoboot : Bool
  menuAutobootDelaySec : U16
  menuAutobootItemIdx : U8
  menuOsdsysOptions : U8
  deriving DecidableEq, Repr

namespace Settings

/-- The twelve bytes of the struct in memory. -/
def toBytes (settings : Settings) : List U8 :=
  bytes32 settings.versionMagic ++ [boolByte settings.menuAutoboot, 0] ++
    bytes16 settings.menuAutobootDelaySec ++
    [settings.menuAutobootItemIdx, settings.menuOsdsysOptions, 0, 0]

def size : Nat := 12

def ofBytes (bytes : List U8) : Settings where
  versionMagic := le32 (bytes.getD 0 0) (bytes.getD 1 0) (bytes.getD 2 0) (bytes.getD 3 0)
  menuAutoboot := bytes.getD 4 0 ≠ 0
  menuAutobootDelaySec := le16 (bytes.getD 6 0) (bytes.getD 7 0)
  menuAutobootItemIdx := bytes.getD 8 0
  menuOsdsysOptions := bytes.getD 9 0

/-- What `settings_reset` leaves in RAM. -/
def defaults : Settings where
  versionMagic := settingsVersionMagic
  menuAutoboot := true
  menuAutobootDelaySec := 10
  menuAutobootItemIdx := 0
  menuOsdsysOptions := 0

@[simp] theorem toBytes_length (settings : Settings) : settings.toBytes.length = size := by
  simp [toBytes, size]

@[simp] theorem ofBytes_toBytes (settings : Settings) : ofBytes settings.toBytes = settings := by
  obtain ⟨versionMagic, menuAutoboot, delay, item, options⟩ := settings
  simp only [ofBytes, toBytes, bytes32, bytes16, List.cons_append, List.nil_append,
    List.getD_cons_zero, List.getD_cons_succ, le32_byteAt, le16_byteAt]
  cases menuAutoboot <;> rfl

/-! Offsets of the fields in the struct. -/

def menuAutobootOffset : Nat := 4

def menuAutobootDelaySecOffset : Nat := 6

def menuAutobootItemIdxOffset : Nat := 8

def menuOsdsysOptionsOffset : Nat := 9

end Settings

/-- The static variables of `settings.c` and `wear_leveling.c`. -/
structure SettingsState where
  settings : Settings
  wearLeveling : WearLeveling.State

/-- `settings_reset`; `none` is the panic after a failed write. -/
def settingsReset (wearLeveling : WearLeveling.State) : Option (SettingsState × List FlashOp) :=
  let (state, status, ops) := WearLeveling.wearLevelingWrite wearLeveling 0 Settings.defaults.toBytes
  if status = .failed then none else some (⟨Settings.defaults, state⟩, ops)

/-- The end of `settings_init`, once the wear-leveling cache is loaded. -/
def settingsLoad (wearLeveling : WearLeveling.State) (ops : List FlashOp) :
    Option (SettingsState × List FlashOp) :=
  let settings := Settings.ofBytes (WearLeveling.wearLevelingRead wearLeveling 0 Settings.size)
  if settings.versionMagic ≠ settingsVersionMagic then
    (settingsReset wearLeveling).map fun (state, more) => (state, ops ++ more)
  else some (⟨settings, wearLeveling⟩, ops)

/-- `settings_init` on the flash found at power-up. Nothing in RAM survives a
reset, so the flash is all it depends on. -/
def settingsInit (flash : Flash) : Option (SettingsState × List FlashOp) :=
  let (wearLeveling, status, ops) := WearLeveling.wearLevelingInit flash
  if status = .failed then
    (settingsReset wearLeveling).bind fun (_, reset) =>
      let (wearLeveling, status, again) := WearLeveling.wearLevelingInit (applyAll (ops ++ reset) flash)
      if status = .failed then none else settingsLoad wearLeveling (ops ++ reset ++ again)
  else settingsLoad wearLeveling ops

/-- `settings_update_part`: the bytes of one field go to the log. The status is
not looked at. -/
def settingsUpdatePart (state : SettingsState) (offset : Nat) (bytes : List U8) :
    SettingsState × List FlashOp :=
  let (wearLeveling, _, ops) := WearLeveling.wearLevelingWrite state.wearLeveling offset bytes
  ({ state with wearLeveling }, ops)

def settingsGetMenuAutoboot (state : SettingsState) : Bool := state.settings.menuAutoboot

def settingsSetMenuAutoboot (state : SettingsState) (menuAutoboot : Bool) :
    SettingsState × List FlashOp :=
  if state.settings.menuAutoboot = menuAutoboot then (state, []) else
  settingsUpdatePart { state with settings.menuAutoboot := menuAutoboot }
    Settings.menuAutobootOffset [boolByte menuAutoboot]

def settingsGetMenuAutobootDelaySec (state : SettingsState) : U16 :=
  state.settings.menuAutobootDelaySec

def settingsSetMenuAutobootDelaySec (state : SettingsState) (menuAutobootDelaySec : U16) :
    SettingsState × List FlashOp :=
  if state.settings.menuAutobootDelaySec = menuAutobootDelaySec then (state, []) else
  settingsUpdatePart { state with settings.menuAutobootDelaySec := menuAutobootDelaySec }
    Settings.menuAutobootDelaySecOffset (bytes16 menuAutobootDelaySec)

/-- The getter widens the 8-bit field. -/
def settingsGetMenuAutobootItemIdx (state : SettingsState) : U16 :=
  state.settings.menuAutobootItemIdx.setWidth 16

/-- The setter's parameter has 16 bits and the field has 8: the comparison is
made on 16 bits, the store truncates. -/
def settingsSetMenuAutobootItemIdx (state : SettingsState) (menuAutobootItemIdx : U16) :
    SettingsState × List FlashOp :=
  if state.settings.menuAutobootItemIdx.setWidth 16 = menuAutobootItemIdx then (state, []) else
  let field := menuAutobootItemIdx.setWidth 8
  settingsUpdatePart { state with settings.menuAutobootItemIdx := field }
    Settings.menuAutobootItemIdxOffset [field]

def settingsGetMenuOsdsysOptions (state : SettingsState) : U8 := state.settings.menuOsdsysOptions

def settingsSetMenuOsdsysOptions (state : SettingsState) (menuOsdsysOptions : U8) :
    SettingsState × List FlashOp :=
  if state.settings.menuOsdsysOptions = menuOsdsysOptions then (state, []) else
  settingsUpdatePart { state with settings.menuOsdsysOptions := menuOsdsysOptions }
    Settings.menuOsdsysOptionsOffset [menuOsdsysOptions]

end Fruitchip
