import Fruitchip.Firmware.Handlers
import Fruitchip.Menu.ListComponent
import Fruitchip.Menu.Writing

/-! The state of the menu: `struct state`, the stack of scenes, and the static
variables of the scenes. Drawing is left out. -/

namespace Fruitchip.Menu
open Embedded Firmware

/-- A `scene_t`, by the functions it holds. -/
inductive Scene where
  | init
  | bootList
  | options
  | settings
  | about
  | updateScanning
  | updateNotFound
  | updateFound
  | updateChecking
  | updateWriting
  | updateRebooting
  | updateComplete
  | message
  deriving DecidableEq, Repr

/-- `struct state`. -/
structure State where
  repaint : Bool
  bootList : ListState
  bootListAttr : List U32
  massEventReceived : Bool
  rescueItemIdx : U32
  autoboot : Bool
  autobootItemIdx : U32
  autobootDelaySec : U32
  autobootCountdown : Bool
  autobootCountdownSec : U32
  /-- `autoboot_countdown_alarm`: there is one. -/
  autobootCountdownAlarm : Bool
  osdsys : U32
  updateType : UpdateType
  deriving DecidableEq, Repr

/-- A `struct state` that is zero but for `osdsys`. -/
def State.filled (osdsys : U32) : State where
  repaint := false
  bootList := .empty
  bootListAttr := []
  massEventReceived := false
  rescueItemIdx := 0
  autoboot := false
  autobootItemIdx := 0
  autobootDelaySec := 0
  autobootCountdown := false
  autobootCountdownSec := 0
  autobootCountdownAlarm := false
  osdsys
  updateType := .fw

/-- The settings of a modchip on which nothing was ever set. -/
def untouched : SettingsState := ⟨.defaults, WearLeveling.clearCache⟩

/-- `scene_state` of `boot_options.c`. -/
structure OptionsStatics where
  list : ListState
  settings : U32
  itemIdxOsdsysSkipIntro : U32
  itemIdxOsdsysBootBrowser : U32
  itemIdxOsdsysSkipMc : U32
  itemIdxOsdsysSkipHdd : U32
  deriving DecidableEq, Repr

/-- The statics of `settings.c`. -/
structure SettingsStatics where
  list : ListState
  adjustingAutobootDelay : Bool
  needsSavingAutoboot : Bool
  needsSavingAutobootDelay : Bool
  deriving DecidableEq, Repr

/-- The statics of `settings_about.c` that are read. -/
structure AboutStatics where
  list : ListState
  itemIdxUpdateFirmware : U32
  itemIdxUpdateApps : U32
  deriving DecidableEq, Repr

/-- The statics of `update/found.c`. -/
structure FoundStatics where
  list : ListState
  itemIdxNo : U32
  itemIdxYes : U32
  deriving DecidableEq, Repr

/-- What `LoadELFFromFile` is asked for. An application comes with its attributes. -/
inductive Elf where
  | osdsys
  | fwfs (appIdx : U8) (attr : U32)
  | rescue
  deriving DecidableEq, Repr

/-- What can be observed from outside. -/
inductive Event where
  | pushed (scene : Scene)
  /-- `superscene_pop_scene` on a stack, in a handler of the top of another. -/
  | popped (running scenes : List Scene)
  | disableNextOsdsysHook
  /-- An ELF is loaded while the modchip has some options stored. -/
  | loadElf (elf : Elf) (argv : List String) (stored : U8)
  /-- A mass storage event is handled. -/
  | rescueElf (found : Bool)
  deriving DecidableEq, Repr

/-- Stacks have their top first, `events` has the latest event first. -/
structure Program where
  state : State
  scenes : List Scene
  /-- `scene_state` of `message.c`. -/
  messages : List String
  options : OptionsStatics
  settings : SettingsStatics
  about : AboutStatics
  found : FoundStatics
  /-- `connect_event_callback` is set. -/
  connectEventCallback : Bool
  /-- The settings in the modchip. -/
  stored : SettingsState
  events : List Event

/-- How `modchip_settings_get_with_retry` ends. A failed one can leave any value
behind. -/
inductive SettingsGet where
  | ok
  | failed (left : Option U32)
  deriving DecidableEq, Repr

/-- How `modchip_settings_set` ends. A failed one may have been executed. -/
inductive SettingsSet where
  | ok
  | failed (executed : Bool)
  deriving DecidableEq, Repr

/-- The ways out of `scene_tick_handler_update_checking` before its end. -/
inductive CheckingError where
  | open
  | fileSize
  | read
  | magic
  | familyId
  | blockSize
  | notLinear
  | partitionSize
  | space
  | pinConfiguration
  | pinMismatch
  deriving DecidableEq, Repr

def CheckingError.text : CheckingError → String
  | .open => "Failed to open update file"
  | .fileSize => ".uf2 is corrupted, invalid file size"
  | .read => "Failed to read .uf2 block"
  | .magic => "Invalid .uf2 magic"
  | .familyId => "Invalid .uf2 family id"
  | .blockSize => "Invalid .uf2 block size"
  | .notLinear => ".uf2 blocks are not linear"
  | .partitionSize => "Failed to get partition size"
  | .space => "Not enough space to write the update"
  | .pinConfiguration => "Failed to get current pin configuration"
  | .pinMismatch => "Pin configuration does not match"

/-- The ways out of `scene_tick_handler_update_rebooting` before its end. -/
inductive RebootingError where
  | reboot
  | timedOut
  deriving DecidableEq, Repr

def RebootingError.text : RebootingError → String
  | .reboot => "Failed to reboot the modchip"
  | .timedOut => "Failed to reboot the modchip, timed out"

/-- All that the world outside decides while a handler runs. -/
structure Outcomes where
  padIsReady : Bool
  settingsGet : U16 → SettingsGet
  settingsSet : U16 → SettingsSet
  /-- `mass:/RESCUE.ELF` can be opened. -/
  rescueElf : Bool
  /-- `apps_read_index`. -/
  appsReadIndex : Option (List U8)
  /-- `app_read_attributes`. -/
  appReadAttributes : U8 → U32
  versionInitFirmware : Bool
  versionInitBootloader : Bool
  updateFileIsPresent : Bool
  checking : Except CheckingError Unit
  /-- What `writeUpdate` ends with. -/
  writing : Except String Unit
  rebooting : Except RebootingError Unit
  /-- How often the handlers paint that paint while they wait. -/
  paints : Nat

/-- All commands succeed, and there are no applications and no files. -/
def Outcomes.plain : Outcomes where
  padIsReady := true
  settingsGet _ := .ok
  settingsSet _ := .ok
  rescueElf := false
  appsReadIndex := some []
  appReadAttributes _ := 0
  versionInitFirmware := true
  versionInitBootloader := true
  updateFileIsPresent := false
  checking := .ok ()
  writing := .ok ()
  rebooting := .ok ()
  paints := 0

namespace Program

def repaint (menu : Program) : Program := { menu with state.repaint := true }

def emit (menu : Program) (event : Event) : Program := { menu with events := event :: menu.events }

/-- `superscene_push_scene`. -/
def pushScene (menu : Program) (scene : Scene) : Program :=
  { menu with scenes := scene :: menu.scenes }.emit (.pushed scene)

/-- `superscene_pop_scene`, called by a handler of the top of `running`. -/
def popScene (menu : Program) (running : List Scene) : Program :=
  { menu with scenes := menu.scenes.tail }.emit (.popped running menu.scenes)

def sceneSwitchToMessage (menu : Program) (text : String) : Program :=
  ({ menu with messages := text :: menu.messages }.pushScene .message).repaint

/-- `pop_scene_and_show_message`. -/
def popSceneAndShowMessage (menu : Program) (running : List Scene) (text : String) : Program :=
  (menu.popScene running).sceneSwitchToMessage text

/-- The result, and the value if one was stored at the argument. -/
def settingsGet (menu : Program) (outcomes : Outcomes) (key : U16) : Bool × Option U32 :=
  match outcomes.settingsGet key with
  | .ok => (true, some (kvGetResponse menu.stored key))
  | .failed left => (false, left)

def settingsSet (menu : Program) (outcomes : Outcomes) (key : U16) (value : U32) : Bool × Program :=
  let after := { menu with stored := ((kvSetter key value).run menu.stored).1 }
  match outcomes.settingsSet key with
  | .ok => (true, after)
  | .failed executed => (false, if executed then after else menu)

end Program

end Fruitchip.Menu
