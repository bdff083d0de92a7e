import Fruitchip.Apps
import Fruitchip.Menu.State

/-! `apps.c`, `scene/boot_list.c`, `scene/boot_options.c`: the boot list, its
scene, and the scene for the launch options of an item. -/

namespace Fruitchip.Menu.Program
open Embedded Firmware

/-! `apps.c`. -/

def modchipAppsAttrDisableNextOsdsysHook : U32 := 1

def modchipAppsAttrOsdsys : U32 := 2

def appsListPushItem (menu : Program) (item : ListItem) (attr : U32) : U32 × Program :=
  let (idx, bootList) := menu.state.bootList.listPushItem item
  (idx, { menu with state.bootList := bootList, state.bootListAttr := menu.state.bootListAttr ++ [attr] })

def appsListRemoveItem (menu : Program) (idx : U32) : Option Program :=
  match menu.state.bootList.listRemoveItem idx with
  | none => none
  | some bootList =>
    if idx.toNat < menu.state.bootListAttr.length then
      some { menu with state.bootList := bootList, state.bootListAttr := menu.state.bootListAttr.eraseIdx idx.toNat }
    else none

def appsAttrIsConfigurable (attr : U32) : Bool := attr &&& modchipAppsAttrOsdsys ≠ 0

def bootItemOsdsys : U32 := 0

def bootItemFwfs : U32 := 1

def enoent : U32 := 2

def eio : U32 := 5

/-- How the attributes of an application are read: what `open` and `read`
return, and `attr` after that. -/
structure AttrFile where
  fd : Int
  ret : Int
  attr : U32

def appReadAttributes (file : AttrFile) : U32 :=
  if file.fd < 0 then -enoent
  else if file.ret ≠ 4 then -eio
  else file.attr

/-- The loop of `apps_list_populate` over names and indexes. -/
def appsListPushApps (outcomes : Outcomes) (menu : Program) : List (List U8 × U8) → Program
  | [] => menu
  | (str, appIdx) :: rest =>
    let attr := outcomes.appReadAttributes appIdx
    -- never true of an unsigned number
    let attr := if attr < 0 then 0 else attr
    appsListPushApps outcomes (menu.appsListPushItem ⟨.copied str⟩ attr).2 rest

def appsListPopulate (menu : Program) (outcomes : Outcomes) : Bool × Program :=
  let menu := { menu with state.bootList := ⟨[], bootItemOsdsys⟩, state.bootListAttr := [] }
  let (_, menu) := menu.appsListPushItem ⟨.static "OSDSYS"⟩
    (modchipAppsAttrDisableNextOsdsysHook ||| modchipAppsAttrOsdsys)
  match outcomes.appsReadIndex with
  | none => (false, menu)
  | some appsIndex =>
    let menu := appsListPushApps outcomes menu (AppsBuilder.appsListPopulate appsIndex)
    let (res, autobootItemIdx) := menu.settingsGet outcomes modchipSettingsMenuAutobootItemIdx
    let menu := { menu with state.autobootItemIdx := autobootItemIdx.getD menu.state.autobootItemIdx }
    if res ∧ menu.state.autobootItemIdx < menu.state.bootList.listLen then
      (true, { menu with state.bootList.hiliteIdx := menu.state.autobootItemIdx })
    else (true, menu)

/-! `boot_list.c`: launching. -/

/-- The arguments for OSDSYS by the fields of `osdsys`. -/
def osdsysArgv (osdsys : U32) : List String :=
  (if osdsys.getLsbD 0 then ["BootClock"] else []) ++
    (if osdsys.getLsbD 1 then ["BootBrowser"] else []) ++
    (if osdsys.getLsbD 2 then ["SkipMc"] else []) ++
    (if osdsys.getLsbD 3 then ["SkipHdd"] else [])

/-- `LoadELFFromFile`, which returns if it fails. -/
def loadElf (menu : Program) (elf : Elf) (argv : List String) : Program :=
  menu.emit (.loadElf elf argv (settingsGetMenuOsdsysOptions menu.stored))

def bootOsdsys (menu : Program) : Program :=
  (menu.emit .disableNextOsdsysHook).loadElf .osdsys (osdsysArgv menu.state.osdsys)

def bootFwfs (menu : Program) : Option Program :=
  let appIdx := menu.state.bootList.hiliteIdx.setWidth 8
  match menu.state.bootListAttr[appIdx.toNat]? with
  | none => none
  | some attr =>
    let menu := if attr &&& modchipAppsAttrDisableNextOsdsysHook ≠ 0 then menu.emit .disableNextOsdsysHook else menu
    let argv := if attr &&& modchipAppsAttrOsdsys ≠ 0 then osdsysArgv menu.state.osdsys else []
    some (menu.loadElf (.fwfs appIdx attr) argv)

def bootRescueElf (menu : Program) : Program := menu.loadElf .rescue []

def bootHilitedItem (menu : Program) : Option Program :=
  let hiliteIdx := menu.state.bootList.hiliteIdx
  if hiliteIdx = bootItemOsdsys then some menu.bootOsdsys
  else if hiliteIdx = menu.state.rescueItemIdx then some menu.bootRescueElf
  else if bootItemFwfs ≤ hiliteIdx then menu.bootFwfs
  else some menu

/-! `boot_list.c`: tick. -/

def massConnectedHandler (menu : Program) : Program := { menu with state.massEventReceived := true }

def addOrRemoveRescueElf (menu : Program) (outcomes : Outcomes) : Option Program :=
  let finish (menu : Program) : Program :=
    ({ menu with state.massEventReceived := false }.repaint).emit (.rescueElf outcomes.rescueElf)
  if outcomes.rescueElf then
    let (idx, menu) := menu.appsListPushItem ⟨.static "mass:/RESCUE.ELF"⟩ modchipAppsAttrDisableNextOsdsysHook
    some (finish { menu with state.rescueItemIdx := idx })
  else if menu.state.rescueItemIdx ≠ 0 then
    (menu.appsListRemoveItem menu.state.rescueItemIdx).map fun menu =>
      finish { menu with state.rescueItemIdx := 0 }
  else some (finish menu)

def sceneTickHandlerBootList (menu : Program) (outcomes : Outcomes) : Option Program :=
  if menu.state.massEventReceived then menu.addOrRemoveRescueElf outcomes else some menu

/-! `boot_options.c`. -/

/-- `pop_scene` of the options. -/
def popOptions (menu : Program) (running : List Scene) (outcomes : Outcomes) : Program :=
  let settingsChanged := menu.options.settings ≠ menu.state.osdsys
  let menu :=
    if settingsChanged then (menu.settingsSet outcomes modchipSettingsMenuOsdsysSettings menu.state.osdsys).2 else menu
  ({ menu with options.list := menu.options.list.listClear }.popScene running).repaint

/-- Negating a bit of `osdsys`. -/
def toggled (osdsys : U32) (index : Nat) : U32 := osdsys ^^^ (1#32 <<< index)

/-- A bit of `osdsys` set to zero. -/
def cleared (osdsys : U32) (index : Nat) : U32 := osdsys &&& ~~~(1#32 <<< index)

def handleToggleOption (menu : Program) : Program :=
  let hiliteIdx := menu.options.list.hiliteIdx
  let osdsys := menu.state.osdsys
  if hiliteIdx = menu.options.itemIdxOsdsysSkipIntro then
    let osdsys := toggled osdsys 0
    { menu with state.osdsys := if osdsys.getLsbD 0 then cleared osdsys 1 else osdsys }.repaint
  else if hiliteIdx = menu.options.itemIdxOsdsysBootBrowser then
    let osdsys := toggled osdsys 1
    { menu with state.osdsys := if osdsys.getLsbD 1 then cleared osdsys 0 else osdsys }.repaint
  else if hiliteIdx = menu.options.itemIdxOsdsysSkipMc then { menu with state.osdsys := toggled osdsys 2 }.repaint
  else if hiliteIdx = menu.options.itemIdxOsdsysSkipHdd then { menu with state.osdsys := toggled osdsys 3 }.repaint
  else menu

def sceneInputHandlerOptions (menu : Program) (running : List Scene) (outcomes : Outcomes) (input : Pad) : Program :=
  let (handled, list) := menu.options.list.listHandleInput input
  let menu := { menu with options.list := list }
  if handled then menu.repaint
  else if input.circle then menu.popOptions running outcomes
  else if input.cross then menu.handleToggleOption
  else menu

/-- The items of the options and their indexes. -/
def optionItems (options : OptionsStatics) : OptionsStatics :=
  let (itemIdxOsdsysSkipIntro, list) := options.list.listPushItem ⟨.static "Skip opening"⟩
  let (itemIdxOsdsysBootBrowser, list) := list.listPushItem ⟨.static "Boot into browser"⟩
  let (itemIdxOsdsysSkipMc, list) := list.listPushItem ⟨.static "Skip memory card system update"⟩
  let (itemIdxOsdsysSkipHdd, list) := list.listPushItem ⟨.static "Skip hard drive system update"⟩
  { options with list, itemIdxOsdsysSkipIntro, itemIdxOsdsysBootBrowser, itemIdxOsdsysSkipMc, itemIdxOsdsysSkipHdd }

def sceneSwitchToOptions (menu : Program) (outcomes : Outcomes) (appIdx : U8) : Option Program :=
  let menu := { menu with options.list := ⟨[], 0⟩ }
  let (_, osdsys) := menu.settingsGet outcomes modchipSettingsMenuOsdsysSettings
  let menu := { menu with state.osdsys := osdsys.getD menu.state.osdsys }
  let menu := { menu with options.settings := menu.state.osdsys }
  match menu.state.bootListAttr[appIdx.toNat]? with
  | none => none
  | some attr =>
    let menu := if attr &&& modchipAppsAttrOsdsys ≠ 0 then { menu with options := optionItems menu.options } else menu
    some (menu.pushScene .options).repaint

end Fruitchip.Menu.Program
