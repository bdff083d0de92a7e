import Fruitchip.Menu.BootList

/-! The handlers of all scenes, `superscene.c` and `main.c`. -/

namespace Fruitchip.Menu.Program
open Embedded Firmware

/-! `settings.c`. -/

def itemIdxAutoboot : U32 := 0

def itemIdxAutobootDelay : U32 := 1

def itemIdxAbout : U32 := 2

def autobootDelayMin : U32 := 1

def autobootDelayMax : U32 := 90

def autobootDelayStepSmall : U32 := 1

def autobootDelayStepBig : U32 := 10

/-- `CLAMP` to the bounds of the delay. -/
def clampDelay (delay : U32) : U32 :=
  if delay < autobootDelayMin then autobootDelayMin
  else if autobootDelayMax < delay then autobootDelayMax
  else delay

def increaseDelay (delay step : U32) : U32 :=
  let delay := delay + step
  if autobootDelayMax < delay then autobootDelayMin else delay

def decreaseDelay (delay step : U32) : U32 :=
  let delay := delay - step
  let delay := if delay < autobootDelayMin then autobootDelayMax else delay
  clampDelay delay

def saveSettings (menu : Program) (outcomes : Outcomes) : Program :=
  let (savedAutoboot, menu) :=
    if menu.settings.needsSavingAutoboot then
      let (saved, menu) :=
        menu.settingsSet outcomes modchipSettingsMenuAutoboot ((boolByte menu.state.autoboot).setWidth 32)
      (saved, { menu with settings.needsSavingAutoboot := false })
    else (true, menu)
  let (savedDelay, menu) :=
    if menu.settings.needsSavingAutobootDelay then
      let (saved, menu) := menu.settingsSet outcomes modchipSettingsMenuAutobootDelay menu.state.autobootDelaySec
      (saved, { menu with settings.needsSavingAutobootDelay := false })
    else (true, menu)
  if savedAutoboot ∧ savedDelay then menu else menu.sceneSwitchToMessage "Failed to save settings"

def sceneSwitchToSettings (menu : Program) : Program :=
  let list := menu.settings.list.initItems
  let (_, list) := list.listPushItem ⟨.static "Autoboot"⟩
  let (_, list) := list.listPushItem ⟨.static "Autoboot delay"⟩
  let (_, list) := list.listPushItem ⟨.static "About"⟩
  { menu with settings.list := list }.pushScene .settings

/-- A new delay, which is not saved yet. -/
def adjustDelay (menu : Program) (delay : U32) : Program :=
  { menu with state.autobootDelaySec := delay, settings.needsSavingAutobootDelay := true }.repaint

/-! `settings_about.c`. -/

def sceneSwitchToSettingsAbout (menu : Program) (outcomes : Outcomes) : Program :=
  let menu := menu.pushScene .about
  let menu := if outcomes.versionInitFirmware then menu else menu.sceneSwitchToMessage "Failed to get firmware version"
  let menu :=
    if outcomes.versionInitBootloader then menu else menu.sceneSwitchToMessage "Failed to get bootloader version"
  let list := menu.about.list.initItems
  let (_, list) := list.listPushItem ⟨.static "Menu version"⟩
  let (_, list) := list.listPushItem ⟨.static "Modchip FW version"⟩
  let (_, list) := list.listPushItem ⟨.static "Modchip bootloader version"⟩
  let (itemIdxUpdateFirmware, list) := list.listPushItem ⟨.static "Update firmware"⟩
  let (itemIdxUpdateApps, list) := list.listPushItem ⟨.static "Update apps"⟩
  { menu with about := ⟨list, itemIdxUpdateFirmware, itemIdxUpdateApps⟩ }

def sceneInputHandlerSettings (menu : Program) (running : List Scene) (outcomes : Outcomes) (input : Pad) : Program :=
  if menu.settings.adjustingAutobootDelay then
    if input.up then menu.adjustDelay (increaseDelay menu.state.autobootDelaySec autobootDelayStepSmall)
    else if input.down then menu.adjustDelay (decreaseDelay menu.state.autobootDelaySec autobootDelayStepSmall)
    else if input.right then menu.adjustDelay (increaseDelay menu.state.autobootDelaySec autobootDelayStepBig)
    else if input.left then menu.adjustDelay (decreaseDelay menu.state.autobootDelaySec autobootDelayStepBig)
    else if input.circle then
      ({ menu with settings.adjustingAutobootDelay := false }.saveSettings outcomes).repaint
    else menu
  else
    let (handled, list) := menu.settings.list.listHandleInput input
    let menu := { menu with settings.list := list }
    if handled then menu.repaint
    else if input.circle then
      let menu := menu.popScene running
      { menu with settings.list := menu.settings.list.listClear }.repaint
    else if input.cross then
      if menu.settings.list.hiliteIdx = itemIdxAutoboot then
        let menu := { menu with state.autoboot := ¬ menu.state.autoboot, settings.needsSavingAutoboot := true }
        (menu.saveSettings outcomes).repaint
      else if menu.settings.list.hiliteIdx = itemIdxAutobootDelay then
        { menu with settings.adjustingAutobootDelay := ¬ menu.settings.adjustingAutobootDelay }.repaint
      else if menu.settings.list.hiliteIdx = itemIdxAbout then (menu.sceneSwitchToSettingsAbout outcomes).repaint
      else menu
    else menu

/-! `boot_list.c`: input. -/

def isAutobootItemHilited (state : State) : Bool := state.bootList.hiliteIdx = state.autobootItemIdx

def isRescueElfHilited (state : State) : Bool :=
  if state.rescueItemIdx = 0 then false else state.bootList.hiliteIdx = state.rescueItemIdx

def isHiliteAutobootable (state : State) : Bool :=
  if isAutobootItemHilited state then false else if isRescueElfHilited state then false else true

def setAutobootItemIdx (menu : Program) (outcomes : Outcomes) : Program :=
  if ¬ isHiliteAutobootable menu.state then menu
  else
    let (saved, menu) :=
      menu.settingsSet outcomes modchipSettingsMenuAutobootItemIdx menu.state.bootList.hiliteIdx
    if ¬ saved then menu.sceneSwitchToMessage "Failed to set autoboot item"
    else { menu with state.autobootItemIdx := menu.state.bootList.hiliteIdx }.repaint

def sceneInputHandlerBootList (menu : Program) (outcomes : Outcomes) (input : Pad) : Option Program :=
  let menu :=
    if menu.state.autobootCountdown then { menu with state.autobootCountdown := false }.repaint else menu
  if input.up then some { menu with state.bootList := menu.state.bootList.hiliteUp }.repaint
  else if input.down then some { menu with state.bootList := menu.state.bootList.hiliteDown }.repaint
  else if input.cross then menu.bootHilitedItem.map repaint
  else if input.triangle then
    let appIdx := menu.state.bootList.hiliteIdx.setWidth 8
    match menu.state.bootListAttr[appIdx.toNat]? with
    | none => none
    | some attr => if appsAttrIsConfigurable attr then menu.sceneSwitchToOptions outcomes appIdx else some menu
  else if input.square then some (menu.setAutobootItemIdx outcomes)
  else if input.start then some menu.sceneSwitchToSettings.repaint
  else some menu

/-! `boot_list.c`: paint. -/

def handleAutobootCountdown (menu : Program) : Option Program :=
  if ¬ menu.state.autobootCountdown then some menu
  else if menu.state.autobootCountdownSec ≠ 0 then some menu
  else menu.bootHilitedItem

/-- The timer interrupt. -/
def updateAutobootCountdown (menu : Program) : Program :=
  let sec := if menu.state.autobootCountdownSec ≠ 0 then menu.state.autobootCountdownSec - 1
    else menu.state.autobootCountdownSec
  { menu with
    state.autobootCountdownSec := sec
    state.autobootCountdownAlarm := menu.state.autobootCountdown ∧ sec ≠ 0 }.repaint

def sceneSwitchToBootList (menu : Program) (outcomes : Outcomes) : Program :=
  let menu := { menu with connectEventCallback := true }.pushScene .bootList
  let (ret, menu) := menu.appsListPopulate outcomes
  let menu := if ¬ ret then menu.sceneSwitchToMessage "Failed to load apps list" else menu
  let menu :=
    if ret ∧ menu.state.autoboot then
      { menu with
        state.autobootCountdown := true
        state.autobootCountdownSec := menu.state.autobootDelaySec
        state.autobootCountdownAlarm := true }
    else menu
  menu.repaint

/-! `init.c`, `message.c`. -/

def scenePaintHandlerStartup (menu : Program) (running : List Scene) (outcomes : Outcomes) : Program :=
  if outcomes.padIsReady then (menu.popScene running).sceneSwitchToBootList outcomes else menu.repaint

def sceneSwitchToInit (menu : Program) : Program := (menu.pushScene .init).repaint

def sceneInputHandlerMessage (menu : Program) (running : List Scene) (input : Pad) : Program :=
  if input.circle then ({ menu with messages := menu.messages.tail }.popScene running).repaint else menu

def paintHandler (menu : Program) (running : List Scene) (outcomes : Outcomes) : Scene → Option Program
  | .init => some (menu.scenePaintHandlerStartup running outcomes)
  | .bootList => menu.handleAutobootCountdown
  | _ => some menu

def scenePaintHandlerSuperscene (menu : Program) (outcomes : Outcomes) : Option Program :=
  if ¬ menu.state.repaint then some menu
  else
    let menu := { menu with state.repaint := false }
    match menu.scenes with
    | [] => some menu
    | topScene :: _ => menu.paintHandler menu.scenes outcomes topScene

/-- The paints of a handler that takes its time. -/
def paintMeanwhile (outcomes : Outcomes) : Nat → Program → Option Program
  | 0, menu => some menu
  | paints + 1, menu => (menu.repaint.scenePaintHandlerSuperscene outcomes).bind (paintMeanwhile outcomes paints)

/-! The scenes of `settings/update`. -/

def sceneSwitchToUpdateScanning (menu : Program) : Program := menu.pushScene .updateScanning

def sceneSwitchToUpdateNotFound (menu : Program) : Program := menu.pushScene .updateNotFound

def sceneSwitchToUpdateFound (menu : Program) : Program :=
  let menu := menu.pushScene .updateFound
  let (itemIdxNo, list) := ListState.empty.listPushItem ⟨.static "No"⟩
  let (itemIdxYes, list) := list.listPushItem ⟨.static "Yes"⟩
  { menu with found := ⟨list, itemIdxNo, itemIdxYes⟩ }

def sceneInputHandlerSettingsAbout (menu : Program) (running : List Scene) (input : Pad) : Program :=
  let (handled, list) := menu.about.list.listHandleInput input
  let menu := { menu with about.list := list }
  if handled then menu.repaint
  else if input.circle then
    ({ menu with about.list := menu.about.list.listClear }.popScene running).repaint
  else if input.cross then
    if menu.about.list.hiliteIdx = menu.about.itemIdxUpdateFirmware then
      { menu with state.updateType := .fw }.sceneSwitchToUpdateScanning.repaint
    else if menu.about.list.hiliteIdx = menu.about.itemIdxUpdateApps then
      { menu with state.updateType := .apps }.sceneSwitchToUpdateScanning.repaint
    else menu
  else menu

def sceneTickHandlerUpdateScanning (menu : Program) (running : List Scene) (outcomes : Outcomes) : Option Program := do
  let menu ← menu.scenePaintHandlerSuperscene outcomes
  let menu := menu.popScene running
  let menu := if outcomes.updateFileIsPresent then menu.sceneSwitchToUpdateFound else menu.sceneSwitchToUpdateNotFound
  some menu.repaint

def sceneInputHandlerUpdateNotFound (menu : Program) (running : List Scene) (input : Pad) : Program :=
  if input.circle then (menu.popScene running).repaint
  else if input.cross then (menu.popScene running).sceneSwitchToUpdateScanning.repaint
  else menu

/-- `pop_scene` of the question whether to update. -/
def popFound (menu : Program) (running : List Scene) : Program :=
  ({ menu with found.list := menu.found.list.listClear }.popScene running).repaint

def sceneInputHandlerFileFound (menu : Program) (running : List Scene) (input : Pad) : Program :=
  let (handled, list) := menu.found.list.listHandleInput input
  let menu := { menu with found.list := list }
  if handled then menu.repaint
  else if input.circle then menu.popFound running
  else if input.cross then
    if menu.found.list.hiliteIdx = menu.found.itemIdxNo then menu.popFound running
    else if menu.found.list.hiliteIdx = menu.found.itemIdxYes then
      (menu.popFound running).pushScene .updateChecking
    else menu
  else menu

def sceneTickHandlerUpdateChecking (menu : Program) (running : List Scene) (outcomes : Outcomes) : Option Program := do
  let menu ← menu.repaint.scenePaintHandlerSuperscene outcomes
  let menu ← paintMeanwhile outcomes outcomes.paints menu
  match outcomes.checking with
  | .error error => some (menu.popSceneAndShowMessage running error.text)
  | .ok _ => some ((menu.popScene running).pushScene .updateWriting).repaint

/-- The tick of the writing scene, around `sceneTickHandlerUpdateWriting`. -/
def sceneTickUpdateWriting (menu : Program) (running : List Scene) (outcomes : Outcomes) : Option Program := do
  let menu ← paintMeanwhile outcomes outcomes.paints menu
  match outcomes.writing with
  | .error text => some (menu.popSceneAndShowMessage running text)
  | .ok _ => some ((menu.popScene running).pushScene .updateRebooting).repaint

def sceneTickHandlerUpdateRebooting (menu : Program) (running : List Scene) (outcomes : Outcomes) : Option Program := do
  match outcomes.rebooting with
  | .error .reboot => some ((menu.popScene running).sceneSwitchToMessage RebootingError.reboot.text)
  | .error .timedOut =>
    let menu ← paintMeanwhile outcomes outcomes.paints menu
    some ((menu.popScene running).sceneSwitchToMessage RebootingError.timedOut.text)
  | .ok _ =>
    let menu ← paintMeanwhile outcomes outcomes.paints menu
    some ((menu.popScene running).pushScene .updateComplete).repaint

def sceneInputHandlerUpdateComplete (menu : Program) (running : List Scene) (outcomes : Outcomes) (input : Pad) : Program :=
  if input.circle then
    let menu := menu.popScene running -- current scene
    let menu := menu.popScene running -- About scene
    (menu.sceneSwitchToSettingsAbout outcomes).repaint
  else menu

/-! `superscene.c`. -/

def tickHandler (menu : Program) (running : List Scene) (outcomes : Outcomes) : Scene → Option Program
  | .bootList => menu.sceneTickHandlerBootList outcomes
  | .updateScanning => menu.sceneTickHandlerUpdateScanning running outcomes
  | .updateChecking => menu.sceneTickHandlerUpdateChecking running outcomes
  | .updateWriting => menu.sceneTickUpdateWriting running outcomes
  | .updateRebooting => menu.sceneTickHandlerUpdateRebooting running outcomes
  | _ => some menu

def inputHandler (menu : Program) (running : List Scene) (outcomes : Outcomes) (input : Pad) : Scene → Option Program
  | .bootList => menu.sceneInputHandlerBootList outcomes input
  | .options => some (menu.sceneInputHandlerOptions running outcomes input)
  | .settings => some (menu.sceneInputHandlerSettings running outcomes input)
  | .about => some (menu.sceneInputHandlerSettingsAbout running input)
  | .updateNotFound => some (menu.sceneInputHandlerUpdateNotFound running input)
  | .updateFound => some (menu.sceneInputHandlerFileFound running input)
  | .updateComplete => some (menu.sceneInputHandlerUpdateComplete running outcomes input)
  | .message => some (menu.sceneInputHandlerMessage running input)
  | .init | .updateScanning | .updateChecking | .updateWriting | .updateRebooting => some menu

def sceneTickHandlerSuperscene (menu : Program) (outcomes : Outcomes) : Option Program :=
  match menu.scenes with
  | [] => some menu
  | topScene :: _ => menu.tickHandler menu.scenes outcomes topScene

def sceneInputHandlerSuperscene (menu : Program) (outcomes : Outcomes) (input : Pad) : Option Program :=
  match menu.scenes with
  | [] => some menu
  | topScene :: _ => menu.inputHandler menu.scenes outcomes input topScene

/-! `main.c`. -/

def autobootReadSettings (menu : Program) (outcomes : Outcomes) : Program :=
  let (r, v) := menu.settingsGet outcomes modchipSettingsMenuAutoboot
  let menu := { menu with state.autoboot := r ∧ v.getD 0 ≠ 0 }
  let (r, v) := menu.settingsGet outcomes modchipSettingsMenuAutobootDelay
  let menu := { menu with state.autobootDelaySec := v.getD menu.state.autobootDelaySec }
  if ¬ r then { menu with state.autobootDelaySec := 5 } else menu

/-- The statics before `main` runs. What `malloc` returns for `struct state` can
hold anything. -/
def powerUp (malloc : State) (stored : SettingsState) : Program where
  state := malloc
  scenes := []
  messages := []
  options := ⟨.empty, 0, 0, 0, 0, 0⟩
  settings := ⟨.empty, false, false, false⟩
  about := ⟨.empty, 0, 0⟩
  found := ⟨.empty, 0, 0⟩
  connectEventCallback := false
  stored
  events := []

/-- `main` up to its loop. -/
def main (malloc : State) (stored : SettingsState) (outcomes : Outcomes) : Program :=
  let menu := (powerUp malloc stored).autobootReadSettings outcomes
  if outcomes.padIsReady then menu.sceneSwitchToBootList outcomes else menu.sceneSwitchToInit

/-- The calls of the loop, and the two interrupts. -/
inductive Input where
  | tick (outcomes : Outcomes)
  | input (outcomes : Outcomes) (input : Pad)
  | paint (outcomes : Outcomes)
  | massEvent
  | timer

def Input.outcomes : Input → Option Outcomes
  | .tick outcomes | .input outcomes _ | .paint outcomes => some outcomes
  | .massEvent | .timer => none

/-- `none` is a handler that never returns or reaches outside an array. -/
def step (menu : Program) : Input → Option Program
  | .tick outcomes => menu.sceneTickHandlerSuperscene outcomes
  | .input outcomes input => menu.sceneInputHandlerSuperscene outcomes input
  | .paint outcomes => menu.scenePaintHandlerSuperscene outcomes
  | .massEvent => some (if menu.connectEventCallback then menu.massConnectedHandler else menu)
  | .timer => some (if menu.state.autobootCountdownAlarm then menu.updateAutobootCountdown else menu)

def run (menu : Program) : List Input → Option Program
  | [] => some menu
  | input :: rest => (menu.step input).bind (·.run rest)

end Fruitchip.Menu.Program
