import Fruitchip.Proofs.SceneStack

/-! What a step does to the boot list and to the launch options. All that
matters for the two is kept in a smaller state. -/

namespace Fruitchip.Menu
open Embedded Firmware

def rescueItem : ListItem := ⟨.static "mass:/RESCUE.ELF"⟩

/-- The ELF is given the options for OSDSYS. -/
def Elf.TakesOptions : Elf → Prop
  | .osdsys => True
  | .fwfs _ attr => attr &&& Program.modchipAppsAttrOsdsys ≠ 0
  | .rescue => False

def Event.matters : Event → Bool
  | .pushed scene => scene = .options
  | .loadElf _ _ _ => true
  | .rescueElf _ => true
  | .popped _ _ | .disableNextOsdsysHook => false

structure Core where
  bootList : ListState
  bootListAttr : List U32
  rescueItemIdx : U32
  osdsys : U32
  /-- The options when their scene was opened. -/
  settings : U32
  /-- The options in the modchip. -/
  stored : U8
  optionsOpen : Bool
  events : List Event

namespace Program

def core (menu : Program) : Core where
  bootList := menu.state.bootList
  bootListAttr := menu.state.bootListAttr
  rescueItemIdx := menu.state.rescueItemIdx
  osdsys := menu.state.osdsys
  settings := menu.options.settings
  stored := settingsGetMenuOsdsysOptions menu.stored
  optionsOpen := menu.scenes.contains .options
  events := menu.events.filter Event.matters

/-- The step handles a mass storage event. -/
structure Handles (menu : Program) (input : Input) (found : Bool) : Prop where
  tick : ∃ outcomes, input = .tick outcomes ∧ outcomes.rescueElf = found
  top : menu.scenes.head? = some .bootList
  received : menu.state.massEventReceived

end Program

/-- The modchip executes all settings commands, and answers them. -/
structure Outcomes.SettingsSucceed (outcomes : Outcomes) : Prop where
  get : ∀ key, outcomes.settingsGet key = .ok
  set : ∀ key, outcomes.settingsSet key = .ok

/-- What a step can do. -/
inductive Change (menu : Program) (input : Program.Input) : Core → Prop
  | quiet : Change menu input menu.core
  | hilited {bootList : ListState}
      (moved : bootList = menu.core.bootList.hiliteUp ∨ bootList = menu.core.bootList.hiliteDown) :
      Change menu input { menu.core with bootList }
  | launched {elf : Elf} {argv : List String} (closed : menu.core.optionsOpen = false)
      (argued : elf.TakesOptions → argv = Program.osdsysArgv menu.core.osdsys) :
      Change menu input { menu.core with events := .loadElf elf argv menu.core.stored :: menu.core.events }
  | rescueFound (handled : menu.Handles input true) :
      Change menu input { menu.core with
        bootList := (menu.core.bootList.listPushItem rescueItem).2
        bootListAttr := menu.core.bootListAttr ++ [Program.modchipAppsAttrDisableNextOsdsysHook]
        rescueItemIdx := menu.core.bootList.listLen
        events := .rescueElf true :: menu.core.events }
  | rescueLost {bootList : ListState} (handled : menu.Handles input false) (listed : menu.core.rescueItemIdx ≠ 0)
      (removed : menu.core.bootList.listRemoveItem menu.core.rescueItemIdx = some bootList) :
      Change menu input { menu.core with
        bootList
        bootListAttr := menu.core.bootListAttr.eraseIdx menu.core.rescueItemIdx.toNat
        rescueItemIdx := 0
        events := .rescueElf false :: menu.core.events }
  | rescueAbsent (handled : menu.Handles input false) (unlisted : menu.core.rescueItemIdx = 0) :
      Change menu input { menu.core with events := .rescueElf false :: menu.core.events }
  | opened {osdsys : U32} (closed : menu.core.optionsOpen = false)
      (read : (∀ outcomes ∈ input.outcomes, outcomes.SettingsSucceed) → osdsys = menu.core.stored.setWidth 32) :
      Change menu input { menu.core with
        osdsys
        settings := osdsys
        optionsOpen := true
        events := .pushed .options :: menu.core.events }
  | toggled {osdsys : U32} (opened : menu.core.optionsOpen = true) : Change menu input { menu.core with osdsys }
  | closed {stored : U8} (opened : menu.core.optionsOpen = true)
      (saved : (∀ outcomes ∈ input.outcomes, outcomes.SettingsSucceed) → stored =
        if menu.core.settings ≠ menu.core.osdsys then menu.core.osdsys.setWidth 8 else menu.core.stored) :
      Change menu input { menu.core with stored, optionsOpen := false }

namespace Program

variable {menu next before : Program} {running rest : List Scene} {outcomes : Outcomes} {scene other : Scene}

theorem popScene_core (running : List Scene) (scenes : menu.scenes = scene :: rest) (other : scene ≠ .options) :
    (menu.popScene running).core = menu.core := by
  have same : menu.scenes.tail.contains .options = menu.scenes.contains .options := by
    rw [scenes, List.tail_cons, List.contains_cons]
    cases scene <;> first | rfl | exact absurd rfl other
  unfold core popScene emit
  rw [same]
  rfl

/-- Only its own key changes the options in the modchip. -/
theorem kvSetter_options {key : U16} (other : key = modchipSettingsMenuAutoboot ∨ key = modchipSettingsMenuAutobootDelay ∨
    key = modchipSettingsMenuAutobootItemIdx) (value : U32) (stored : SettingsState) :
    settingsGetMenuOsdsysOptions ((kvSetter key value).run stored).1 = settingsGetMenuOsdsysOptions stored := by
  rcases other with rfl | rfl | rfl
  · show settingsGetMenuOsdsysOptions (settingsSetMenuAutoboot stored _).1 = _
    unfold settingsSetMenuAutoboot
    split <;> rfl
  · show settingsGetMenuOsdsysOptions (settingsSetMenuAutobootDelaySec stored _).1 = _
    unfold settingsSetMenuAutobootDelaySec
    split <;> rfl
  · show settingsGetMenuOsdsysOptions (settingsSetMenuAutobootItemIdx stored _).1 = _
    unfold settingsSetMenuAutobootItemIdx
    split <;> rfl

theorem kvSetter_own (value : U32) (stored : SettingsState) :
    settingsGetMenuOsdsysOptions ((kvSetter modchipSettingsMenuOsdsysSettings value).run stored).1 = value.setWidth 8 := by
  show settingsGetMenuOsdsysOptions (settingsSetMenuOsdsysOptions stored _).1 = _
  unfold settingsSetMenuOsdsysOptions
  split
  · assumption
  · rfl

theorem settingsSet_core {key : U16} (other : key = modchipSettingsMenuAutoboot ∨
    key = modchipSettingsMenuAutobootDelay ∨ key = modchipSettingsMenuAutobootItemIdx) (value : U32) :
    (menu.settingsSet outcomes key value).2.core = menu.core := by
  have same : { menu with stored := ((kvSetter key value).run menu.stored).1 }.core = menu.core := by
    unfold core
    rw [kvSetter_options other]
  unfold settingsSet
  dsimp only
  split
  · exact same
  · split
    · exact same
    · rfl

theorem saveSettings_core : (menu.saveSettings outcomes).core = menu.core := by
  have saved (first second : Bool) (after : Program) (same : after.core = menu.core) :
      (if first ∧ second then after else after.sceneSwitchToMessage "Failed to save settings").core = menu.core := by
    split
    · exact same
    · exact same
  unfold saveSettings
  dsimp only
  apply saved
  split
  · split
    · exact (settingsSet_core (.inr (.inl rfl)) _).trans (settingsSet_core (.inl rfl) _)
    · exact settingsSet_core (.inl rfl) _
  · split
    · exact settingsSet_core (.inr (.inl rfl)) _
    · rfl

theorem setAutobootItemIdx_core : (menu.setAutobootItemIdx outcomes).core = menu.core := by
  unfold setAutobootItemIdx
  dsimp only
  split
  · rfl
  split
  · exact settingsSet_core (.inr (.inr rfl)) _
  · exact settingsSet_core (.inr (.inr rfl)) _

theorem sceneSwitchToSettingsAbout_core : (menu.sceneSwitchToSettingsAbout outcomes).core = menu.core := by
  have shown (menu : Program) (fine : Bool) (text : String) :
      (if fine then menu else menu.sceneSwitchToMessage text).core = menu.core := by
    split <;> rfl
  exact (shown _ _ _).trans (shown (menu.pushScene .about) _ _)

/-- Painting a scene that neither starts nor boots anything. -/
theorem paint_core (quiet : menu.scenes.head? ≠ some .init ∧ menu.scenes.head? ≠ some .bootList)
    (painted : menu.scenePaintHandlerSuperscene outcomes = some next) :
    next.core = menu.core ∧ next.scenes = menu.scenes := by
  unfold scenePaintHandlerSuperscene at painted
  split at painted
  · cases painted
    exact ⟨rfl, rfl⟩
  dsimp only at painted
  split at painted
  · cases painted
    exact ⟨rfl, rfl⟩
  next top below scenes =>
    rw [scenes] at quiet
    cases top
    case init => exact False.elim (quiet.1 rfl)
    case bootList => exact False.elim (quiet.2 rfl)
    all_goals
      cases painted
      exact ⟨rfl, rfl⟩

theorem paintMeanwhile_core {paints : Nat}
    (quiet : menu.scenes.head? ≠ some .init ∧ menu.scenes.head? ≠ some .bootList)
    (painted : paintMeanwhile outcomes paints menu = some next) :
    next.core = menu.core ∧ next.scenes = menu.scenes := by
  induction paints generalizing menu with
  | zero =>
    cases painted
    exact ⟨rfl, rfl⟩
  | succ paints ih =>
    obtain ⟨first, now, later⟩ := Option.bind_eq_some_iff.mp painted
    have same : first.core = menu.repaint.core ∧ first.scenes = menu.repaint.scenes := paint_core quiet now
    have rest := ih (same.2 ▸ quiet) later
    exact ⟨rest.1.trans same.1, rest.2.trans same.2⟩

theorem settings_core {input : Pad} (scenes : menu.scenes = .settings :: rest) :
    (menu.sceneInputHandlerSettings running outcomes input).core = menu.core := by
  unfold sceneInputHandlerSettings
  dsimp only
  split
  · repeat' split
    case isTrue.isFalse.isFalse.isFalse.isFalse.isTrue => exact saveSettings_core
    all_goals rfl
  split
  · rfl
  split
  · exact popScene_core running scenes (by decide)
  split
  · split
    · exact saveSettings_core
    split
    · rfl
    split
    · exact sceneSwitchToSettingsAbout_core
    · rfl
  · rfl

theorem about_core {input : Pad} (scenes : menu.scenes = .about :: rest) :
    (menu.sceneInputHandlerSettingsAbout running input).core = menu.core := by
  unfold sceneInputHandlerSettingsAbout
  dsimp only
  split
  · rfl
  split
  · exact popScene_core running scenes (by decide)
  split
  · split
    · rfl
    split <;> rfl
  · rfl

theorem scanning_core (scenes : menu.scenes = .updateScanning :: rest)
    (handled : menu.sceneTickHandlerUpdateScanning running outcomes = some next) : next.core = menu.core := by
  obtain ⟨painted, paints, finished⟩ := Option.bind_eq_some_iff.mp handled
  have same := paint_core (by simp [scenes]) paints
  have popped : (painted.popScene running).core = painted.core := popScene_core running (same.2.trans scenes) (by decide)
  cases finished
  refine Eq.trans ?_ (popped.trans same.1)
  show core (ite _ _ _) = _
  split <;> rfl

theorem notFound_core {input : Pad} (scenes : menu.scenes = .updateNotFound :: rest) :
    (menu.sceneInputHandlerUpdateNotFound running input).core = menu.core := by
  unfold sceneInputHandlerUpdateNotFound
  split
  · exact popScene_core running scenes (by decide)
  split
  · exact popScene_core running scenes (by decide)
  · rfl

theorem found_core {input : Pad} (scenes : menu.scenes = .updateFound :: rest) :
    (menu.sceneInputHandlerFileFound running input).core = menu.core := by
  unfold sceneInputHandlerFileFound
  dsimp only
  split
  · rfl
  split
  · exact popScene_core running scenes (by decide)
  split
  · split
    · exact popScene_core running scenes (by decide)
    split
    · exact popScene_core running scenes (by decide)
    · rfl
  · rfl

theorem checking_core (scenes : menu.scenes = .updateChecking :: rest)
    (handled : menu.sceneTickHandlerUpdateChecking running outcomes = some next) : next.core = menu.core := by
  obtain ⟨first, paint, handled⟩ := Option.bind_eq_some_iff.mp handled
  have before : first.core = menu.repaint.core ∧ first.scenes = menu.repaint.scenes :=
    paint_core (by simp [repaint, scenes]) paint
  have scenes : first.scenes = .updateChecking :: rest := before.2.trans scenes
  obtain ⟨painted, paints, finished⟩ := Option.bind_eq_some_iff.mp handled
  have same := paintMeanwhile_core (by simp [scenes]) paints
  have popped : (painted.popScene running).core = painted.core := popScene_core running (same.2.trans scenes) (by decide)
  refine Eq.trans ?_ (popped.trans (same.1.trans before.1))
  split at finished <;> cases finished <;> rfl

theorem writing_core (scenes : menu.scenes = .updateWriting :: rest)
    (handled : menu.sceneTickUpdateWriting running outcomes = some next) : next.core = menu.core := by
  obtain ⟨painted, paints, finished⟩ := Option.bind_eq_some_iff.mp handled
  have same := paintMeanwhile_core (by simp [scenes]) paints
  have popped : (painted.popScene running).core = painted.core := popScene_core running (same.2.trans scenes) (by decide)
  refine Eq.trans ?_ (popped.trans same.1)
  split at finished <;> cases finished <;> rfl

theorem rebooting_core (scenes : menu.scenes = .updateRebooting :: rest)
    (handled : menu.sceneTickHandlerUpdateRebooting running outcomes = some next) : next.core = menu.core := by
  unfold sceneTickHandlerUpdateRebooting at handled
  split at handled
  · cases handled
    exact popScene_core running scenes (by decide)
  · obtain ⟨painted, paints, finished⟩ := Option.bind_eq_some_iff.mp handled
    have same := paintMeanwhile_core (by simp [scenes]) paints
    cases finished
    exact (popScene_core running (same.2.trans scenes) (by decide)).trans same.1
  · obtain ⟨painted, paints, finished⟩ := Option.bind_eq_some_iff.mp handled
    have same := paintMeanwhile_core (by simp [scenes]) paints
    cases finished
    exact (popScene_core running (same.2.trans scenes) (by decide)).trans same.1

theorem complete_core {input : Pad} (scenes : menu.scenes = .updateComplete :: .about :: rest) :
    (menu.sceneInputHandlerUpdateComplete running outcomes input).core = menu.core := by
  unfold sceneInputHandlerUpdateComplete
  split
  · have first : (menu.popScene running).core = menu.core := popScene_core running scenes (by decide)
    have scenes : (menu.popScene running).scenes = .about :: rest := congrArg List.tail scenes
    have second : ((menu.popScene running).popScene running).core = (menu.popScene running).core :=
      popScene_core running scenes (by decide)
    exact sceneSwitchToSettingsAbout_core.trans (second.trans first)
  · rfl

theorem message_core {input : Pad} (scenes : menu.scenes = .message :: rest) :
    (menu.sceneInputHandlerMessage running input).core = menu.core := by
  unfold sceneInputHandlerMessage
  split
  · exact popScene_core running scenes (by decide)
  · rfl

theorem bootHilitedItem_change {input : Input} (same : menu.core = before.core)
    (closed : before.core.optionsOpen = false) (booted : menu.bootHilitedItem = some next) :
    Change before input next.core := by
  have launched {elf : Elf} {argv : List String} (argued : elf.TakesOptions → argv = osdsysArgv menu.core.osdsys) :
      Change before input { menu.core with events := .loadElf elf argv menu.core.stored :: menu.core.events } := by
    rw [same] at argued ⊢
    exact .launched closed argued
  unfold bootHilitedItem at booted
  dsimp only at booted
  split at booted
  · cases booted
    exact launched fun _ => rfl
  split at booted
  · cases booted
    exact launched fun takes => False.elim takes
  split at booted
  · unfold bootFwfs at booted
    dsimp only at booted
    split at booted
    · cases booted
    next attr listed =>
      cases booted
      have argued : (Elf.fwfs (menu.state.bootList.hiliteIdx.setWidth 8) attr).TakesOptions →
          (if attr &&& modchipAppsAttrOsdsys ≠ 0 then osdsysArgv menu.state.osdsys else []) =
            osdsysArgv menu.state.osdsys := fun takes => if_pos takes
      split
      · exact launched argued
      · exact launched argued
  · cases booted
    rw [same]
    exact .quiet

theorem addOrRemoveRescueElf_change {input : Input} (handles : menu.Handles input outcomes.rescueElf)
    (handled : menu.addOrRemoveRescueElf outcomes = some next) : Change menu input next.core := by
  unfold addOrRemoveRescueElf at handled
  dsimp only at handled
  split at handled
  next found =>
    cases handled
    rw [found] at handles ⊢
    exact .rescueFound handles
  next missing =>
    rw [Bool.not_eq_true] at missing
    rw [missing] at handles handled
    split at handled
    next listed =>
      obtain ⟨removed, found, rfl⟩ := Option.map_eq_some_iff.mp handled
      unfold appsListRemoveItem at found
      split at found
      · cases found
      next bootList removed =>
        split at found
        · cases found
          exact .rescueLost handles listed removed
        · cases found
    next unlisted =>
      cases handled
      exact .rescueAbsent handles (Decidable.of_not_not unlisted)

theorem sceneSwitchToOptions_change {input : Input} {appIdx : U8} (same : menu.core = before.core)
    (closed : before.core.optionsOpen = false) (known : outcomes ∈ input.outcomes)
    (switched : menu.sceneSwitchToOptions outcomes appIdx = some next) : Change before input next.core := by
  have opened {osdsys : U32} (read : outcomes.SettingsSucceed → osdsys = menu.core.stored.setWidth 32) :
      Change before input { menu.core with
        osdsys, settings := osdsys, optionsOpen := true, events := .pushed .options :: menu.core.events } := by
    rw [same] at read ⊢
    exact .opened closed fun succeed => read (succeed outcomes known)
  have read (succeed : outcomes.SettingsSucceed) :
      (menu.settingsGet outcomes modchipSettingsMenuOsdsysSettings).2.getD menu.state.osdsys =
        menu.core.stored.setWidth 32 := by
    unfold settingsGet
    rw [succeed.get]
    rfl
  unfold sceneSwitchToOptions at switched
  dsimp only at switched
  split at switched
  · cases switched
  · cases switched
    split
    · exact opened read
    · exact opened read

theorem popOptions_change {input : Input} (same : menu.core = before.core) (opened : before.core.optionsOpen = true)
    (scenes : menu.scenes = [.options, .bootList]) (known : outcomes ∈ input.outcomes) :
    Change before input (menu.popOptions running outcomes).core := by
  have closed {stored : U8} (saved : outcomes.SettingsSucceed → stored =
      if menu.core.settings ≠ menu.core.osdsys then menu.core.osdsys.setWidth 8 else menu.core.stored) :
      Change before input { menu.core with stored, optionsOpen := false } := by
    rw [same] at saved ⊢
    exact .closed opened fun succeed => saved (succeed outcomes known)
  have popped (after : Program) (kept : after.core = { menu.core with stored := after.core.stored })
      (scenes : after.scenes = [.options, .bootList]) (saved : outcomes.SettingsSucceed → after.core.stored =
        if menu.core.settings ≠ menu.core.osdsys then menu.core.osdsys.setWidth 8 else menu.core.stored) :
      Change before input (({ after with options.list := after.options.list.listClear }.popScene running).repaint).core := by
    have result : (({ after with options.list := after.options.list.listClear }.popScene running).repaint).core =
        { after.core with optionsOpen := false } := by
      show Core.mk _ _ _ _ _ _ (after.scenes.tail.contains .options) _ = _
      rw [scenes]
      rfl
    rw [result, kept]
    exact closed saved
  unfold popOptions
  dsimp only
  split
  next changed =>
    refine popped _ ?_ ?_ fun succeed => ?_
    · unfold settingsSet
      dsimp only
      split
      · rfl
      · split <;> rfl
    · unfold settingsSet
      dsimp only
      split
      · exact scenes
      · split <;> exact scenes
    · unfold settingsSet
      rw [succeed.set]
      exact (kvSetter_own _ _).trans (if_pos changed).symm
  next unchanged => exact popped _ rfl scenes fun _ => (if_neg unchanged).symm

theorem bootList_change {input : Input} {pad : Pad} (scenes : menu.scenes = [.bootList])
    (known : outcomes ∈ input.outcomes) (handled : menu.sceneInputHandlerBootList outcomes pad = some next) :
    Change menu input next.core := by
  have closed : menu.core.optionsOpen = false := congrArg (List.contains · Scene.options) scenes
  have woken : (if menu.state.autobootCountdown then { menu with state.autobootCountdown := false }.repaint
      else menu).core = menu.core := by
    split <;> rfl
  unfold sceneInputHandlerBootList at handled
  dsimp only at handled
  generalize (if menu.state.autobootCountdown then { menu with state.autobootCountdown := false }.repaint
    else menu) = awake at handled woken
  have hilited {bootList : ListState} (moved : bootList = awake.core.bootList.hiliteUp ∨
      bootList = awake.core.bootList.hiliteDown) : Change menu input { awake.core with bootList } := by
    rw [woken] at moved ⊢
    exact .hilited moved
  have quiet {after : Program} (same : after.core = awake.core) : Change menu input after.core := by
    rw [same, woken]
    exact .quiet
  split at handled
  · cases handled
    exact hilited (.inl rfl)
  split at handled
  · cases handled
    exact hilited (.inr rfl)
  split at handled
  · obtain ⟨booted, boots, rfl⟩ := Option.map_eq_some_iff.mp handled
    have change : Change menu input booted.core := bootHilitedItem_change woken closed boots
    exact change
  split at handled
  · split at handled
    · cases handled
    split at handled
    · exact sceneSwitchToOptions_change woken closed known handled
    · cases handled
      exact quiet rfl
  split at handled
  · cases handled
    exact quiet setAutobootItemIdx_core
  split at handled
  · cases handled
    exact quiet rfl
  · cases handled
    exact quiet rfl

theorem options_change {input : Input} {pad : Pad} (scenes : menu.scenes = [.options, .bootList])
    (known : outcomes ∈ input.outcomes) :
    Change menu input (menu.sceneInputHandlerOptions running outcomes pad).core := by
  have opened : menu.core.optionsOpen = true := congrArg (List.contains · Scene.options) scenes
  unfold sceneInputHandlerOptions
  dsimp only
  split
  · exact .quiet
  split
  · exact popOptions_change rfl opened scenes known
  split
  · unfold handleToggleOption
    dsimp only
    repeat' split
    all_goals exact .toggled opened
  · exact .quiet

theorem paint_change {input : Input} (disciplined : menu.shell.Disciplined)
    (painted : menu.scenePaintHandlerSuperscene outcomes = some next) : Change menu input next.core := by
  obtain ⟨base, basis, scenes⟩ := disciplined.shape
  have scenes : menu.scenes = List.replicate menu.messages.length .message ++ base := scenes
  have quiet (other : menu.scenes.head? ≠ some .init ∧ menu.scenes.head? ≠ some .bootList) :
      Change menu input next.core := by
    rw [(paint_core other painted).1]
    exact .quiet
  cases messages : menu.messages with
  | cons text texts => exact quiet (by simp [scenes, messages, List.replicate_succ])
  | nil =>
    rw [messages] at scenes
    have scenes : menu.scenes = base := scenes
    cases basis with
    | bootList =>
      have closed : menu.core.optionsOpen = false := congrArg (List.contains · Scene.options) scenes
      unfold scenePaintHandlerSuperscene at painted
      split at painted
      · cases painted
        exact .quiet
      dsimp only at painted
      split at painted
      · cases painted
        exact .quiet
      next top below shown =>
        obtain ⟨rfl, rfl⟩ := List.cons.inj (shown.symm.trans scenes)
        change handleAutobootCountdown _ = some next at painted
        unfold handleAutobootCountdown at painted
        split at painted
        · cases painted
          exact .quiet
        split at painted
        · cases painted
          exact .quiet
        · have same : { menu with state.repaint := false }.core = menu.core := rfl
          exact bootHilitedItem_change same closed painted
    | _ => exact quiet (by simp [scenes])

/-- A step once the Init scene is gone. -/
theorem step_change {input : Input} (disciplined : menu.shell.Disciplined) (stepped : menu.step input = some next) :
    Change menu input next.core := by
  obtain ⟨base, basis, scenes⟩ := disciplined.shape
  have scenes : menu.scenes = List.replicate menu.messages.length .message ++ base := scenes
  have quiet (same : next.core = menu.core) : Change menu input next.core := by
    rw [same]
    exact .quiet
  cases input with
  | massEvent =>
    cases stepped
    split <;> exact .quiet
  | timer =>
    cases stepped
    split <;> exact .quiet
  | paint outcomes => exact paint_change disciplined stepped
  | tick outcomes =>
    change menu.sceneTickHandlerSuperscene outcomes = some next at stepped
    unfold sceneTickHandlerSuperscene at stepped
    cases messages : menu.messages with
    | cons text texts =>
      rw [scenes, messages] at stepped
      cases stepped
      exact .quiet
    | nil =>
      rw [messages] at scenes
      have scenes : menu.scenes = base := scenes
      rw [scenes] at stepped
      cases basis with
      | bootList =>
        change menu.sceneTickHandlerBootList outcomes = some next at stepped
        unfold sceneTickHandlerBootList at stepped
        split at stepped
        next received =>
          exact addOrRemoveRescueElf_change ⟨⟨outcomes, rfl, rfl⟩, by rw [scenes]; rfl, received⟩ stepped
        · cases stepped
          exact .quiet
      | updateScanning => exact quiet (scanning_core scenes stepped)
      | updateChecking => exact quiet (checking_core scenes stepped)
      | updateWriting => exact quiet (writing_core scenes stepped)
      | updateRebooting => exact quiet (rebooting_core scenes stepped)
      | options | settings | about | updateNotFound | updateFound | updateComplete =>
        cases stepped
        exact .quiet
  | input outcomes pad =>
    change menu.sceneInputHandlerSuperscene outcomes pad = some next at stepped
    unfold sceneInputHandlerSuperscene at stepped
    cases messages : menu.messages with
    | cons text texts =>
      have scenes : menu.scenes = .message :: (List.replicate texts.length .message ++ base) := by
        rw [scenes, messages]
        rfl
      rw [scenes] at stepped
      cases stepped
      exact quiet (message_core scenes)
    | nil =>
      rw [messages] at scenes
      have scenes : menu.scenes = base := scenes
      rw [scenes] at stepped
      cases basis with
      | bootList => exact bootList_change scenes rfl stepped
      | options =>
        cases stepped
        exact options_change scenes rfl
      | settings =>
        cases stepped
        exact quiet (settings_core scenes)
      | about =>
        cases stepped
        exact quiet (about_core scenes)
      | updateNotFound =>
        cases stepped
        exact quiet (notFound_core scenes)
      | updateFound =>
        cases stepped
        exact quiet (found_core scenes)
      | updateComplete =>
        cases stepped
        exact quiet (complete_core scenes)
      | updateScanning | updateChecking | updateWriting | updateRebooting =>
        cases stepped
        exact .quiet

/-- The items of the boot list with their attributes, as far as they can be read. -/
def populated (outcomes : Outcomes) : List (ListItem × U32) :=
  (⟨.static "OSDSYS"⟩, modchipAppsAttrDisableNextOsdsysHook ||| modchipAppsAttrOsdsys) ::
    match outcomes.appsReadIndex with
    | none => []
    | some appsIndex => (AppsBuilder.appsListPopulate appsIndex).map fun app =>
      (⟨.copied app.1⟩, outcomes.appReadAttributes app.2)

theorem appsListPushApps_core (apps : List (List U8 × U8)) : (appsListPushApps outcomes menu apps).core = { menu.core with
    bootList := { menu.core.bootList with items := menu.core.bootList.items ++ apps.map fun app => ⟨.copied app.1⟩ }
    bootListAttr := menu.core.bootListAttr ++ apps.map fun app => outcomes.appReadAttributes app.2 } := by
  induction apps generalizing menu with
  | nil =>
    rw [List.map_nil, List.map_nil, List.append_nil, List.append_nil]
    rfl
  | cons app rest ih =>
    have unsigned : ¬ outcomes.appReadAttributes app.2 < 0 := by bv_omega
    unfold appsListPushApps
    dsimp only
    rw [if_neg unsigned, ih, List.map_cons, List.map_cons, List.append_cons, List.append_cons menu.core.bootListAttr]
    rfl

theorem appsListPopulate_core : ∃ hiliteIdx, (menu.appsListPopulate outcomes).2.core = { menu.core with
      bootList := ⟨(populated outcomes).map Prod.fst, hiliteIdx⟩
      bootListAttr := (populated outcomes).map Prod.snd } ∧
    (hiliteIdx = 0 ∨ hiliteIdx < BitVec.ofNat 32 (populated outcomes).length) := by
  unfold appsListPopulate populated
  dsimp only
  cases outcomes.appsReadIndex with
  | none => exact ⟨_, rfl, .inl rfl⟩
  | some appsIndex =>
    dsimp only
    generalize AppsBuilder.appsListPopulate appsIndex = apps
    generalize listed : appsListPushApps outcomes _ apps = filled
    have items : filled.core = { menu.core with
        bootList := ⟨⟨.static "OSDSYS"⟩ :: apps.map fun app => ⟨.copied app.1⟩, 0⟩
        bootListAttr := (modchipAppsAttrDisableNextOsdsysHook ||| modchipAppsAttrOsdsys) ::
          apps.map fun app => outcomes.appReadAttributes app.2 } := by
      rw [← listed, appsListPushApps_core]
      rfl
    have length : filled.state.bootList.listLen = BitVec.ofNat 32 (apps.length + 1) := by
      have same : filled.state.bootList.items = ⟨.static "OSDSYS"⟩ :: apps.map fun app => ⟨.copied app.1⟩ :=
        congrArg (fun core : Core => core.bootList.items) items
      unfold ListState.listLen
      rw [same, List.length_cons, List.length_map]
    rw [List.map_cons, List.map_cons, List.map_map, List.map_map, List.length_cons, List.length_map]
    have hilited (hiliteIdx : U32) : { filled.core with bootList.hiliteIdx := hiliteIdx } = { menu.core with
        bootList := ⟨⟨.static "OSDSYS"⟩ :: apps.map fun app => ⟨.copied app.1⟩, hiliteIdx⟩
        bootListAttr := (modchipAppsAttrDisableNextOsdsysHook ||| modchipAppsAttrOsdsys) ::
          apps.map fun app => outcomes.appReadAttributes app.2 } := by
      rw [items]
    split
    next fits =>
      refine ⟨_, hilited _, .inr ?_⟩
      rw [← length]
      exact fits.2
    · exact ⟨_, items, .inl rfl⟩

/-- The boot list is shown with new items, and the rest is left alone. -/
theorem sceneSwitchToBootList_core : ∃ hiliteIdx, (menu.sceneSwitchToBootList outcomes).core = { menu.core with
      bootList := ⟨(populated outcomes).map Prod.fst, hiliteIdx⟩
      bootListAttr := (populated outcomes).map Prod.snd } ∧
    (hiliteIdx = 0 ∨ hiliteIdx < BitVec.ofNat 32 (populated outcomes).length) := by
  have messaged (ret : Bool) (menu : Program) :
      (if ¬ ret then menu.sceneSwitchToMessage "Failed to load apps list" else menu).core = menu.core := by
    split <;> rfl
  have counted (ret : Bool) (menu : Program) :
      (if ret ∧ menu.state.autoboot then
        { menu with
          state.autobootCountdown := true
          state.autobootCountdownSec := menu.state.autobootDelaySec
          state.autobootCountdownAlarm := true }
      else menu).core = menu.core := by
    split <;> rfl
  obtain ⟨hiliteIdx, core, inside⟩ := @appsListPopulate_core ({ menu with connectEventCallback := true }.pushScene .bootList) outcomes
  exact ⟨hiliteIdx, ((counted _ _).trans (messaged _ _)).trans core, inside⟩

theorem autobootReadSettings_core : (menu.autobootReadSettings outcomes).core = menu.core := by
  unfold autobootReadSettings
  dsimp only
  split <;> rfl

theorem step_waiting_core {input : Input} (waiting : menu.Waiting) (stepped : menu.step input = some next) :
    next.core = menu.core ∨ ∃ (before : Program) (outcomes : Outcomes), before.core = menu.core ∧
      next = before.sceneSwitchToBootList outcomes := by
  rcases waiting_cases waiting stepped with ⟨_, _, _, _, rfl⟩ | ⟨outcomes, rfl⟩
  · exact .inl rfl
  · have scenes : menu.scenes = [.init] := congrArg Shell.scenes waiting
    have popped : ({ menu with state.repaint := false }.popScene menu.scenes).core = menu.core :=
      popScene_core _ scenes (by decide)
    exact .inr ⟨_, _, popped, rfl⟩

end Program

end Fruitchip.Menu
