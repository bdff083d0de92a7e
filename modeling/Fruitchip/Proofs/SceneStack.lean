import Fruitchip.Menu.Scenes

/-! The stack of scenes. What the handlers do to it is seen on a smaller model,
with the stack, the texts of the messages and the pops so far. -/

namespace Fruitchip.Menu
open Embedded Firmware

def Event.popped? : Event → Option (List Scene × List Scene)
  | .popped running scenes => some (running, scenes)
  | _ => none

/-- The stack, and for every pop so far the stack whose top was running and the
one that was popped. -/
structure Shell where
  scenes : List Scene
  messages : List String
  pops : List (List Scene × List Scene)

namespace Shell

def push (shell : Shell) (scene : Scene) : Shell := { shell with scenes := scene :: shell.scenes }

def pop (shell : Shell) (running : List Scene) : Shell :=
  { shell with scenes := shell.scenes.tail, pops := (running, shell.scenes) :: shell.pops }

def message (shell : Shell) (text : String) : Shell := { shell with messages := text :: shell.messages }.push .message

/-- The stacks below the messages, top first. -/
inductive Base : List Scene → Prop
  | bootList : Base [.bootList]
  | options : Base [.options, .bootList]
  | settings : Base [.settings, .bootList]
  | about : Base [.about, .settings, .bootList]
  | updateScanning : Base [.updateScanning, .about, .settings, .bootList]
  | updateNotFound : Base [.updateNotFound, .about, .settings, .bootList]
  | updateFound : Base [.updateFound, .about, .settings, .bootList]
  | updateChecking : Base [.updateChecking, .about, .settings, .bootList]
  | updateWriting : Base [.updateWriting, .about, .settings, .bootList]
  | updateRebooting : Base [.updateRebooting, .about, .settings, .bootList]
  | updateComplete : Base [.updateComplete, .about, .settings, .bootList]

/-- A pop removes the scene whose handler is running. The handler of the complete
scene goes on to remove the About scene. -/
def RemovesRunning (running scenes : List Scene) : Prop :=
  running ≠ [] ∧ scenes = running ∨
    running.head? = some .updateComplete ∧ scenes = running.tail ∧ scenes.head? = some .about

/-- The discipline of the stack once the Init scene is gone. -/
structure Disciplined (shell : Shell) : Prop where
  shape : ∃ base, Base base ∧ shell.scenes = List.replicate shell.messages.length .message ++ base
  pops : ∀ running scenes, (running, scenes) ∈ shell.pops → RemovesRunning running scenes

theorem Base.nonempty {base : List Scene} (known : Base base) : base ≠ [] := by
  cases known <;> exact List.cons_ne_nil _ _

theorem Base.no_message {base : List Scene} (known : Base base) : base.count .message = 0 := by
  cases known <;> rfl

/-- A message can go on top of everything. -/
theorem Disciplined.message {shell : Shell} (disciplined : Disciplined shell) (text : String) :
    Disciplined (shell.message text) := by
  obtain ⟨base, known, scenes⟩ := disciplined.shape
  refine ⟨⟨base, known, ?_⟩, disciplined.pops⟩
  rw [Shell.message, push, scenes]
  rfl

end Shell

namespace Program

def shell (menu : Program) : Shell := ⟨menu.scenes, menu.messages, menu.events.filterMap Event.popped?⟩

variable (menu : Program) (running : List Scene) (outcomes : Outcomes)

theorem mem_pops {menu : Program} {running scenes : List Scene} :
    (running, scenes) ∈ menu.shell.pops ↔ .popped running scenes ∈ menu.events := by
  constructor
  · intro popped
    obtain ⟨event, happened, same⟩ := List.mem_filterMap.mp popped
    cases event with
    | popped running scenes =>
      cases same
      exact happened
    | _ => cases same
  · intro happened
    exact List.mem_filterMap.mpr ⟨_, happened, rfl⟩

@[simp] theorem repaint_shell : menu.repaint.shell = menu.shell := rfl

@[simp] theorem pushScene_shell (scene : Scene) : (menu.pushScene scene).shell = menu.shell.push scene := rfl

@[simp] theorem popScene_shell : (menu.popScene running).shell = menu.shell.pop running := rfl

@[simp] theorem sceneSwitchToMessage_shell (text : String) :
    (menu.sceneSwitchToMessage text).shell = menu.shell.message text := rfl

@[simp] theorem settingsSet_shell (key : U16) (value : U32) :
    (menu.settingsSet outcomes key value).2.shell = menu.shell := by
  unfold settingsSet
  dsimp only
  split
  · rfl
  · split <;> rfl

@[simp] theorem appsListPushItem_shell (item : ListItem) (attr : U32) :
    (menu.appsListPushItem item attr).2.shell = menu.shell := rfl

theorem appsListPushApps_shell (apps : List (List U8 × U8)) :
    (appsListPushApps outcomes menu apps).shell = menu.shell := by
  induction apps generalizing menu with
  | nil => rfl
  | cons app rest ih => exact ih _

@[simp] theorem appsListPopulate_shell : (menu.appsListPopulate outcomes).2.shell = menu.shell := by
  unfold appsListPopulate
  dsimp only
  split
  · rfl
  · split
    · exact appsListPushApps_shell _ _ _
    · exact appsListPushApps_shell _ _ _

@[simp] theorem loadElf_shell (elf : Elf) (argv : List String) : (menu.loadElf elf argv).shell = menu.shell := rfl

theorem bootHilitedItem_shell {menu next : Program} (booted : menu.bootHilitedItem = some next) :
    next.shell = menu.shell := by
  unfold bootHilitedItem at booted
  dsimp only at booted
  split at booted
  · cases booted
    rfl
  split at booted
  · cases booted
    rfl
  split at booted
  · unfold bootFwfs at booted
    dsimp only at booted
    split at booted
    · cases booted
    · cases booted
      split <;> rfl
  · cases booted
    rfl

variable {menu next : Program} {running rest : List Scene} {outcomes : Outcomes} {scene other : Scene}

/-- The program is at a stack without messages. -/
structure At (menu : Program) (scenes : List Scene) : Prop where
  scenes : menu.scenes = scenes
  messages : menu.messages = []
  pops : ∀ running scenes, (running, scenes) ∈ menu.shell.pops → Shell.RemovesRunning running scenes

theorem At.of_shell (at' : At menu rest) (same : next.shell = menu.shell) : At next rest where
  scenes := (congrArg Shell.scenes same).trans at'.scenes
  messages := (congrArg Shell.messages same).trans at'.messages
  pops := by
    rw [same]
    exact at'.pops

theorem At.disciplined (at' : At menu rest) (known : Shell.Base rest) : menu.shell.Disciplined where
  shape := by
    refine ⟨rest, known, ?_⟩
    show menu.scenes = List.replicate menu.messages.length .message ++ rest
    rw [at'.scenes, at'.messages]
    rfl
  pops := at'.pops

theorem At.push (at' : At menu rest) (pushed : next.shell = menu.shell.push scene) : At next (scene :: rest) where
  scenes := (congrArg Shell.scenes pushed).trans (congrArg (List.cons scene) at'.scenes)
  messages := (congrArg Shell.messages pushed).trans at'.messages
  pops := by
    rw [pushed]
    exact at'.pops

theorem At.pop (at' : At menu (scene :: rest)) (removes : Shell.RemovesRunning running (scene :: rest))
    (popped : next.shell = menu.shell.pop running) : At next rest where
  scenes := (congrArg Shell.scenes popped).trans (congrArg List.tail at'.scenes)
  messages := (congrArg Shell.messages popped).trans at'.messages
  pops := by
    rw [popped]
    intro running scenes listed
    rcases List.mem_cons.mp listed with now | before
    · obtain ⟨rfl, rfl⟩ := Prod.mk.inj now
      have top : menu.shell.scenes = scene :: rest := at'.scenes
      rw [top]
      exact removes
    · exact at'.pops running scenes before

theorem At.pop_self (at' : At menu (scene :: rest)) (popped : next.shell = menu.shell.pop (scene :: rest)) :
    At next rest :=
  at'.pop (.inl ⟨List.cons_ne_nil _ _, rfl⟩) popped

theorem At.replace (at' : At menu (scene :: rest)) (known : Shell.Base (other :: rest)) :
    ((menu.popScene (scene :: rest)).pushScene other).shell.Disciplined := by
  have popped : At (menu.popScene (scene :: rest)) rest := at'.pop_self rfl
  have pushed : At ((menu.popScene (scene :: rest)).pushScene other) (other :: rest) := popped.push rfl
  exact pushed.disciplined known

theorem At.fail (at' : At menu (scene :: rest)) (known : Shell.Base rest) (text : String) :
    (menu.popSceneAndShowMessage (scene :: rest) text).shell.Disciplined :=
  ((at'.pop_self rfl : At (menu.popScene (scene :: rest)) rest).disciplined known).message text

theorem saveSettings_shell : (menu.saveSettings outcomes).shell = menu.shell ∨
    (menu.saveSettings outcomes).shell = menu.shell.message "Failed to save settings" := by
  have saved (first : Bool) (after : Program) (same : after.shell = menu.shell) (second : Bool) :
      (if first ∧ second then after else after.sceneSwitchToMessage "Failed to save settings").shell = menu.shell ∨
        (if first ∧ second then after else after.sceneSwitchToMessage "Failed to save settings").shell =
          menu.shell.message "Failed to save settings" := by
    split
    · exact .inl same
    · rw [sceneSwitchToMessage_shell, same]
      exact .inr rfl
  unfold saveSettings
  dsimp only
  apply saved
  split
  · split
    · exact (settingsSet_shell _ _ _ _).trans (settingsSet_shell _ _ _ _)
    · exact settingsSet_shell _ _ _ _
  · split
    · exact settingsSet_shell _ _ _ _
    · rfl

theorem setAutobootItemIdx_shell : (menu.setAutobootItemIdx outcomes).shell = menu.shell ∨
    (menu.setAutobootItemIdx outcomes).shell = menu.shell.message "Failed to set autoboot item" := by
  unfold setAutobootItemIdx
  dsimp only
  split
  · exact .inl rfl
  split
  · rw [sceneSwitchToMessage_shell, settingsSet_shell]
    exact .inr rfl
  · exact .inl (settingsSet_shell _ _ _ _)

/-- About comes with at most two messages. -/
theorem sceneSwitchToSettingsAbout_disciplined (pushed : (menu.shell.push .about).Disciplined) :
    (menu.sceneSwitchToSettingsAbout outcomes).shell.Disciplined := by
  have shown (menu : Program) (disciplined : menu.shell.Disciplined) (fine : Bool) (text : String) :
      (if fine then menu else menu.sceneSwitchToMessage text).shell.Disciplined := by
    split
    · exact disciplined
    · exact disciplined.message text
  exact shown _ (shown (menu.pushScene .about) pushed _ _) _ _

theorem sceneSwitchToBootList_disciplined (pushed : (menu.shell.push .bootList).Disciplined) :
    (menu.sceneSwitchToBootList outcomes).shell.Disciplined := by
  have populated : ((({ menu with connectEventCallback := true }.pushScene .bootList).appsListPopulate
      outcomes).2).shell.Disciplined := by
    rw [appsListPopulate_shell]
    exact pushed
  have messaged (ret : Bool) (menu : Program) (disciplined : menu.shell.Disciplined) :
      (if ¬ ret then menu.sceneSwitchToMessage "Failed to load apps list" else menu).shell.Disciplined := by
    split
    · exact disciplined.message _
    · exact disciplined
  have counted (ret : Bool) (menu : Program) (disciplined : menu.shell.Disciplined) :
      (if ret ∧ menu.state.autoboot then
        { menu with
          state.autobootCountdown := true
          state.autobootCountdownSec := menu.state.autobootDelaySec
          state.autobootCountdownAlarm := true }
      else menu).shell.Disciplined := by
    split
    · exact disciplined
    · exact disciplined
  exact counted _ _ (messaged _ _ populated)

theorem sceneSwitchToOptions_shell {appIdx : U8} (switched : menu.sceneSwitchToOptions outcomes appIdx = some next) :
    next.shell = menu.shell.push .options := by
  unfold sceneSwitchToOptions at switched
  dsimp only at switched
  split at switched
  · cases switched
  · cases switched
    split <;> rfl

theorem addOrRemoveRescueElf_shell (handled : menu.addOrRemoveRescueElf outcomes = some next) :
    next.shell = menu.shell := by
  unfold addOrRemoveRescueElf at handled
  dsimp only at handled
  split at handled
  · cases handled
    rfl
  split at handled
  · obtain ⟨removed, found, rfl⟩ := Option.map_eq_some_iff.mp handled
    unfold appsListRemoveItem at found
    split at found
    · cases found
    split at found
    · cases found
      rfl
    · cases found
  · cases handled
    rfl

/-- Only the Init scene does something to the stack while it is painted. -/
theorem paint_shell (later : menu.scenes.head? ≠ some .init)
    (painted : menu.scenePaintHandlerSuperscene outcomes = some next) : next.shell = menu.shell := by
  unfold scenePaintHandlerSuperscene at painted
  split at painted
  · cases painted
    rfl
  dsimp only at painted
  split at painted
  · cases painted
    rfl
  next top below scenes =>
    cases top
    case init =>
      rw [scenes] at later
      exact False.elim (later rfl)
    case bootList =>
      unfold paintHandler handleAutobootCountdown at painted
      dsimp only at painted
      split at painted
      · cases painted
        rfl
      split at painted
      · cases painted
        rfl
      · exact (bootHilitedItem_shell painted).trans rfl
    all_goals
      cases painted
      rfl

theorem paintMeanwhile_shell {paints : Nat} (later : menu.scenes.head? ≠ some .init)
    (painted : paintMeanwhile outcomes paints menu = some next) : next.shell = menu.shell := by
  induction paints generalizing menu with
  | zero =>
    cases painted
    rfl
  | succ paints ih =>
    obtain ⟨first, now, rest⟩ := Option.bind_eq_some_iff.mp painted
    have same : first.shell = menu.repaint.shell := paint_shell later now
    have scenes : first.scenes = menu.scenes := congrArg Shell.scenes same
    exact (ih (scenes ▸ later) rest).trans same

theorem bootList_input {input : Pad} (at' : At menu [.bootList])
    (handled : menu.sceneInputHandlerBootList outcomes input = some next) : next.shell.Disciplined := by
  have known := at'.disciplined .bootList
  have woken : (if menu.state.autobootCountdown then { menu with state.autobootCountdown := false }.repaint
      else menu).shell = menu.shell := by
    split <;> rfl
  unfold sceneInputHandlerBootList at handled
  dsimp only at handled
  generalize (if menu.state.autobootCountdown then { menu with state.autobootCountdown := false }.repaint
    else menu) = awake at handled woken
  rw [← woken] at known
  split at handled
  · cases handled
    exact known
  split at handled
  · cases handled
    exact known
  split at handled
  · obtain ⟨booted, boots, rfl⟩ := Option.map_eq_some_iff.mp handled
    rw [repaint_shell, bootHilitedItem_shell boots]
    exact known
  split at handled
  · split at handled
    · cases handled
    split at handled
    · have pushed := at'.push ((sceneSwitchToOptions_shell handled).trans (by rw [woken]))
      exact pushed.disciplined .options
    · cases handled
      exact known
  split at handled
  · cases handled
    rcases @setAutobootItemIdx_shell awake outcomes with same | failed
    · rw [same]
      exact known
    · rw [failed]
      exact known.message _
  split at handled
  · cases handled
    have pushed : At awake.sceneSwitchToSettings.repaint [.settings, .bootList] :=
      (at'.of_shell woken).push rfl
    exact pushed.disciplined .settings
  · cases handled
    exact known

theorem options_input {input : Pad} (at' : At menu [.options, .bootList]) :
    (menu.sceneInputHandlerOptions [.options, .bootList] outcomes input).shell.Disciplined := by
  have known := at'.disciplined .options
  unfold sceneInputHandlerOptions
  dsimp only
  split
  · exact known
  split
  · have popped (menu : Program) (at' : At menu [.options, .bootList]) :
        (({ menu with options.list := menu.options.list.listClear }.popScene [.options, .bootList]).repaint).shell.Disciplined :=
      (at'.pop_self rfl).disciplined .bootList
    unfold popOptions
    dsimp only
    split
    · exact popped _ (at'.of_shell (settingsSet_shell _ _ _ _))
    · exact popped _ (at'.of_shell rfl)
  split
  · unfold handleToggleOption
    dsimp only
    repeat' split
    all_goals exact known
  · exact known

theorem settings_input {input : Pad} (at' : At menu [.settings, .bootList]) :
    (menu.sceneInputHandlerSettings [.settings, .bootList] outcomes input).shell.Disciplined := by
  have known := at'.disciplined .settings
  have saved (menu : Program) (known : menu.shell.Disciplined) : (menu.saveSettings outcomes).repaint.shell.Disciplined := by
    rw [repaint_shell]
    rcases @saveSettings_shell menu outcomes with same | failed
    · rw [same]
      exact known
    · rw [failed]
      exact known.message _
  unfold sceneInputHandlerSettings
  dsimp only
  split
  · repeat' split
    case isTrue.isFalse.isFalse.isFalse.isFalse.isTrue => exact saved _ known
    all_goals exact known
  split
  · exact known
  split
  · exact (at'.pop_self rfl : At _ [.bootList]).disciplined .bootList
  split
  · split
    · exact saved _ known
    split
    · exact known
    split
    · exact sceneSwitchToSettingsAbout_disciplined ((at'.push rfl : At (menu.pushScene .about) _).disciplined .about)
    · exact known
  · exact known

theorem about_input {input : Pad} (at' : At menu [.about, .settings, .bootList]) :
    (menu.sceneInputHandlerSettingsAbout [.about, .settings, .bootList] input).shell.Disciplined := by
  have known := at'.disciplined .about
  unfold sceneInputHandlerSettingsAbout
  dsimp only
  split
  · exact known
  split
  · exact (at'.pop_self rfl : At _ [.settings, .bootList]).disciplined .settings
  split
  · split
    · exact (at'.push rfl : At _ (.updateScanning :: _)).disciplined .updateScanning
    split
    · exact (at'.push rfl : At _ (.updateScanning :: _)).disciplined .updateScanning
    · exact known
  · exact known

theorem scanning_tick (at' : At menu [.updateScanning, .about, .settings, .bootList])
    (handled : menu.sceneTickHandlerUpdateScanning [.updateScanning, .about, .settings, .bootList] outcomes = some next) :
    next.shell.Disciplined := by
  obtain ⟨painted, paints, finished⟩ := Option.bind_eq_some_iff.mp handled
  have painted := at'.of_shell (paint_shell (by simp [at'.scenes]) paints)
  cases finished
  rw [repaint_shell]
  split
  · exact painted.replace .updateFound
  · exact painted.replace .updateNotFound

theorem notFound_input {input : Pad} (at' : At menu [.updateNotFound, .about, .settings, .bootList]) :
    (menu.sceneInputHandlerUpdateNotFound [.updateNotFound, .about, .settings, .bootList] input).shell.Disciplined := by
  unfold sceneInputHandlerUpdateNotFound
  split
  · exact (at'.pop_self rfl : At _ [.about, .settings, .bootList]).disciplined .about
  split
  · exact at'.replace .updateScanning
  · exact at'.disciplined .updateNotFound

theorem found_input {input : Pad} (at' : At menu [.updateFound, .about, .settings, .bootList]) :
    (menu.sceneInputHandlerFileFound [.updateFound, .about, .settings, .bootList] input).shell.Disciplined := by
  have known := at'.disciplined .updateFound
  unfold sceneInputHandlerFileFound
  dsimp only
  split
  · exact known
  split
  · exact (at'.pop_self rfl : At _ [.about, .settings, .bootList]).disciplined .about
  split
  · split
    · exact (at'.pop_self rfl : At _ [.about, .settings, .bootList]).disciplined .about
    split
    · exact at'.replace .updateChecking
    · exact known
  · exact known

theorem checking_tick (at' : At menu [.updateChecking, .about, .settings, .bootList])
    (handled : menu.sceneTickHandlerUpdateChecking [.updateChecking, .about, .settings, .bootList] outcomes = some next) :
    next.shell.Disciplined := by
  obtain ⟨first, paint, handled⟩ := Option.bind_eq_some_iff.mp handled
  have same : first.shell = menu.repaint.shell := paint_shell (by simp [repaint, at'.scenes]) paint
  have at' := at'.of_shell same
  obtain ⟨painted, paints, finished⟩ := Option.bind_eq_some_iff.mp handled
  have painted := at'.of_shell (paintMeanwhile_shell (by simp [at'.scenes]) paints)
  split at finished
  · cases finished
    exact painted.fail .about _
  · cases finished
    exact painted.replace .updateWriting

theorem writing_tick (at' : At menu [.updateWriting, .about, .settings, .bootList])
    (handled : menu.sceneTickUpdateWriting [.updateWriting, .about, .settings, .bootList] outcomes = some next) :
    next.shell.Disciplined := by
  obtain ⟨painted, paints, finished⟩ := Option.bind_eq_some_iff.mp handled
  have painted := at'.of_shell (paintMeanwhile_shell (by simp [at'.scenes]) paints)
  split at finished
  · cases finished
    exact painted.fail .about _
  · cases finished
    exact painted.replace .updateRebooting

/-- The writing scene is entered on one way out of the checking scene. -/
theorem checking_switches {running : List Scene} (handled : menu.sceneTickHandlerUpdateChecking running outcomes = some next) :
    next.scenes.head? = some .updateWriting ↔ outcomes.checking = .ok () := by
  obtain ⟨first, _, handled⟩ := Option.bind_eq_some_iff.mp handled
  obtain ⟨painted, _, finished⟩ := Option.bind_eq_some_iff.mp handled
  cases outcome : outcomes.checking with
  | error error =>
    simp only [outcome] at finished
    cases finished
    constructor
    · intro message
      cases message
    · intro passed
      cases passed
  | ok _ =>
    simp only [outcome] at finished
    cases finished
    exact iff_of_true rfl rfl

theorem writing_switches {running : List Scene} (handled : menu.sceneTickUpdateWriting running outcomes = some next) :
    next.scenes.head? = some .updateRebooting ↔ outcomes.writing = .ok () := by
  obtain ⟨painted, _, finished⟩ := Option.bind_eq_some_iff.mp handled
  cases outcome : outcomes.writing with
  | error text =>
    simp only [outcome] at finished
    cases finished
    constructor
    · intro message
      cases message
    · intro written
      cases written
  | ok _ =>
    simp only [outcome] at finished
    cases finished
    exact iff_of_true rfl rfl

theorem rebooting_tick (at' : At menu [.updateRebooting, .about, .settings, .bootList])
    (handled : menu.sceneTickHandlerUpdateRebooting [.updateRebooting, .about, .settings, .bootList] outcomes = some next) :
    next.shell.Disciplined := by
  unfold sceneTickHandlerUpdateRebooting at handled
  split at handled
  · cases handled
    exact at'.fail .about _
  · obtain ⟨painted, paints, finished⟩ := Option.bind_eq_some_iff.mp handled
    have painted := at'.of_shell (paintMeanwhile_shell (by simp [at'.scenes]) paints)
    cases finished
    exact painted.fail .about _
  · obtain ⟨painted, paints, finished⟩ := Option.bind_eq_some_iff.mp handled
    have painted := at'.of_shell (paintMeanwhile_shell (by simp [at'.scenes]) paints)
    cases finished
    exact painted.replace .updateComplete

/-- The second pop removes About. -/
theorem complete_input {input : Pad} (at' : At menu [.updateComplete, .about, .settings, .bootList]) :
    (menu.sceneInputHandlerUpdateComplete [.updateComplete, .about, .settings, .bootList] outcomes
      input).shell.Disciplined := by
  unfold sceneInputHandlerUpdateComplete
  split
  · let running : List Scene := [.updateComplete, .about, .settings, .bootList]
    have first : At (menu.popScene running) [.about, .settings, .bootList] := at'.pop_self rfl
    have second : At ((menu.popScene running).popScene running) [.settings, .bootList] :=
      first.pop (.inr ⟨rfl, rfl, rfl⟩) rfl
    exact sceneSwitchToSettingsAbout_disciplined ((second.push rfl : At (Program.pushScene _ .about) _).disciplined .about)
  · exact at'.disciplined .updateComplete

theorem message_input {input : Pad} {text : String} {texts : List String} (known : menu.shell.Disciplined)
    (messages : menu.messages = text :: texts) :
    (menu.sceneInputHandlerMessage menu.scenes input).shell.Disciplined := by
  obtain ⟨⟨base, basis, scenes⟩, pops⟩ := known
  have scenes : menu.scenes = .message :: (List.replicate texts.length .message ++ base) := by
    have stacked : menu.scenes = List.replicate menu.messages.length .message ++ base := scenes
    rw [messages] at stacked
    exact stacked
  unfold sceneInputHandlerMessage
  split
  · refine ⟨⟨base, basis, ?_⟩, ?_⟩
    · show menu.scenes.tail = List.replicate menu.messages.tail.length .message ++ base
      rw [scenes, messages]
      rfl
    · intro running below listed
      rcases List.mem_cons.mp listed with now | before
      · obtain ⟨rfl, rfl⟩ := Prod.mk.inj now
        refine .inl ⟨?_, rfl⟩
        rw [scenes]
        exact List.cons_ne_nil _ _
      · exact pops running below before
  · refine ⟨⟨base, basis, ?_⟩, pops⟩
    show menu.scenes = List.replicate menu.messages.length .message ++ base
    rw [scenes, messages]
    rfl

theorem later (known : menu.shell.Disciplined) : menu.scenes.head? ≠ some .init := by
  obtain ⟨base, basis, scenes⟩ := known.shape
  have scenes : menu.scenes = List.replicate menu.messages.length .message ++ base := scenes
  rw [scenes]
  cases menu.messages
  · cases basis <;> exact fun first => by cases first
  · exact fun first => by cases first

theorem step_disciplined {input : Input} (known : menu.shell.Disciplined) (stepped : menu.step input = some next) :
    next.shell.Disciplined := by
  obtain ⟨base, basis, scenes⟩ := known.shape
  have scenes : menu.scenes = List.replicate menu.messages.length .message ++ base := scenes
  cases input with
  | massEvent =>
    cases stepped
    split <;> exact known
  | timer =>
    cases stepped
    split <;> exact known
  | paint outcomes =>
    rw [paint_shell (later known) stepped]
    exact known
  | tick outcomes =>
    change menu.sceneTickHandlerSuperscene outcomes = some next at stepped
    unfold sceneTickHandlerSuperscene at stepped
    cases messages : menu.messages with
    | cons text texts =>
      rw [scenes, messages] at stepped
      cases stepped
      exact known
    | nil =>
      rw [messages] at scenes
      have at' : At menu base := ⟨scenes, messages, known.pops⟩
      rw [show menu.scenes = base from scenes] at stepped
      cases basis with
      | bootList =>
        change menu.sceneTickHandlerBootList outcomes = some next at stepped
        unfold sceneTickHandlerBootList at stepped
        split at stepped
        · rw [addOrRemoveRescueElf_shell stepped]
          exact known
        · cases stepped
          exact known
      | updateScanning => exact scanning_tick at' stepped
      | updateChecking => exact checking_tick at' stepped
      | updateWriting => exact writing_tick at' stepped
      | updateRebooting => exact rebooting_tick at' stepped
      | options | settings | about | updateNotFound | updateFound | updateComplete =>
        cases stepped
        exact known
  | input outcomes pad =>
    change menu.sceneInputHandlerSuperscene outcomes pad = some next at stepped
    unfold sceneInputHandlerSuperscene at stepped
    cases messages : menu.messages with
    | cons text texts =>
      have handled := @message_input _ pad _ _ known messages
      rw [scenes, messages] at stepped handled
      cases stepped
      exact handled
    | nil =>
      rw [messages] at scenes
      have at' : At menu base := ⟨scenes, messages, known.pops⟩
      rw [show menu.scenes = base from scenes] at stepped
      cases basis with
      | bootList => exact bootList_input at' stepped
      | options =>
        cases stepped
        exact options_input at'
      | settings =>
        cases stepped
        exact settings_input at'
      | about =>
        cases stepped
        exact about_input at'
      | updateNotFound =>
        cases stepped
        exact notFound_input at'
      | updateFound =>
        cases stepped
        exact found_input at'
      | updateComplete =>
        cases stepped
        exact complete_input at'
      | updateScanning | updateChecking | updateWriting | updateRebooting =>
        cases stepped
        exact known

/-- Before the controller is ready, the Init scene is alone. -/
def Waiting (menu : Program) : Prop :=
  menu.shell = ⟨[.init], [], []⟩

/-- Once the Init scene is popped, the boot list is at the bottom. -/
theorem leave_init (waiting : menu.Waiting) :
    ((menu.popScene menu.scenes).sceneSwitchToBootList outcomes).shell.Disciplined := by
  have scenes : menu.scenes = [.init] := congrArg Shell.scenes waiting
  refine sceneSwitchToBootList_disciplined ⟨⟨_, .bootList, ?_⟩, fun running below listed => ?_⟩
  · rw [popScene_shell, waiting, scenes]
    rfl
  · rw [popScene_shell, waiting, scenes] at listed
    obtain ⟨rfl, rfl⟩ := Prod.mk.inj (List.mem_singleton.mp listed)
    exact .inl ⟨List.cons_ne_nil _ _, rfl⟩

/-- What a step of the Init scene does: nothing but to redraw and to count, or
the boot list is shown. -/
theorem waiting_cases {input : Input} (waiting : menu.Waiting) (stepped : menu.step input = some next) :
    (∃ repaint massEventReceived autobootCountdownSec autobootCountdownAlarm, next = { menu with
        state := { menu.state with repaint, massEventReceived, autobootCountdownSec, autobootCountdownAlarm } }) ∨
      ∃ outcomes, next = ({ menu with state.repaint := false }.popScene menu.scenes).sceneSwitchToBootList outcomes := by
  have scenes : menu.scenes = [.init] := congrArg Shell.scenes waiting
  cases input with
  | massEvent =>
    cases stepped
    split
    · exact .inl ⟨_, true, _, _, rfl⟩
    · exact .inl ⟨_, _, _, _, rfl⟩
  | timer =>
    cases stepped
    split
    · exact .inl ⟨true, _, _, _, rfl⟩
    · exact .inl ⟨_, _, _, _, rfl⟩
  | paint outcomes =>
    change menu.scenePaintHandlerSuperscene outcomes = some next at stepped
    unfold scenePaintHandlerSuperscene at stepped
    split at stepped
    · cases stepped
      exact .inl ⟨_, _, _, _, rfl⟩
    dsimp only at stepped
    split at stepped
    · cases stepped
      exact .inl ⟨false, _, _, _, rfl⟩
    next top below shown =>
      obtain ⟨rfl, rfl⟩ := List.cons.inj (shown.symm.trans scenes)
      cases stepped
      unfold scenePaintHandlerStartup
      split
      · exact .inr ⟨outcomes, rfl⟩
      · exact .inl ⟨true, _, _, _, rfl⟩
  | tick outcomes =>
    change menu.sceneTickHandlerSuperscene outcomes = some next at stepped
    unfold sceneTickHandlerSuperscene at stepped
    rw [scenes] at stepped
    cases stepped
    exact .inl ⟨_, _, _, _, rfl⟩
  | input outcomes pad =>
    change menu.sceneInputHandlerSuperscene outcomes pad = some next at stepped
    unfold sceneInputHandlerSuperscene at stepped
    rw [scenes] at stepped
    cases stepped
    exact .inl ⟨_, _, _, _, rfl⟩

theorem step_waiting {input : Input} (waiting : menu.Waiting) (stepped : menu.step input = some next) :
    next.Waiting ∨ next.shell.Disciplined := by
  rcases waiting_cases waiting stepped with ⟨_, _, _, _, rfl⟩ | ⟨outcomes, rfl⟩
  · exact .inl waiting
  · have unpainted : { menu with state.repaint := false }.Waiting := waiting
    exact .inr (leave_init unpainted)

theorem run_disciplined {inputs : List Input} (known : menu.Waiting ∨ menu.shell.Disciplined)
    (reached : menu.run inputs = some next) : next.Waiting ∨ next.shell.Disciplined := by
  induction inputs generalizing menu with
  | nil =>
    cases reached
    exact known
  | cons input rest ih =>
    obtain ⟨middle, stepped, reached⟩ := Option.bind_eq_some_iff.mp reached
    refine ih ?_ reached
    rcases known with waiting | known
    · exact step_waiting waiting stepped
    · exact .inr (step_disciplined known stepped)

theorem main_disciplined (malloc : State) (stored : SettingsState) (outcomes : Outcomes) :
    (main malloc stored outcomes).Waiting ∨ (main malloc stored outcomes).shell.Disciplined := by
  have read : ((powerUp malloc stored).autobootReadSettings outcomes).shell = ⟨[], [], []⟩ := by
    unfold autobootReadSettings
    dsimp only
    split <;> rfl
  unfold main
  dsimp only
  split
  · refine .inr (sceneSwitchToBootList_disciplined ⟨⟨_, .bootList, ?_⟩, fun running scenes listed => ?_⟩)
    · rw [read]
      rfl
    · rw [read] at listed
      cases listed
  · exact .inl (congrArg (Shell.push · .init) read)

/-- Whatever happens, the stack is the Init scene, or one of the known stacks with
a message scene for each text on top, and a pop removes the scene that runs. -/
theorem stack_disciplined (malloc : State) (stored : SettingsState) (outcomes : Outcomes) (inputs : List Input)
    (menu : Program) (reached : (main malloc stored outcomes).run inputs = some menu) :
    menu.scenes ≠ [] ∧
      (menu.scenes = [.init] ∨
        ∃ base count, Shell.Base base ∧ menu.scenes = List.replicate count .message ++ base) ∧
      menu.scenes.count .message = menu.messages.length ∧
      ∀ running scenes, .popped running scenes ∈ menu.events → Shell.RemovesRunning running scenes := by
  rcases run_disciplined (main_disciplined malloc stored outcomes) reached with waiting | ⟨⟨base, basis, scenes⟩, pops⟩
  · have scenes : menu.scenes = [.init] := congrArg Shell.scenes waiting
    have messages : menu.messages = [] := congrArg Shell.messages waiting
    have pops : menu.shell.pops = [] := congrArg Shell.pops waiting
    refine ⟨?_, .inl scenes, ?_, ?_⟩
    · rw [scenes]
      exact List.cons_ne_nil _ _
    · rw [scenes, messages]
      rfl
    · intro running below listed
      have popped := mem_pops.mpr listed
      rw [pops] at popped
      cases popped
  · have scenes : menu.scenes = List.replicate menu.messages.length .message ++ base := scenes
    refine ⟨?_, .inr ⟨base, _, basis, scenes⟩, ?_, ?_⟩
    · rw [scenes]
      exact List.append_ne_nil_of_right_ne_nil _ basis.nonempty
    · rw [scenes, List.count_append, List.count_replicate_self, basis.no_message]
      rfl
    · intro running below listed
      exact pops running below (mem_pops.mpr listed)

/-- The controller is late, and the list of applications cannot be read. -/
theorem stack_disciplined_late :
    ∃ menu, (main (.filled 0) untouched { Outcomes.plain with padIsReady := false }).run
        [.paint { Outcomes.plain with padIsReady := false }, .paint { Outcomes.plain with appsReadIndex := none }] =
          some menu ∧
      menu.scenes = [.message, .bootList] ∧
      ∀ running scenes, .popped running scenes ∈ menu.events → Shell.RemovesRunning running scenes :=
  ⟨_, rfl, rfl, (stack_disciplined (.filled 0) untouched { Outcomes.plain with padIsReady := false }
    [.paint { Outcomes.plain with padIsReady := false }, .paint { Outcomes.plain with appsReadIndex := none }]
    _ rfl).2.2.2⟩

end Program

end Fruitchip.Menu
