import Fruitchip.Library.Runs
import Fruitchip.Proofs.ListHilite
import Fruitchip.Proofs.MenuSteps

/-! The boot list while mass storage comes and goes. -/

namespace Fruitchip.Menu
open Embedded Firmware Program

def Event.found? : Event → Option Bool
  | .rescueElf found => some found
  | _ => none

/-- The latest mass storage event that was handled found the file. -/
def latestFound (events : List Event) : Bool := (events.filterMap Event.found?).head?.getD false

/-- The items with their attributes: those the list was shown with, and the file
if it is there. -/
def listed (apps : List (ListItem × U32)) (found : Bool) : List (ListItem × U32) :=
  if found then apps ++ [(rescueItem, modchipAppsAttrDisableNextOsdsysHook)] else apps

/-- What is said of the boot list that was shown with some applications. -/
structure BootListKept (apps : List (ListItem × U32)) (menu : Program) : Prop where
  single : menu.state.bootList.items.count rescueItem ≤ 1
  found : rescueItem ∈ menu.state.bootList.items ↔ latestFound menu.events = true
  index : rescueItem ∈ menu.state.bootList.items →
    menu.state.bootList.items[menu.state.rescueItemIdx.toNat]? = some rescueItem
  noIndex : rescueItem ∉ menu.state.bootList.items → menu.state.rescueItemIdx = 0
  lengths : menu.state.bootListAttr.length = menu.state.bootList.items.length
  attributes : menu.state.bootList.items.zip menu.state.bootListAttr = listed apps (latestFound menu.events)
  hilite : menu.state.bootList.hiliteIdx.toNat < menu.state.bootList.items.length

/-- An event that finds the file is handled only while the file is not listed. -/
def FindsOnce (menu : Program) (input : Input) : Prop :=
  menu.Handles input true → menu.state.rescueItemIdx = 0

structure Stock (apps : List (ListItem × U32)) : Prop where
  some : 0 < apps.length
  few : apps.length ≤ 256
  plain : rescueItem ∉ apps.map Prod.fst

structure Stocked (apps : List (ListItem × U32)) (core : Core) : Prop where
  items : core.bootList.items = (listed apps (latestFound core.events)).map Prod.fst
  attributes : core.bootListAttr = (listed apps (latestFound core.events)).map Prod.snd
  index : core.rescueItemIdx = if latestFound core.events then BitVec.ofNat 32 apps.length else 0
  hilite : core.bootList.hiliteIdx.toNat < core.bootList.items.length

variable {apps : List (ListItem × U32)} {menu next : Program} {input : Input} {core : Core}

theorem latestFound_filter (events : List Event) : latestFound (events.filter Event.matters) = latestFound events := by
  have same : (events.filter Event.matters).filterMap Event.found? = events.filterMap Event.found? := by
    induction events with
    | nil => rfl
    | cons event before ih =>
      cases event with
      | rescueElf found => exact congrArg (List.cons found) ih
      | pushed scene =>
        rw [List.filter_cons]
        split
        · exact ih
        · exact ih
      | _ => exact ih
  unfold latestFound
  rw [same]

theorem listed_length (found : Bool) : (listed apps found).length = apps.length + found.toNat := by
  unfold listed
  cases found
  · rfl
  · exact List.length_append

theorem Stocked.lengths (stock : Stock apps) (stocked : Stocked apps core) :
    core.bootList.items.length = apps.length + (latestFound core.events).toNat ∧ core.bootList.items.length < 2 ^ 32 := by
  have length : core.bootList.items.length = apps.length + (latestFound core.events).toNat := by
    rw [stocked.items, List.length_map, listed_length]
  have := stock.few
  have := Bool.toNat_le (latestFound core.events)
  exact ⟨length, by omega⟩

theorem Stocked.unlisted_iff (stock : Stock apps) (stocked : Stocked apps core) :
    core.rescueItemIdx = 0 ↔ latestFound core.events = false := by
  have := stock.some
  have := stock.few
  rw [stocked.index]
  split
  next found =>
    rw [found]
    refine iff_of_false (fun zero => ?_) (fun same => by cases same)
    have same := congrArg BitVec.toNat zero
    rw [toNat_ofNat_of_lt (by omega)] at same
    have zero : BitVec.toNat (0 : U32) = 0 := rfl
    omega
  next missing => exact iff_of_true rfl (Bool.eq_false_iff.mpr missing)

theorem Stocked.sound (stock : Stock apps) (stocked : Stocked apps core) : core.bootList.Sound :=
  ⟨(stocked.lengths stock).2, .inl stocked.hilite⟩

theorem Stocked.push (stock : Stock apps) (stocked : Stocked apps core) (unlisted : core.rescueItemIdx = 0) :
    Stocked apps { core with
      bootList := (core.bootList.listPushItem rescueItem).2
      bootListAttr := core.bootListAttr ++ [modchipAppsAttrDisableNextOsdsysHook]
      rescueItemIdx := core.bootList.listLen
      events := .rescueElf true :: core.events } := by
  have missing := (stocked.unlisted_iff stock).mp unlisted
  have items := stocked.items
  have attributes := stocked.attributes
  have ⟨length, _⟩ := stocked.lengths stock
  rw [missing] at items attributes length
  refine ⟨?_, ?_, ?_, ?_⟩
  · show core.bootList.items ++ [rescueItem] = (apps ++ [(rescueItem, _)]).map Prod.fst
    rw [items, List.map_append]
    rfl
  · show core.bootListAttr ++ [_] = (apps ++ [(rescueItem, _)]).map Prod.snd
    rw [attributes, List.map_append]
    rfl
  · exact congrArg (BitVec.ofNat 32) length
  · show core.bootList.hiliteIdx.toNat < (core.bootList.items ++ [rescueItem]).length
    have := stocked.hilite
    rw [List.length_append]
    omega

theorem Stocked.remove (stock : Stock apps) (stocked : Stocked apps core) (found : latestFound core.events = true)
    {bootList : ListState} (removed : core.bootList.listRemoveItem core.rescueItemIdx = some bootList) :
    Stocked apps { core with
      bootList
      bootListAttr := core.bootListAttr.eraseIdx core.rescueItemIdx.toNat
      rescueItemIdx := 0
      events := .rescueElf false :: core.events } := by
  have items := stocked.items
  have attributes := stocked.attributes
  have index : core.rescueItemIdx.toNat = apps.length := by
    have := stock.few
    rw [stocked.index, if_pos found, toNat_ofNat_of_lt (by omega)]
  have drop {α : Type} (listed : List α) (last : α) (length : listed.length = apps.length) :
      (listed ++ [last]).eraseIdx core.rescueItemIdx.toNat = listed := by
    rw [index, ← length, List.eraseIdx_append_of_length_le (Nat.le_refl _), Nat.sub_self]
    exact List.append_nil _
  rw [found] at items attributes
  have ⟨left, inside⟩ := ListState.listRemoveItem_spec removed
  have kept : bootList.items = apps.map Prod.fst := by
    rw [left, items, listed, if_pos rfl, List.map_append]
    exact drop _ _ (List.length_map _)
  refine ⟨kept, ?_, rfl, inside⟩
  show core.bootListAttr.eraseIdx core.rescueItemIdx.toNat = apps.map Prod.snd
  rw [attributes, listed, if_pos rfl, List.map_append]
  exact drop _ _ (List.length_map _)

theorem Stocked.change {after : Core} (stock : Stock apps) (stocked : Stocked apps menu.core)
    (once : FindsOnce menu input) (change : Change menu input after) : Stocked apps after := by
  cases change with
  | quiet => exact stocked
  | hilited moved =>
    rcases moved with rfl | rfl
    · exact ⟨stocked.items, stocked.attributes, stocked.index, ListState.hiliteUp_lt (stocked.sound stock).few stocked.hilite⟩
    · exact ⟨stocked.items, stocked.attributes, stocked.index, ListState.hiliteDown_lt (stocked.sound stock).few stocked.hilite⟩
  | launched | opened | toggled | closed =>
    exact ⟨stocked.items, stocked.attributes, stocked.index, stocked.hilite⟩
  | rescueFound handled => exact stocked.push stock (once handled)
  | rescueLost handled listed removed =>
    refine stocked.remove stock ?_ removed
    exact Bool.eq_true_of_not_eq_false fun missing => listed ((stocked.unlisted_iff stock).mpr missing)
  | rescueAbsent handled unlisted =>
    have missing := (stocked.unlisted_iff stock).mp unlisted
    have items := stocked.items
    have attributes := stocked.attributes
    have index := stocked.index
    rw [missing] at items attributes index
    exact ⟨items, attributes, index, stocked.hilite⟩

theorem Stocked.kept (stock : Stock apps) (stocked : Stocked apps menu.core) : BootListKept apps menu := by
  have same : latestFound menu.core.events = latestFound menu.events := latestFound_filter _
  have items : menu.state.bootList.items = (listed apps (latestFound menu.events)).map Prod.fst := same ▸ stocked.items
  have attributes : menu.state.bootListAttr = (listed apps (latestFound menu.events)).map Prod.snd :=
    same ▸ stocked.attributes
  have index : menu.state.rescueItemIdx = if latestFound menu.events then BitVec.ofNat 32 apps.length else 0 :=
    same ▸ stocked.index
  have count : (apps.map Prod.fst).count rescueItem = 0 := List.count_eq_zero.mpr stock.plain
  have pairs : menu.state.bootList.items.zip menu.state.bootListAttr = listed apps (latestFound menu.events) := by
    rw [items, attributes]
    exact (List.zip_of_prod rfl rfl).symm
  have lengths : menu.state.bootListAttr.length = menu.state.bootList.items.length := by
    rw [items, attributes, List.length_map, List.length_map]
  cases found : latestFound menu.events with
  | false =>
    rw [found] at items index
    have missing : rescueItem ∉ menu.state.bootList.items := items ▸ stock.plain
    refine ⟨?_, iff_of_false missing ?_, fun there => absurd there missing, fun _ => index, lengths, pairs, stocked.hilite⟩
    · rw [items]
      exact Nat.le_trans (Nat.le_of_eq count) (Nat.zero_le _)
    · rw [found]
      exact Bool.false_ne_true
  | true =>
    rw [found] at items index
    have items : menu.state.bootList.items = apps.map Prod.fst ++ [rescueItem] := by
      rw [items, listed, if_pos rfl, List.map_append]
      rfl
    have there : rescueItem ∈ menu.state.bootList.items := by
      rw [items]
      exact List.mem_append_right _ List.mem_cons_self
    refine ⟨?_, iff_of_true there found, ?_, fun missing => absurd there missing, lengths, pairs, stocked.hilite⟩
    · rw [items, List.count_append, count]
      exact Nat.le_of_eq rfl
    · intro _
      have := stock.few
      rw [index, if_pos rfl, toNat_ofNat_of_lt (by omega), items]
      rw [List.getElem?_append_right (Nat.le_of_eq (List.length_map _)), List.length_map, Nat.sub_self]
      rfl

theorem found_again (handles : menu.Handles input true) (stepped : menu.step input = some next) :
    next.state.bootList.items = menu.state.bootList.items ++ [rescueItem] := by
  obtain ⟨⟨outcomes, rfl, found⟩, top, received⟩ := handles
  change menu.sceneTickHandlerSuperscene outcomes = some next at stepped
  unfold sceneTickHandlerSuperscene at stepped
  split at stepped
  next scenes =>
    rw [scenes] at top
    cases top
  next topScene below scenes =>
    rw [scenes] at top
    cases top
    change menu.sceneTickHandlerBootList outcomes = some next at stepped
    unfold sceneTickHandlerBootList addOrRemoveRescueElf at stepped
    rw [if_pos received] at stepped
    dsimp only at stepped
    rw [if_pos found] at stepped
    cases stepped
    rfl

theorem BootListKept.findsOnce (stock : Stock apps) (stocked : Stocked apps menu.core)
    (stepped : menu.step input = some next) (kept : BootListKept apps next) : FindsOnce menu input := by
  intro handles
  refine (stocked.unlisted_iff stock).mpr (Bool.eq_false_iff.mpr fun found => ?_)
  have before := (stocked.kept stock).found.mpr ((latestFound_filter _).symm.trans found)
  have single := kept.single
  rw [found_again handles stepped, List.count_append] at single
  have one := List.count_pos_iff.mpr before
  have another : [rescueItem].count rescueItem = 1 := rfl
  omega

theorem populateLoop_length (appsCount idx : U8) (ptr : List U8) :
    (AppsBuilder.populateLoop appsCount idx ptr).length ≤ appsCount.toNat - idx.toNat := by
  fun_induction AppsBuilder.populateLoop appsCount idx ptr with
  | case1 idx ptr below nameLen rest ih =>
    rw [List.length_cons]
    bv_omega
  | case2 => exact Nat.zero_le _

theorem populated_stock (outcomes : Outcomes) : Stock (populated outcomes) := by
  refine ⟨Nat.zero_lt_succ _, ?_, ?_⟩
  · unfold populated
    rw [List.length_cons]
    split
    · decide
    next appsIndex _ =>
      have := populateLoop_length (appsIndex.headD 0) 0 (appsIndex.drop 1)
      have := (appsIndex.headD 0).isLt
      rw [List.length_map, AppsBuilder.appsListPopulate]
      omega
  · unfold populated
    intro there
    obtain ⟨⟨item, attr⟩, member, same⟩ := List.mem_map.mp there
    rcases List.mem_cons.mp member with first | member
    · cases first
      exact absurd same (by decide)
    · split at member
      · cases member
      · obtain ⟨app, _, made⟩ := List.mem_map.mp member
        cases made
        cases same

/-- No boot list was shown yet, and `rescue_item_idx` is zero. -/
structure Fresh (menu : Program) : Prop where
  scenes : menu.scenes = []
  messages : menu.messages = []
  pops : ∀ running scenes, .popped running scenes ∈ menu.events → running = [.init] ∧ scenes = [.init]
  unhandled : ∀ found, .rescueElf found ∉ menu.events
  rescueItemIdx : menu.state.rescueItemIdx = 0

theorem Fresh.disciplined (fresh : Fresh menu) (outcomes : Outcomes) :
    (menu.sceneSwitchToBootList outcomes).shell.Disciplined := by
  refine sceneSwitchToBootList_disciplined ⟨⟨_, .bootList, ?_⟩, fun running scenes popped => ?_⟩
  · show .bootList :: menu.scenes = List.replicate menu.messages.length .message ++ [.bootList]
    rw [fresh.scenes, fresh.messages]
    rfl
  · obtain ⟨rfl, rfl⟩ := fresh.pops running scenes (mem_pops.mp popped)
    exact .inl ⟨List.cons_ne_nil _ _, rfl⟩

theorem Fresh.stocked (fresh : Fresh menu) (outcomes : Outcomes) :
    Stocked (populated outcomes) (menu.sceneSwitchToBootList outcomes).core := by
  have missing : latestFound menu.core.events = false := by
    rw [show latestFound menu.core.events = latestFound menu.events from latestFound_filter _]
    have none : menu.events.filterMap Event.found? = [] := by
      apply List.filterMap_eq_nil_iff.mpr
      intro event happened
      cases event with
      | rescueElf found => exact absurd happened (fresh.unhandled found)
      | _ => rfl
    rw [latestFound, none]
    rfl
  obtain ⟨hiliteIdx, core, inside⟩ := @sceneSwitchToBootList_core menu outcomes
  have := (populated_stock outcomes).some
  rw [core]
  refine ⟨?_, ?_, ?_, ?_⟩
  · show _ = (listed _ (latestFound menu.core.events)).map Prod.fst
    rw [missing]
    rfl
  · show _ = (listed _ (latestFound menu.core.events)).map Prod.snd
    rw [missing]
    rfl
  · show menu.state.rescueItemIdx = if latestFound menu.core.events then _ else 0
    rw [missing, fresh.rescueItemIdx]
    rfl
  · show hiliteIdx.toNat < ((populated outcomes).map Prod.fst).length
    rw [List.length_map]
    rcases inside with rfl | below
    · exact this
    · exact Nat.lt_of_lt_of_le (BitVec.lt_def.mp below) (Nat.le_trans (Nat.le_of_eq (BitVec.toNat_ofNat _ _)) (Nat.mod_le _ _))

theorem waiting_fresh (waiting : menu.Waiting) (unhandled : ∀ found, .rescueElf found ∉ menu.core.events)
    (rescueItemIdx : menu.core.rescueItemIdx = 0) : Fresh (menu.popScene menu.scenes) := by
  have scenes : menu.scenes = [.init] := congrArg Shell.scenes waiting
  have none : menu.shell.pops = [] := congrArg Shell.pops waiting
  refine ⟨congrArg List.tail scenes, congrArg Shell.messages waiting, ?_,
    ?_, rescueItemIdx⟩
  · intro running below popped
    rcases List.mem_cons.mp popped with now | before
    · cases now
      exact ⟨scenes, scenes⟩
    · have before : (running, below) ∈ menu.shell.pops := mem_pops.mpr before
      rw [none] at before
      cases before
  · intro found handled
    rcases List.mem_cons.mp handled with now | before
    · cases now
    · exact unhandled found (List.mem_filter.mpr ⟨before, rfl⟩)

structure Unlisted (core : Core) : Prop where
  unhandled : ∀ found, .rescueElf found ∉ core.events
  rescueItemIdx : core.rescueItemIdx = 0

theorem Unlisted.shown (unlisted : Unlisted menu.core) (outcomes : Outcomes) :
    Unlisted (menu.sceneSwitchToBootList outcomes).core := by
  obtain ⟨hiliteIdx, core, _⟩ := @sceneSwitchToBootList_core menu outcomes
  rw [core]
  exact ⟨unlisted.unhandled, unlisted.rescueItemIdx⟩

theorem Unlisted.wait (unlisted : Unlisted menu.core) (waiting : menu.Waiting) (stepped : menu.step input = some next) :
    Unlisted next.core := by
  rcases step_waiting_core waiting stepped with same | ⟨before, outcomes, same, rfl⟩
  · rw [same]
    exact unlisted
  · rw [← same] at unlisted
    exact unlisted.shown outcomes

theorem main_unlisted (malloc : State) (stored : SettingsState) (outcomes : Outcomes) (zero : malloc.rescueItemIdx = 0) :
    Unlisted (main malloc stored outcomes).core := by
  have read : Unlisted ((powerUp malloc stored).autobootReadSettings outcomes).core := by
    rw [autobootReadSettings_core]
    exact ⟨fun _ handled => (by cases handled), zero⟩
  unfold main
  dsimp only
  split
  · exact read.shown outcomes
  · exact read

theorem run_unlisted {inputs : List Input} (known : menu.Waiting ∧ Unlisted menu.core ∨ menu.shell.Disciplined)
    (reached : menu.run inputs = some next) : next.Waiting ∧ Unlisted next.core ∨ next.shell.Disciplined := by
  induction inputs generalizing menu with
  | nil =>
    cases reached
    exact known
  | cons input rest ih =>
    obtain ⟨middle, stepped, reached⟩ := Option.bind_eq_some_iff.mp reached
    refine ih ?_ reached
    rcases known with ⟨waiting, unlisted⟩ | known
    · exact (step_waiting waiting stepped).imp_left fun later => ⟨later, unlisted.wait waiting stepped⟩
    · exact .inr (step_disciplined known stepped)

theorem powerUp_fresh (malloc : State) (stored : SettingsState) (outcomes : Outcomes) (zero : malloc.rescueItemIdx = 0) :
    Fresh ((powerUp malloc stored).autobootReadSettings outcomes) := by
  unfold autobootReadSettings
  dsimp only
  split
  all_goals exact ⟨rfl, rfl, fun _ _ popped => (by cases popped), fun _ handled => (by cases handled), zero⟩

theorem main_fresh (malloc : State) (stored : SettingsState) (outcomes : Outcomes) {inputs : List Input}
    (zero : malloc.rescueItemIdx = 0) (reached : (main malloc stored outcomes).run inputs = some menu)
    (scenes : menu.scenes = [.init]) : Fresh (menu.popScene menu.scenes) := by
  have start := (main_disciplined malloc stored outcomes).imp_left fun waiting =>
    And.intro waiting (main_unlisted malloc stored outcomes zero)
  rcases run_unlisted start reached with ⟨waiting, unlisted⟩ | disciplined
  · exact waiting_fresh waiting unlisted.unhandled unlisted.rescueItemIdx
  · refine absurd ?_ (later disciplined)
    rw [scenes]
    rfl

/-- The attributes of the highlighted item, whose index is cut to a byte. -/
theorem Stocked.attr (stock : Stock apps) (stocked : Stocked apps menu.core) :
    ∃ attr, menu.state.bootListAttr[(menu.state.bootList.hiliteIdx.setWidth 8).toNat]? = some attr := by
  have kept := stocked.kept stock
  have inside : (menu.state.bootList.hiliteIdx.setWidth 8).toNat < menu.state.bootListAttr.length := by
    rw [kept.lengths, BitVec.toNat_setWidth]
    exact Nat.lt_of_le_of_lt (Nat.mod_le _ _) kept.hilite
  exact ⟨_, List.getElem?_eq_getElem inside⟩

theorem Stocked.boots (stock : Stock apps) (stocked : Stocked apps menu.core) : ∃ next, menu.bootHilitedItem = some next := by
  obtain ⟨attr, known⟩ := stocked.attr stock
  unfold bootHilitedItem bootFwfs
  dsimp only
  rw [known]
  split
  · exact ⟨_, rfl⟩
  split
  · exact ⟨_, rfl⟩
  split
  · exact ⟨_, rfl⟩
  · exact ⟨_, rfl⟩

theorem Stocked.removes (stock : Stock apps) (stocked : Stocked apps menu.core) (listed : menu.state.rescueItemIdx ≠ 0) :
    ∃ next, menu.appsListRemoveItem menu.state.rescueItemIdx = some next := by
  have kept := stocked.kept stock
  have found : latestFound menu.core.events = true :=
    Bool.eq_true_of_not_eq_false fun missing => listed ((stocked.unlisted_iff stock).mpr missing)
  have ⟨length, _⟩ := stocked.lengths stock
  rw [found] at length
  have length : menu.state.bootList.items.length = apps.length + 1 := length
  have := stock.few
  have := stock.some
  have index : menu.state.rescueItemIdx.toNat = apps.length := by
    have index : menu.state.rescueItemIdx = _ := stocked.index
    rw [index, if_pos found, toNat_ofNat_of_lt (by omega)]
  have inside : menu.state.rescueItemIdx.toNat < menu.state.bootList.items.length := by omega
  have others : menu.state.bootList.items.length ≠ 1 := by
    rw [length]
    omega
  have sound : menu.state.bootList.Sound := stocked.sound stock
  obtain ⟨bootList, removed⟩ := sound.removes inside others
  unfold appsListRemoveItem
  rw [removed]
  dsimp only
  rw [if_pos (kept.lengths ▸ inside)]
  exact ⟨_, rfl⟩

theorem Stocked.handles (stock : Stock apps) (stocked : Stocked apps menu.core) (outcomes : Outcomes) :
    ∃ next, menu.sceneTickHandlerBootList outcomes = some next := by
  unfold sceneTickHandlerBootList addOrRemoveRescueElf
  dsimp only
  split
  · split
    · exact ⟨_, rfl⟩
    split
    next listed =>
      obtain ⟨removed, found⟩ := stocked.removes stock listed
      rw [found]
      exact ⟨_, rfl⟩
    · exact ⟨_, rfl⟩
  · exact ⟨_, rfl⟩

theorem Stocked.paints (stock : Stock apps) (stocked : Stocked apps menu.core) (outcomes : Outcomes) :
    ∃ next, menu.scenePaintHandlerSuperscene outcomes = some next := by
  unfold scenePaintHandlerSuperscene
  split
  · exact ⟨_, rfl⟩
  dsimp only
  split
  · exact ⟨_, rfl⟩
  next top below scenes =>
    cases top
    case bootList =>
      have repainted : Stocked apps { menu with state.repaint := false }.core := stocked
      show ∃ next, handleAutobootCountdown _ = some next
      unfold handleAutobootCountdown
      split
      · exact ⟨_, rfl⟩
      split
      · exact ⟨_, rfl⟩
      · exact repainted.boots stock
    all_goals exact ⟨_, rfl⟩

theorem Stocked.paintsMeanwhile (stock : Stock apps) (stocked : Stocked apps menu.core)
    (quiet : menu.scenes.head? ≠ some .init ∧ menu.scenes.head? ≠ some .bootList) (outcomes : Outcomes) (paints : Nat) :
    ∃ next, paintMeanwhile outcomes paints menu = some next := by
  induction paints generalizing menu with
  | zero => exact ⟨_, rfl⟩
  | succ paints ih =>
    have repainted : Stocked apps menu.repaint.core := stocked
    obtain ⟨first, painted⟩ := repainted.paints stock outcomes
    have same : first.core = menu.repaint.core ∧ first.scenes = menu.repaint.scenes := paint_core quiet painted
    obtain ⟨last, rest⟩ := ih (same.1 ▸ repainted) (same.2 ▸ quiet)
    exact ⟨last, Option.bind_eq_some_iff.mpr ⟨first, painted, rest⟩⟩

theorem Stocked.ticks (stock : Stock apps) (stocked : Stocked apps menu.core) (outcomes : Outcomes) :
    ∃ next, menu.sceneTickHandlerSuperscene outcomes = some next := by
  unfold sceneTickHandlerSuperscene
  split
  · exact ⟨_, rfl⟩
  next top below scenes =>
    have waits (menu : Program) (stocked : Stocked apps menu.core)
        (quiet : menu.scenes.head? ≠ some .init ∧ menu.scenes.head? ≠ some .bootList) (finish : Program → Option Program)
        (finishes : ∀ menu, ∃ next, finish menu = some next) :
        ∃ next, (paintMeanwhile outcomes outcomes.paints menu).bind finish = some next := by
      obtain ⟨painted, paints⟩ := stocked.paintsMeanwhile stock quiet outcomes outcomes.paints
      rw [paints]
      exact finishes painted
    cases top
    case bootList => exact stocked.handles stock outcomes
    case updateScanning =>
      obtain ⟨painted, paints⟩ := stocked.paints stock outcomes
      exact ⟨_, Option.bind_eq_some_iff.mpr ⟨painted, paints, rfl⟩⟩
    case updateChecking =>
      have repainted : Stocked apps menu.repaint.core := stocked
      obtain ⟨painted, paints⟩ := repainted.paints stock outcomes
      have quiet : menu.scenes.head? ≠ some .init ∧ menu.scenes.head? ≠ some .bootList := by simp [scenes]
      have same : painted.core = menu.repaint.core ∧ painted.scenes = menu.repaint.scenes := paint_core quiet paints
      show ∃ next, Option.bind (menu.repaint.scenePaintHandlerSuperscene outcomes) _ = some next
      rw [paints]
      apply waits painted (same.1 ▸ repainted) (same.2 ▸ quiet) _
      intro after
      split <;> exact ⟨_, rfl⟩
    case updateWriting =>
      apply waits menu stocked (by simp [scenes]) _
      intro after
      split <;> exact ⟨_, rfl⟩
    case updateRebooting =>
      show ∃ next, sceneTickHandlerUpdateRebooting menu menu.scenes outcomes = some next
      unfold sceneTickHandlerUpdateRebooting
      split
      · exact ⟨_, rfl⟩
      · exact waits menu stocked (by simp [scenes]) _ fun after => ⟨_, rfl⟩
      · exact waits menu stocked (by simp [scenes]) _ fun after => ⟨_, rfl⟩
    all_goals exact ⟨_, rfl⟩

theorem Stocked.inputs (stock : Stock apps) (stocked : Stocked apps menu.core) (outcomes : Outcomes) (pad : Pad) :
    ∃ next, menu.sceneInputHandlerBootList outcomes pad = some next := by
  have woken : Stocked apps (if menu.state.autobootCountdown then
      { menu with state.autobootCountdown := false }.repaint else menu).core := by
    split <;> exact stocked
  unfold sceneInputHandlerBootList
  dsimp only
  generalize (if menu.state.autobootCountdown then { menu with state.autobootCountdown := false }.repaint
    else menu) = awake at woken
  split
  · exact ⟨_, rfl⟩
  split
  · exact ⟨_, rfl⟩
  split
  · obtain ⟨booted, boots⟩ := woken.boots stock
    rw [boots]
    exact ⟨_, rfl⟩
  split
  · obtain ⟨attr, known⟩ := woken.attr stock
    rw [known]
    dsimp only
    split
    · unfold sceneSwitchToOptions
      dsimp only
      rw [known]
      exact ⟨_, rfl⟩
    · exact ⟨_, rfl⟩
  split
  · exact ⟨_, rfl⟩
  split
  · exact ⟨_, rfl⟩
  · exact ⟨_, rfl⟩

theorem step_returns (stock : Stock apps) (stocked : Stocked apps menu.core) : ∃ next, menu.step input = some next := by
  cases input with
  | massEvent => exact ⟨_, rfl⟩
  | timer => exact ⟨_, rfl⟩
  | paint outcomes => exact stocked.paints stock outcomes
  | tick outcomes => exact stocked.ticks stock outcomes
  | input outcomes pad =>
    show ∃ next, menu.sceneInputHandlerSuperscene outcomes pad = some next
    unfold sceneInputHandlerSuperscene
    split
    · exact ⟨_, rfl⟩
    next top below scenes =>
      cases top
      case bootList => exact stocked.inputs stock outcomes pad
      all_goals exact ⟨_, rfl⟩

/-- A run in which the file is found once at a time never gets stuck. -/
theorem run_returns (stock : Stock apps) {inputs : List Input} (disciplined : menu.shell.Disciplined)
    (stocked : Stocked apps menu.core) (along : Along step FindsOnce menu inputs) : ∃ next, menu.run inputs = some next := by
  induction inputs generalizing menu with
  | nil => exact ⟨_, rfl⟩
  | cons input rest ih =>
    obtain ⟨next, stepped⟩ := @step_returns apps menu input stock stocked
    have ⟨once, later⟩ := along next stepped
    obtain ⟨last, reached⟩ := ih (step_disciplined disciplined stepped)
      (stocked.change stock once (step_change disciplined stepped)) later
    exact ⟨last, Option.bind_eq_some_iff.mpr ⟨next, stepped, reached⟩⟩

/-- The boot list is kept just if no event finds the file while it is listed. Such
a run never gets stuck. -/
theorem boot_list_iff (menu : Program) (outcomes : Outcomes) (inputs : List Input) (fresh : Fresh menu) :
    (Throughout step (BootListKept (populated outcomes)) (menu.sceneSwitchToBootList outcomes) inputs ↔
      Along step FindsOnce (menu.sceneSwitchToBootList outcomes) inputs) ∧
    (Along step FindsOnce (menu.sceneSwitchToBootList outcomes) inputs →
      ∃ last, (menu.sceneSwitchToBootList outcomes).run inputs = some last) := by
  have stock := populated_stock outcomes
  refine ⟨?_, run_returns stock (fresh.disciplined outcomes) (fresh.stocked outcomes)⟩
  refine throughout_iff_along
    (fun menu (known : menu.shell.Disciplined ∧ Stocked (populated outcomes) menu.core) => known.2.kept stock)
    (fun menu input next known stepped once => ?_)
    (fun menu input next known stepped kept => kept.findsOnce stock known.2 stepped)
    ⟨fresh.disciplined outcomes, fresh.stocked outcomes⟩
  exact ⟨step_disciplined known.1 stepped, known.2.change stock once (step_change known.1 stepped)⟩

theorem boot_list_iff_once :
    Throughout step (BootListKept (populated Outcomes.plain))
      (((powerUp (.filled 0) untouched).autobootReadSettings Outcomes.plain).sceneSwitchToBootList Outcomes.plain)
      [.massEvent, .tick { Outcomes.plain with rescueElf := true }] := by
  refine (boot_list_iff _ Outcomes.plain [.massEvent, .tick { Outcomes.plain with rescueElf := true }]
    (powerUp_fresh (.filled 0) untouched Outcomes.plain rfl)).1.mpr fun next stepped => ⟨fun handles => ?_, ?_⟩
  · obtain ⟨outcomes, same, _⟩ := handles.tick
    cases same
  · cases stepped
    exact fun _ _ => ⟨fun _ => by with_unfolding_all rfl, trivial⟩

/-- Two events find the file, and it is listed twice. -/
theorem boot_list_twice : ¬ ∀ (menu : Program) (outcomes : Outcomes) (inputs : List Input), Fresh menu →
    Throughout step (BootListKept (populated outcomes)) (menu.sceneSwitchToBootList outcomes) inputs := by
  intro claim
  have kept := claim _ Outcomes.plain
    [.massEvent, .tick { Outcomes.plain with rescueElf := true }, .massEvent,
      .tick { Outcomes.plain with rescueElf := true }]
    (powerUp_fresh (.filled 0) untouched Outcomes.plain rfl)
  have first := (kept.2 _ rfl).2 _ (by with_unfolding_all rfl)
  have second := ((first.2 _ rfl).2 _ (by with_unfolding_all rfl)).start
  exact absurd second.single (by with_unfolding_all decide)

end Fruitchip.Menu
