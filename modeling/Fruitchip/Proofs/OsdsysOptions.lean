import Fruitchip.Proofs.MenuSteps

/-! The launch options that OSDSYS gets, and the ones in the modchip. -/

namespace Fruitchip.Menu
open Embedded Firmware

/-- Each launch with options for OSDSYS comes after the options were opened. -/
def OptionsFirst : List Event → Prop
  | [] => True
  | .loadElf elf _ _ :: before => (elf.TakesOptions → .pushed .options ∈ before) ∧ OptionsFirst before
  | _ :: before => OptionsFirst before

/-- Each launch with options for OSDSYS has the ones that are stored then. -/
def Follows (events : List Event) : Prop :=
  ∀ elf argv stored, .loadElf elf argv stored ∈ events → elf.TakesOptions →
    argv = Program.osdsysArgv (stored.setWidth 32)

namespace Program

private theorem argv_injective : ∀ a0 a1 a2 a3 b0 b1 b2 b3 : Bool,
    (if a0 then ["BootClock"] else []) ++ (if a1 then ["BootBrowser"] else []) ++
        (if a2 then ["SkipMc"] else []) ++ (if a3 then ["SkipHdd"] else []) =
      (if b0 then ["BootClock"] else []) ++ (if b1 then ["BootBrowser"] else []) ++
        (if b2 then ["SkipMc"] else []) ++ (if b3 then ["SkipHdd"] else []) →
    a0 = b0 ∧ a1 = b1 ∧ a2 = b2 ∧ a3 = b3 := by
  decide

theorem osdsysArgv_eq_iff (first second : U32) :
    osdsysArgv first = osdsysArgv second ↔ first.setWidth 4 = second.setWidth 4 := by
  constructor
  · intro same
    obtain ⟨zero, one, two, three⟩ := argv_injective _ _ _ _ _ _ _ _ same
    apply BitVec.eq_of_getLsbD_eq
    intro index inside
    have bits : index = 0 ∨ index = 1 ∨ index = 2 ∨ index = 3 := by omega
    rcases bits with rfl | rfl | rfl | rfl
    all_goals
      rw [BitVec.getLsbD_setWidth, BitVec.getLsbD_setWidth]
      simp only [zero, one, two, three]
  · intro same
    have bit {index : Nat} (inside : index < 4) : first.getLsbD index = second.getLsbD index := by
      have both := congrArg (·.getLsbD index) same
      simpa only [BitVec.getLsbD_setWidth, inside, decide_true, Bool.true_and] using both
    unfold osdsysArgv
    rw [@bit 0 (by decide), @bit 1 (by decide), @bit 2 (by decide), @bit 3 (by decide)]

theorem osdsysArgv_low (value : U32) : osdsysArgv ((value.setWidth 8).setWidth 32) = osdsysArgv value := by
  rw [osdsysArgv_eq_iff, BitVec.setWidth_setWidth_of_le _ (by decide), BitVec.setWidth_setWidth_of_le _ (by decide)]

/-- What is known of each launch: after the options were opened the arguments are
the stored ones, before that they are what happened to be in memory. -/
def Recorded (found : U32) (initial : U8) : List Event → Prop
  | [] => True
  | .loadElf elf argv stored :: before =>
    (elf.TakesOptions →
      if .pushed .options ∈ before then argv = osdsysArgv (stored.setWidth 32)
      else argv = osdsysArgv found ∧ stored = initial) ∧ Recorded found initial before
  | _ :: before => Recorded found initial before

/-- The copy of the options in RAM, which was `found` there, and the stored ones. -/
structure Linked (found : U32) (initial : U8) (core : Core) : Prop where
  unopened : .pushed .options ∉ core.events → core.osdsys = found ∧ core.stored = initial ∧ core.optionsOpen = false
  closed : .pushed .options ∈ core.events → core.optionsOpen = false →
    osdsysArgv core.osdsys = osdsysArgv (core.stored.setWidth 32)
  opened : core.optionsOpen = true → core.settings = core.stored.setWidth 32
  recorded : Recorded found initial core.events

variable {found : U32} {initial : U8} {menu next : Program} {input : Input}

theorem Linked.ever {core : Core} (linked : Linked found initial core) (opened : core.optionsOpen = true) :
    .pushed .options ∈ core.events := by
  by_cases ever : .pushed .options ∈ core.events
  · exact ever
  · rw [(linked.unopened ever).2.2] at opened
    cases opened

theorem Linked.change {after : Core} (linked : Linked found initial menu.core)
    (succeed : ∀ outcomes ∈ input.outcomes, outcomes.SettingsSucceed) (change : Change menu input after) :
    Linked found initial after := by
  cases change with
  | quiet => exact linked
  | hilited moved => exact ⟨linked.unopened, linked.closed, linked.opened, linked.recorded⟩
  | launched closed argued =>
    refine ⟨?_, ?_, linked.opened, ?_, linked.recorded⟩
    · intro never
      exact linked.unopened fun ever => never (List.mem_cons_of_mem _ ever)
    · intro ever _
      rcases List.mem_cons.mp ever with same | ever
      · cases same
      · exact linked.closed ever closed
    · intro takes
      rw [argued takes]
      split
      next ever => exact linked.closed ever closed
      next never =>
        obtain ⟨copy, stored, _⟩ := linked.unopened never
        exact ⟨congrArg osdsysArgv copy, stored⟩
  | rescueFound | rescueLost | rescueAbsent =>
    refine ⟨?_, ?_, linked.opened, linked.recorded⟩
    · intro never
      exact linked.unopened fun ever => never (List.mem_cons_of_mem _ ever)
    · intro ever closed
      rcases List.mem_cons.mp ever with same | ever
      · cases same
      · exact linked.closed ever closed
  | opened closed read =>
    refine ⟨?_, ?_, fun _ => read succeed, linked.recorded⟩
    · intro never
      exact False.elim (never List.mem_cons_self)
    · intro _ closed
      cases closed
  | toggled opened =>
    refine ⟨?_, ?_, linked.opened, linked.recorded⟩
    · intro never
      exact False.elim (never (linked.ever opened))
    · intro _ closed
      rw [opened] at closed
      cases closed
  | closed opened saved =>
    refine ⟨?_, ?_, ?_, linked.recorded⟩
    · intro never
      exact False.elim (never (linked.ever opened))
    · intro _ _
      show osdsysArgv menu.core.osdsys = osdsysArgv _
      rw [saved succeed]
      split
      next changed => exact (osdsysArgv_low _).symm
      next unchanged =>
        rw [← Decidable.of_not_not unchanged, linked.opened opened]
    · intro again
      cases again

theorem Linked.replenish {core : Core} (linked : Linked found initial core) (bootList : ListState)
    (bootListAttr : List U32) : Linked found initial { core with bootList, bootListAttr } :=
  ⟨linked.unopened, linked.closed, linked.opened, linked.recorded⟩

theorem Linked.shown (linked : Linked found initial menu.core) (outcomes : Outcomes) :
    Linked found initial (menu.sceneSwitchToBootList outcomes).core := by
  obtain ⟨hiliteIdx, core, _⟩ := @sceneSwitchToBootList_core menu outcomes
  rw [core]
  exact linked.replenish _ _

theorem Linked.wait (linked : Linked found initial menu.core) (waiting : menu.Waiting)
    (stepped : menu.step input = some next) : Linked found initial next.core := by
  rcases step_waiting_core waiting stepped with same | ⟨before, outcomes, same, rfl⟩
  · rw [same]
    exact linked
  · rw [← same] at linked
    exact linked.shown outcomes

theorem run_linked {inputs : List Input} (known : menu.Waiting ∨ menu.shell.Disciplined)
    (linked : Linked found initial menu.core)
    (succeed : ∀ input ∈ inputs, ∀ outcomes ∈ input.outcomes, outcomes.SettingsSucceed)
    (reached : menu.run inputs = some next) : Linked found initial next.core := by
  induction inputs generalizing menu with
  | nil =>
    cases reached
    exact linked
  | cons input rest ih =>
    obtain ⟨middle, stepped, reached⟩ := Option.bind_eq_some_iff.mp reached
    have succeeds := succeed input List.mem_cons_self
    have later := fun input listed => succeed input (List.mem_cons_of_mem _ listed)
    rcases known with waiting | known
    · exact ih (step_waiting waiting stepped) (linked.wait waiting stepped) later reached
    · exact ih (.inr (step_disciplined known stepped)) (linked.change succeeds (step_change known stepped)) later reached

theorem main_linked (malloc : State) (stored : SettingsState) (outcomes : Outcomes) :
    Linked malloc.osdsys (settingsGetMenuOsdsysOptions stored) (main malloc stored outcomes).core := by
  have read : Linked malloc.osdsys (settingsGetMenuOsdsysOptions stored)
      ((powerUp malloc stored).autobootReadSettings outcomes).core := by
    rw [autobootReadSettings_core]
    refine ⟨fun _ => ⟨rfl, rfl, rfl⟩, fun ever _ => ?_, fun opened => ?_, trivial⟩
    · cases ever
    · cases opened
  unfold main
  dsimp only
  split
  · exact read.shown outcomes
  · exact ⟨read.unopened, read.closed, read.opened, read.recorded⟩

theorem follows_filter (events : List Event) : Follows (events.filter Event.matters) ↔ Follows events := by
  constructor
  · intro follows elf argv stored launched
    exact follows elf argv stored (List.mem_filter.mpr ⟨launched, rfl⟩)
  · intro follows elf argv stored launched
    exact follows elf argv stored (List.mem_filter.mp launched).1

theorem optionsFirst_filter (events : List Event) : OptionsFirst (events.filter Event.matters) ↔ OptionsFirst events := by
  induction events with
  | nil => exact Iff.rfl
  | cons event before ih =>
    cases event with
    | loadElf elf argv stored =>
      have opened : .pushed .options ∈ before.filter Event.matters ↔ .pushed .options ∈ before :=
        List.mem_filter.trans (and_iff_left rfl)
      show (_ → .pushed .options ∈ before.filter Event.matters) ∧ OptionsFirst (before.filter Event.matters) ↔ _
      rw [opened, ih]
      exact Iff.rfl
    | rescueElf found => exact ih
    | popped running scenes => exact ih
    | disableNextOsdsysHook => exact ih
    | pushed scene =>
      rw [List.filter_cons]
      split
      · exact ih
      · exact ih

theorem Recorded.optionsFirst {events : List Event} (recorded : Recorded found initial events)
    (follows : Follows events) (differ : osdsysArgv found ≠ osdsysArgv (initial.setWidth 32)) : OptionsFirst events := by
  induction events with
  | nil => trivial
  | cons event before ih =>
    have earlier : Follows before := fun elf argv stored launched =>
      follows elf argv stored (List.mem_cons_of_mem _ launched)
    cases event with
    | loadElf elf argv stored =>
      refine ⟨?_, ih recorded.2 earlier⟩
      intro takes
      have known := recorded.1 takes
      split at known
      · assumption
      · obtain ⟨rfl, rfl⟩ := known
        exact False.elim (differ (follows elf _ stored List.mem_cons_self takes))
    | _ => exact ih recorded earlier

theorem Recorded.follows {events : List Event} (recorded : Recorded found initial events)
    (fine : osdsysArgv found = osdsysArgv (initial.setWidth 32) ∨ OptionsFirst events) : Follows events := by
  induction events with
  | nil => exact fun _ _ _ launched => by cases launched
  | cons event before ih =>
    intro elf argv stored launched takes
    cases event with
    | loadElf elf' argv' stored' =>
      rcases List.mem_cons.mp launched with now | earlier
      · cases now
        have known := recorded.1 takes
        split at known
        · exact known
        next never =>
          obtain ⟨rfl, rfl⟩ := known
          exact fine.resolve_right fun first => never (first.1 takes)
      · exact ih recorded.2 (fine.imp_right And.right) elf argv stored earlier takes
    | _ =>
      rcases List.mem_cons.mp launched with now | earlier
      · cases now
      · exact ih recorded fine elf argv stored earlier takes

theorem Recorded.follows_iff {events : List Event} (recorded : Recorded found initial events) :
    Follows events ↔ osdsysArgv found = osdsysArgv (initial.setWidth 32) ∨ OptionsFirst events := by
  constructor
  · intro follows
    by_cases same : osdsysArgv found = osdsysArgv (initial.setWidth 32)
    · exact .inl same
    · exact .inr (recorded.optionsFirst follows same)
  · exact recorded.follows

/-- When all settings commands succeed, the options that are given are the stored
ones just if the memory already held them, or the options are opened before. -/
theorem osdsys_options_iff (malloc : State) (stored : SettingsState) (outcomes : Outcomes) (inputs : List Input)
    (menu : Program)
    (succeed : ∀ input ∈ inputs, ∀ outcomes ∈ input.outcomes, outcomes.SettingsSucceed)
    (reached : (main malloc stored outcomes).run inputs = some menu) :
    Follows menu.events ↔
      malloc.osdsys.setWidth 4 = (settingsGetMenuOsdsysOptions stored).setWidth 4 ∨ OptionsFirst menu.events := by
  have linked := run_linked (main_disciplined malloc stored outcomes) (main_linked malloc stored outcomes) succeed reached
  have launches : Follows menu.core.events ↔ _ := linked.recorded.follows_iff
  rw [osdsysArgv_eq_iff, BitVec.setWidth_setWidth_of_le _ (by decide)] at launches
  exact (follows_filter _).symm.trans (launches.trans (or_congr Iff.rfl (optionsFirst_filter _)))

theorem plain_succeeds : Outcomes.plain.SettingsSucceed := ⟨fun _ => rfl, fun _ => rfl⟩

/-- The options are opened and closed, then OSDSYS is launched. -/
theorem osdsys_options_iff_visited :
    ∃ menu, (main (.filled 0xF) untouched Outcomes.plain).run
        [.input Outcomes.plain { triangle := true }, .input Outcomes.plain { circle := true },
          .input Outcomes.plain { cross := true }] = some menu ∧
      Follows menu.events := by
  refine ⟨_, by with_unfolding_all rfl, (osdsys_options_iff (.filled 0xF) untouched Outcomes.plain
    [.input Outcomes.plain { triangle := true }, .input Outcomes.plain { circle := true },
      .input Outcomes.plain { cross := true }] _ ?_ (by with_unfolding_all rfl)).mpr (.inr ?_)⟩
  · intro input listed outcomes known
    simp only [List.mem_cons, List.not_mem_nil, or_false] at listed
    rcases listed with rfl | rfl | rfl <;> cases known <;> exact plain_succeeds
  · with_unfolding_all exact ⟨fun _ => .tail _ (.tail _ (.head _)), trivial⟩

/-- The memory holds other options, and OSDSYS is launched at once. -/
theorem osdsys_options_unset : ¬ ∀ (malloc : State) (stored : SettingsState) (outcomes : Outcomes) (inputs : List Input)
    (menu : Program), outcomes.SettingsSucceed →
      (∀ input ∈ inputs, ∀ outcomes ∈ input.outcomes, outcomes.SettingsSucceed) →
      (main malloc stored outcomes).run inputs = some menu → Follows menu.events := by
  intro claim
  have follows := claim (.filled 0xF) untouched Outcomes.plain [.input Outcomes.plain { cross := true }] _ plain_succeeds
    (fun input listed outcomes known => by
      cases List.mem_singleton.mp listed
      cases known
      exact plain_succeeds) (by with_unfolding_all rfl)
  have launched := follows .osdsys ["BootClock", "BootBrowser", "SkipMc", "SkipHdd"] 0 ?_ trivial
  · cases launched
  · with_unfolding_all exact List.mem_cons_self

end Program

end Fruitchip.Menu
