import Fruitchip.Proofs.SettingsPlace

/-! Sessions in which power can be lost at any command to the flash chip, while a
call is carried out or while the firmware starts. -/

namespace Fruitchip.Firmware
open Embedded Client WearLeveling

/-- The console is off, or on and the firmware runs. -/
inductive Supply where
  | off (flash : Flash)
  | on (firmware : FirmwareState)

def Supply.flash : Supply → Flash
  | .off flash => flash
  | .on firmware => firmware.world.flash

/-- A call or a start, to its end or until power is lost. -/
inductive PowerStep where
  | call (call : Call)
  | callCut (call : Call) (steps : Nat)
  | powerOn
  | powerOnCut (steps : Nat)

/-- `none` is the panic of `settings_init`. Calls to a console that is off are not heard. -/
def PowerStep.run (config : Config) : Supply → PowerStep → Option Supply
  | .on firmware, .call made => some (.on ((machine config).run firmware made.poked).1)
  | .on firmware, .callCut made steps =>
    some (.off (interrupt (flashOps ((machine config).run firmware made.poked).2) steps firmware.world.flash))
  | .off flash, .call _ | .off flash, .callCut _ _ => some (.off flash)
  | supply, .powerOn => (Firmware.powerOn supply.flash).map .on
  | supply, .powerOnCut steps =>
    (settingsInit supply.flash).map fun (_, ops) => .off (interrupt ops steps supply.flash)

def runPower (config : Config) : Supply → List PowerStep → Option Supply
  | supply, [] => some supply
  | supply, step :: rest => (step.run config supply).bind (runPower config · rest)

/-- A sector call that is accepted names sectors inside its partition. -/
def SectorsInside (config : Config) (call : Call) : Prop :=
  ∀ world, FrameInside config world (callCmd call) (callArgs call)

def PowerStep.Inside (config : Config) : PowerStep → Prop
  | .call made | .callCut made _ => SectorsInside config made
  | .powerOn | .powerOnCut _ => True

/-- What the next start finds when a call is cut. -/
def CutOutcome (settings : Settings) (performed : List FlashOp) (found : Settings) : Call → Prop
  | .settingsSet key value =>
    found = settings ∨ key < modchipSettingsKeysTotal ∧ (kvSetter key value).Outcome settings performed found
  | _ => found = settings

variable {config : Config} {firmware : FirmwareState} {world : World} {flash after : Flash} {log : Log} {call : Call} {step : PowerStep}
  {supply : Supply}

theorem settings_apart {partitionIdx : U8} {address : Nat} (settings : InSettings address) :
    ¬ InPartition config partitionIdx address := by
  obtain ⟨start, stop⟩ := settings
  rintro ⟨base, size, bounds, low, high⟩
  have update : updatePartitionOffset + updatePartitionSizeBytes ≤ settingsPartitionOffset := by decide
  have apps : settingsPartitionOffset + wearLevelingBackingSize ≤ appsPartitionOffset := by decide
  rw [partitionBounds] at bounds
  split at bounds
  · cases bounds
    omega
  · split at bounds
    · cases bounds
      omega
    · cases bounds

theorem settings_kept (same : ∀ address, InSettings address → after address = flash address) :
    ∀ other < wearLevelingBackingSize,
      after (settingsPartitionOffset + other) = flash (settingsPartitionOffset + other) :=
  fun _ below => same _ ⟨Nat.le_add_right _ _, Nat.add_lt_add_left below _⟩

theorem durable_replays {state : SettingsState} (durable : SettingsDurable flash state) :
    ∃ log, Replays flash log ∧ restored log = state.settings := by
  obtain ⟨log, synced, contents⟩ := durable.settled.logged
  refine ⟨log, synced.replays, ?_⟩
  rw [restored, contents, durable.image, if_pos durable.version]

theorem restored_durable {state : SettingsState} (durable : SettingsDurable flash state) (replays : Replays flash log) :
    restored log = state.settings := by
  rw [restored, (replays.synced durable.settled).2, durable.image, if_pos durable.version]

theorem durable_congr {state : SettingsState} (durable : SettingsDurable flash state)
    (same : ∀ address, InSettings address → after address = flash address) : SettingsDurable after state := by
  obtain ⟨settled, image, version⟩ := durable
  obtain ⟨length, log, synced, contents⟩ := settled
  have kept := synced.replays.congr (settings_kept same)
  exact ⟨⟨length, log, ⟨kept.toRepresents, synced.position, synced.room⟩, contents⟩, image, version⟩

theorem call_apart (other : callCmd call ≠ .kvSet) (inside : SectorsInside config call) (world : World) :
    ∀ op ∈ flashOps (runCall config call world).2, ∀ address, InSettings address → ¬ op.covers address := by
  rw [← execute_call]
  exact execute_apart other (inside _) fun address settings => settings_apart settings

theorem call_flash (call : Call) (world : World) :
    (runCall config call world).1.flash = applyAll (flashOps (runCall config call world).2) world.flash := by
  rw [← execute_call]
  exact execute_flash _ _ _

theorem callCmd_kvSet (set : callCmd call = .kvSet) : ∃ key value, call = .settingsSet key value := by
  cases call with
  | settingsSet key value => exact ⟨key, value, rfl⟩
  | _ => cases set

theorem runCall_durable (durable : SettingsDurable world.flash world.settings) (inside : SectorsInside config call) :
    SettingsDurable (runCall config call world).1.flash (runCall config call world).1.settings := by
  by_cases set : callCmd call = .kvSet
  · obtain ⟨key, value, rfl⟩ := callCmd_kvSet set
    exact runCall_kvSet_durable durable key value
  · have same : (runCall config call world).1.settings = world.settings := by
      rw [← execute_call]
      exact execute_settings set _ _
    rw [same]
    refine durable_congr durable fun address settings => ?_
    rw [call_flash]
    exact applyAll_outside fun op member => call_apart set inside _ op member address settings

theorem runCall_kvSet_ops (key : U16) (value : U32) (world : World) :
    let result := runCall config (.settingsSet key value) world
    flashOps result.2 = [] ∧ result.1 = world ∨
      key < modchipSettingsKeysTotal ∧ flashOps result.2 = ((kvSetter key value).run world.settings).2 ∧
        result.1.flash = applyAll ((kvSetter key value).run world.settings).2 world.flash := by
  intro result
  rcases kvSetBody_ops ⟨key, key ^^^ 0xFFFF, value, value ^^^ 0xFFFFFFFF⟩ world with refused | ⟨valid, ops, stored⟩
  · exact .inl refused
  · refine .inr ⟨valid, ops, ?_⟩
    show (kvSetBody _ world).1.flash = _
    rw [stored]

theorem runCall_cut (durable : SettingsDurable world.flash world.settings) (inside : SectorsInside config call) :
    CutAnywhere (flashOps (runCall config call world).2) (fun _ after => ∃ log, Replays after log) world.flash := by
  obtain ⟨log, replays, _⟩ := durable_replays durable
  by_cases set : callCmd call = .kvSet
  · obtain ⟨key, value, rfl⟩ := callCmd_kvSet set
    rcases @runCall_kvSet_ops config key value world with ⟨ops, _⟩ | ⟨_, ops, _⟩
    · rw [ops]
      exact cutAnywhere_nil.mpr ⟨log, replays⟩
    · rw [ops]
      exact (kvSetter key value).run_cut_replays durable replays
  · refine Cuts.weaken (cutAnywhere_outside (call_apart set inside _)) fun _ after same => ?_
    exact ⟨log, replays.congr (settings_kept same)⟩

/-- Behind a tidy log a cut call is lost, done, or ends in the defaults. -/
theorem runCall_cut_outcome (durable : SettingsDurable world.flash world.settings) (inside : SectorsInside config call)
    (replays : Replays world.flash log) (coherent : Coherent log) :
    CutAnywhere (flashOps (runCall config call world).2) (fun performed after => ∃ log, Replays after log ∧ Coherent log ∧
      CutOutcome world.settings.settings performed (restored log) call) world.flash := by
  have old := restored_durable durable replays
  by_cases set : callCmd call = .kvSet
  · obtain ⟨key, value, rfl⟩ := callCmd_kvSet set
    rcases @runCall_kvSet_ops config key value world with ⟨ops, _⟩ | ⟨valid, ops, _⟩
    · rw [ops]
      exact cutAnywhere_nil.mpr ⟨log, replays, coherent, .inl old⟩
    · rw [ops]
      refine Cuts.weaken ((kvSetter key value).run_cut durable replays coherent) ?_
      rintro performed after ⟨log, replays, coherent, outcome⟩
      exact ⟨log, replays, coherent, .inr ⟨valid, outcome⟩⟩
  · refine Cuts.weaken (cutAnywhere_outside (call_apart set inside _)) fun performed after same => ?_
    refine ⟨log, replays.congr (settings_kept same), coherent, ?_⟩
    cases call with
    | settingsSet key value => exact absurd rfl set
    | _ => exact old

theorem runCall_tidy (durable : SettingsDurable world.flash world.settings) (inside : SectorsInside config call)
    (replays : Replays world.flash log) (coherent : Coherent log) :
    ∃ log, Replays (runCall config call world).1.flash log ∧ Coherent log := by
  by_cases set : callCmd call = .kvSet
  · obtain ⟨key, value, rfl⟩ := callCmd_kvSet set
    rcases @runCall_kvSet_ops config key value world with ⟨_, same⟩ | ⟨_, _, stored⟩
    · rw [same]
      exact ⟨log, replays, coherent⟩
    · rw [stored]
      exact (kvSetter key value).run_tidy durable replays coherent
  · refine ⟨log, replays.congr (settings_kept fun address settings => ?_), coherent⟩
    rw [call_flash]
    exact applyAll_outside fun op member => call_apart set inside _ op member address settings

theorem powerOn_replays (replays : Replays flash log) :
    ∃ next, Firmware.powerOn flash = some next ∧ Ready next ∧ next.world.settings.settings = restored log ∧
      (Coherent log → ∃ log, Replays next.world.flash log ∧ Coherent log) := by
  obtain ⟨state, ops, found, durable, settings, _, coherent⟩ := settingsInit_cut replays
  refine ⟨.powerUp (applyAll ops flash) state, ?_, ⟨rfl, durable⟩, settings, coherent⟩
  rw [Firmware.powerOn, found]
  rfl

/-- What every step keeps: a log in flash, and RAM in step with it while the console is on. -/
def Sound : Supply → Prop
  | .off flash => ∃ log, Replays flash log
  | .on firmware => Ready firmware

/-- The log holds no half of a reset. -/
def Tidy (supply : Supply) : Prop := ∃ log, Replays supply.flash log ∧ Coherent log

theorem Sound.replays (sound : Sound supply) : ∃ log, Replays supply.flash log := by
  cases supply with
  | off flash => exact sound
  | on firmware =>
    obtain ⟨log, replays, _⟩ := durable_replays sound.durable
    exact ⟨log, replays⟩

theorem PowerStep.run_sound (sound : Sound supply) (inside : step.Inside config) :
    ∃ next, step.run config supply = some next ∧ Sound next := by
  obtain ⟨log, replays⟩ := sound.replays
  cases step with
  | call made =>
    cases supply with
    | off flash => exact ⟨_, rfl, sound⟩
    | on firmware =>
      obtain ⟨idle, world, _⟩ := run_call config sound.idle made
      refine ⟨_, rfl, idle, ?_⟩
      rw [world]
      exact runCall_durable sound.durable inside
  | callCut made steps =>
    cases supply with
    | off flash => exact ⟨_, rfl, sound⟩
    | on firmware =>
      refine ⟨_, rfl, ?_⟩
      rw [(run_call config sound.idle made).2.2]
      exact (runCall_cut sound.durable inside).interrupted steps
  | powerOn =>
    obtain ⟨next, started, ready, _⟩ := powerOn_replays replays
    refine ⟨.on next, ?_, ready⟩
    cases supply <;> exact congrArg (Option.map Supply.on) started
  | powerOnCut steps =>
    obtain ⟨state, ops, found, _, _, cut, _⟩ := settingsInit_cut replays
    refine ⟨.off (interrupt ops steps supply.flash), ?_, cut.interrupted steps⟩
    cases supply <;> exact congrArg (Option.map _) found

theorem PowerStep.run_tidy {next : Supply} (sound : Sound supply) (tidy : Tidy supply) (inside : step.Inside config)
    (started : ∀ steps, step ≠ .powerOnCut steps) (ran : step.run config supply = some next) : Tidy next := by
  obtain ⟨log, replays, coherent⟩ := tidy
  cases step with
  | call made =>
    cases supply with
    | off flash =>
      cases ran
      exact ⟨log, replays, coherent⟩
    | on firmware =>
      cases ran
      rw [Tidy, Supply.flash, (run_call config sound.idle made).2.1]
      exact runCall_tidy sound.durable inside replays coherent
  | callCut made steps =>
    cases supply with
    | off flash =>
      cases ran
      exact ⟨log, replays, coherent⟩
    | on firmware =>
      cases ran
      rw [(run_call config sound.idle made).2.2]
      obtain ⟨log, replays, coherent, _⟩ := (runCall_cut_outcome sound.durable inside replays coherent).interrupted steps
      exact ⟨log, replays, coherent⟩
  | powerOn =>
    obtain ⟨other, powered, _, _, kept⟩ := powerOn_replays replays
    have same : some (Supply.on other) = some next := by
      rw [← ran]
      cases supply <;> exact (congrArg (Option.map Supply.on) powered).symm
    cases same
    exact kept coherent
  | powerOnCut steps => exact absurd rfl (started steps)

theorem runPower_sound {steps : List PowerStep} (sound : Sound supply) (inside : ∀ step ∈ steps, step.Inside config) :
    ∃ last, runPower config supply steps = some last ∧ Sound last ∧
      (Tidy supply → (∀ step ∈ steps, ∀ cut, step ≠ .powerOnCut cut) → Tidy last) := by
  induction steps generalizing supply with
  | nil => exact ⟨supply, rfl, sound, fun tidy _ => tidy⟩
  | cons step steps ih =>
    obtain ⟨next, ran, nextSound⟩ := PowerStep.run_sound sound (inside step List.mem_cons_self)
    obtain ⟨last, finished, lastSound, kept⟩ := ih nextSound fun other member => inside other (List.mem_cons_of_mem _ member)
    refine ⟨last, by rw [runPower, ran]; exact finished, lastSound, fun tidy started => ?_⟩
    refine kept ?_ fun other member => started other (List.mem_cons_of_mem _ member)
    exact PowerStep.run_tidy sound tidy (inside step List.mem_cons_self) (started step List.mem_cons_self) ran

theorem off_erased (erased : ∀ address < settingsPartitionSizeBytes, flash (settingsPartitionOffset + address) = 0xFF) :
    Sound (.off flash) ∧ Tidy (.off flash) := by
  have replays : Replays flash (.checkpoint clearCache.cache) := .checkpoint (represents_erased erased)
  exact ⟨⟨_, replays⟩, _, replays, coherent_checkpoint _⟩

/-- In any session, wherever power is lost in calls and starts, the firmware comes
up the next time, and a console that was on answers every key as before. -/
theorem settings_survive_power_cuts (config : Config) {flash : Flash}
    (erased : ∀ address < settingsPartitionSizeBytes, flash (settingsPartitionOffset + address) = 0xFF)
    {steps : List PowerStep} (inside : ∀ step ∈ steps, step.Inside config) :
    ∃ last next, runPower config (.off flash) steps = some last ∧ Firmware.powerOn last.flash = some next ∧
      ∀ key < modchipSettingsKeysTotal, ∃ value, kvGet config next key = kvAnswer value ∧
        ∀ firmware, last = .on firmware → kvGet config firmware key = kvAnswer value := by
  obtain ⟨last, ran, sound, _⟩ := runPower_sound (off_erased erased).1 inside
  obtain ⟨log, replays⟩ := sound.replays
  obtain ⟨next, started, ready, settings, _⟩ := powerOn_replays replays
  refine ⟨last, next, ran, started, fun key valid => ⟨_, kvGet_valid ready.idle valid, ?_⟩⟩
  rintro firmware rfl
  have on : Ready firmware := sound
  rw [kvGet_valid on.idle valid]
  have same : kvGetResponse firmware.world.settings key = kvGetResponse next.world.settings key := by
    simp only [kvGetResponse, settingsGetMenuAutoboot, settingsGetMenuAutobootDelaySec, settingsGetMenuAutobootItemIdx,
      settingsGetMenuOsdsysOptions, settings, restored_durable on.durable replays]
  rw [same]

theorem settings_survive_power_cuts_blank :
    ∃ last next, runPower default (.off fun _ => 0xFF)
        [.powerOn, .call (.settingsSet 1 30), .callCut (.settingsSet 0 0) 1, .powerOnCut 2, .powerOn] = some last ∧
      Firmware.powerOn last.flash = some next ∧
      ∀ key < modchipSettingsKeysTotal, ∃ value, kvGet default next key = kvAnswer value ∧
        ∀ firmware, last = .on firmware → kvGet default firmware key = kvAnswer value :=
  settings_survive_power_cuts default (fun _ _ => rfl) (by simp [PowerStep.Inside, SectorsInside, FrameInside, callCmd])

/-- A call that is cut changes the setting it is about and no other one, unless an
erase was begun: then all of them can be the defaults. -/
theorem cut_call_old_or_new (config : Config) {flash : Flash}
    (erased : ∀ address < settingsPartitionSizeBytes, flash (settingsPartitionOffset + address) = 0xFF)
    {steps : List PowerStep} (inside : ∀ step ∈ steps, step.Inside config)
    (started : ∀ step ∈ steps, ∀ cut, step ≠ .powerOnCut cut) {firmware : FirmwareState}
    (ran : runPower config (.off flash) steps = some (.on firmware)) {call : Call} (sectors : SectorsInside config call)
    (cut : Nat) :
    ∃ off next, PowerStep.run config (.on firmware) (.callCut call cut) = some (.off off) ∧
      Firmware.powerOn off = some next ∧
      CutOutcome firmware.world.settings.settings
        (((flashOps ((machine config).run firmware call.poked).2).flatMap FlashOp.pieces).take cut)
        next.world.settings.settings call := by
  obtain ⟨erasedSound, erasedTidy⟩ := off_erased erased
  obtain ⟨last, found, sound, tidy⟩ := runPower_sound erasedSound inside
  rw [ran] at found
  cases found
  obtain ⟨log, replays, coherent⟩ := tidy erasedTidy started
  have ready : Ready firmware := sound
  obtain ⟨left, leftReplays, _, outcome⟩ := (runCall_cut_outcome ready.durable sectors replays coherent).interrupted cut
  obtain ⟨next, powered, _, settings, _⟩ := powerOn_replays leftReplays
  rw [PowerStep.run, (run_call config ready.idle call).2.2]
  refine ⟨_, next, rfl, powered, ?_⟩
  rw [settings]
  exact outcome

theorem cut_call_old_or_new_blank :
    ∃ firmware, runPower default (.off fun _ => 0xFF) [.powerOn] = some (.on firmware) ∧
      ∃ off next, PowerStep.run default (.on firmware) (.callCut (.settingsSet 1 30) 1) = some (.off off) ∧
        Firmware.powerOn off = some next ∧
        CutOutcome firmware.world.settings.settings
          (((flashOps ((machine default).run firmware (Call.settingsSet 1 30).poked).2).flatMap FlashOp.pieces).take 1)
          next.world.settings.settings (.settingsSet 1 30) := by
  obtain ⟨log, replays⟩ := (@off_erased (fun _ => 0xFF) fun _ _ => rfl).1.replays
  obtain ⟨firmware, powered, _⟩ := powerOn_replays replays
  have ran : runPower default (.off fun _ => 0xFF) [.powerOn] = some (.on firmware) :=
    congrArg (fun found => (found.map Supply.on).bind some) powered
  have sectors : SectorsInside default (.settingsSet 1 30) := fun _ => trivial
  refine ⟨firmware, ran, cut_call_old_or_new default (fun _ _ => rfl) (fun step member => ?_) ?_ ran sectors 1⟩
  · cases List.mem_singleton.mp member
    trivial
  · intro step member cut
    cases List.mem_singleton.mp member
    nofun

end Fruitchip.Firmware
