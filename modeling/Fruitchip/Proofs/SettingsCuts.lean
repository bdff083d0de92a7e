import Fruitchip.Proofs.FlashEffects
import Fruitchip.Proofs.SettingsDurability
import Fruitchip.Proofs.WearLevelingCuts

/-! Settings over power cuts. Wherever power is lost, in KV_SET or in
`settings_init`, the settings come up again. A cut KV_SET leaves the old value or
the new one, or the defaults if it was cut behind an erase. -/

namespace Fruitchip
open Embedded WearLeveling

variable {flash after : Flash} {log : Log} {cache first second : List U8} {address : Nat} {bytes p : List U8}

theorem Settings.ofBytes_front (same : first.take Settings.size = second.take Settings.size) :
    Settings.ofBytes first = Settings.ofBytes second := by
  rw [← Settings.ofBytes_take, same, Settings.ofBytes_take]

namespace WearLeveling

theorem take_memcpy {count : Nat} (inside : address + bytes.length ≤ count) (fits : count ≤ cache.length) :
    (memcpy cache address bytes).take count = memcpy (cache.take count) address bytes := by
  have before : (cache.take address).length = address := List.length_take_of_le (by omega)
  rw [memcpy, memcpy, List.append_assoc, List.append_assoc, List.take_append, before, List.take_append,
    List.take_of_length_le (show (cache.take address).length ≤ count by omega),
    List.take_of_length_le (show bytes.length ≤ count - address by omega), List.take_take,
    Nat.min_eq_left (by omega), List.drop_take, Nat.sub_sub]

theorem take_memcpy_before {count : Nat} (before : count ≤ address) (fits : address ≤ cache.length) :
    (memcpy cache address bytes).take count = cache.take count := by
  rw [memcpy, List.append_assoc, List.take_append_of_le_length (by rw [List.length_take]; omega), List.take_take,
    Nat.min_eq_left before]

def unfounded (entries : List Entry) : List U8 := entries.foldl Entry.update blank

theorem foldl_update_length (entries : List Entry) (cache : List U8) :
    (entries.foldl Entry.update cache).length = cache.length := by
  induction entries generalizing cache with
  | nil => rfl
  | cons entry entries ih => rw [List.foldl_cons, ih, Entry.update_length]

theorem unfounded_length (entries : List Entry) : (unfounded entries).length = logicalSize := by
  rw [unfounded, foldl_update_length, blank_length]

/-- Where the entries bring the version, they bring all settings. -/
def Coherent (log : Log) : Prop :=
  (unfounded log.entries).take 4 = bytes32 settingsVersionMagic →
    (unfounded log.entries).take Settings.size = (log.contents Entry.update).take Settings.size

theorem blank_version : ¬ blank.take 4 = bytes32 settingsVersionMagic := by
  rw [blank, clearCache, List.take_replicate]
  decide

theorem coherent_checkpoint (base : List U8) : Coherent (.checkpoint base) :=
  fun version => absurd version blank_version

theorem coherent_unfounded (entries : List Entry) : Coherent ⟨blank, entries⟩ := fun _ => rfl

theorem contents_stores {added : List Entry} (stores : Stores added address bytes)
    (length : (log.contents Entry.update).length = logicalSize) :
    Journal.contents Entry.update ⟨log.base, log.entries ++ added⟩ = memcpy (log.contents Entry.update) address bytes := by
  rw [Journal.contents, List.foldl_append]
  exact stores _ length

theorem unfounded_stores {added : List Entry} (stores : Stores added address bytes) (entries : List Entry) :
    unfounded (entries ++ added) = memcpy (unfounded entries) address bytes := by
  rw [unfounded, List.foldl_append]
  exact stores _ (unfounded_length entries)

theorem Coherent.stores {added : List Entry} (coherent : Coherent log) (stores : Stores added address bytes)
    (length : (log.contents Entry.update).length = logicalSize) (behind : 4 ≤ address)
    (inside : address + bytes.length ≤ Settings.size) : Coherent ⟨log.base, log.entries ++ added⟩ := by
  have size : Settings.size ≤ logicalSize := by decide
  have whole := unfounded_length log.entries
  intro version
  rw [unfounded_stores stores, take_memcpy_before behind (by omega)] at version
  rw [unfounded_stores stores, contents_stores stores length, take_memcpy inside (by omega),
    take_memcpy inside (by omega), coherent version]

theorem Left.tidy {performed : List FlashOp} (coherent : Coherent log) (represents : Represents flash log)
    (behind : 4 ≤ address) (inside : address + p.length ≤ Settings.size)
    (left : Left log cache address p performed after) : ∃ log, Replays after log ∧ Coherent log := by
  cases left with
  | @logged base added count stores kept replays =>
    refine ⟨_, replays, ?_⟩
    rcases kept with rfl | ⟨rfl, _⟩
    · refine coherent.stores stores represents.contents_length behind ?_
      rw [List.length_take]
      omega
    · exact coherent_unfounded _
  | rewritten erases replays front => exact ⟨_, replays, coherent_checkpoint _⟩

theorem Left.replayed {performed : List FlashOp} (left : Left log cache address p performed after) :
    ∃ log, Replays after log := by
  cases left with
  | logged count stores kept replays => exact ⟨_, replays⟩
  | rewritten erases replays front => exact ⟨_, replays⟩

theorem wearLevelingWrite_same {state : WearLeveling.State} (same : (state.cache.drop address).take p.length = p) :
    (wearLevelingWrite state address p).2.2 = [] := by
  rw [wearLevelingWrite, if_pos same]
  split <;> rfl

/-- A reset stores all of the defaults. -/
theorem Done.coherent (represents : Represents flash log) (done : Done log 0 Settings.defaults.toBytes after) :
    ∃ log, Replays after log ∧ Coherent log := by
  cases done with
  | logged stores replays =>
    refine ⟨_, replays, fun _ => ?_⟩
    have size : Settings.size ≤ logicalSize := by decide
    have fits : 0 + Settings.defaults.toBytes.length ≤ Settings.size := by decide
    have whole := unfounded_length log.entries
    have length := represents.contents_length
    have defaults (cache : List U8) : memcpy (cache.take Settings.size) 0 Settings.defaults.toBytes = Settings.defaults.toBytes := by
      rw [memcpy, List.take_zero, List.nil_append, List.drop_eq_nil_of_le, List.append_nil]
      rw [List.length_take]
      exact Nat.min_le_left _ _
    rw [unfounded_stores stores, contents_stores stores length, take_memcpy fits (by omega),
      take_memcpy fits (by omega), defaults, defaults]
  | rewritten replays => exact ⟨_, replays, coherent_checkpoint _⟩

end WearLeveling

def restored (log : Log) : Settings :=
  if (Settings.ofBytes (log.contents Entry.update)).versionMagic = settingsVersionMagic then
    Settings.ofBytes (log.contents Entry.update)
  else .defaults

theorem settingsReset_cut {wearLeveling : WearLeveling.State} (settled : Settled flash wearLeveling)
    (replays : Replays flash log)
    (other : (Settings.ofBytes wearLeveling.cache).versionMagic ≠ settingsVersionMagic) :
    ∃ state ops, settingsReset wearLeveling = some (state, ops) ∧ SettingsDurable (applyAll ops flash) state ∧
      state.settings = .defaults ∧ CutAnywhere ops (fun _ after => ∃ log, Replays after log) flash ∧
      ∃ log, Replays (applyAll ops flash) log ∧ Coherent log := by
  have small : 0 + Settings.defaults.toBytes.length ≤ 64 := by decide
  obtain ⟨cut, done⟩ := wearLevelingWrite_cut settled replays small
  obtain ⟨state, ops, reset, durable, defaults⟩ := settingsReset_durable settled
  have same : ops = (wearLevelingWrite wearLeveling 0 Settings.defaults.toBytes).2.2 := by
    simp only [settingsReset] at reset
    split at reset
    · cases reset
    · exact (Prod.mk.inj (Option.some.inj reset)).2.symm
  refine ⟨state, ops, reset, durable, defaults, ?_, ?_⟩
  · rw [same]
    exact Cuts.weaken cut fun performed after left => left.replayed
  · rw [same]
    rcases done with already | done
    · have front : wearLeveling.cache.take Settings.size = Settings.defaults.toBytes := already
      rw [← Settings.ofBytes_take, front, Settings.ofBytes_toBytes] at other
      exact absurd rfl other
    · exact done.coherent replays.toRepresents

/-- Whatever a power cut has left, the settings come up, and what was found is stored. -/
theorem settingsInit_cut (replays : Replays flash log) :
    ∃ state ops, settingsInit flash = some (state, ops) ∧ SettingsDurable (applyAll ops flash) state ∧
      state.settings = restored log ∧ CutAnywhere ops (fun _ after => ∃ log, Replays after log) flash ∧
      (Coherent log → ∃ log, Replays (applyAll ops flash) log ∧ Coherent log) := by
  obtain ⟨wearLeveling, status, ops, found, working, whole, cache, settled, still, cut⟩ := wearLevelingInit_cut replays
  have loaded : Settings.ofBytes (wearLevelingRead wearLeveling 0 Settings.size) =
      Settings.ofBytes (log.contents Entry.update) := by
    rw [wearLevelingRead, List.drop_zero, Settings.ofBytes_take, cache]
  simp only [settingsInit, found, if_neg working, settingsLoad, loaded, restored]
  by_cases version : (Settings.ofBytes (log.contents Entry.update)).versionMagic = settingsVersionMagic
  · rw [if_neg (not_not.mpr version), if_pos version]
    refine ⟨_, ops, rfl, ⟨settled, by rw [cache], version⟩, rfl, cut, fun coherent => ?_⟩
    rcases still with same | fresh
    · exact ⟨log, same, coherent⟩
    · exact ⟨_, fresh, coherent_checkpoint _⟩
  · rw [if_pos version, if_neg version]
    obtain ⟨now, replaysNow⟩ : ∃ log, Replays (applyAll ops flash) log := by
      rcases still with same | fresh
      · exact ⟨_, same⟩
      · exact ⟨_, fresh⟩
    obtain ⟨state, more, reset, durable, defaults, resetCut, coherent⟩ :=
      settingsReset_cut settled replaysNow (by rwa [cache])
    rw [reset]
    refine ⟨state, ops ++ more, rfl, ?_, defaults, ?_, fun _ => ?_⟩
    · rwa [applyAll_append]
    · exact (cutAnywhere_append whole).mpr ⟨cut, resetCut⟩
    · rwa [applyAll_append]

namespace Firmware

/-- Where a setter stores its field, and the bytes. -/
def Setter.field : Setter → Nat × List U8
  | .menuAutoboot value => (Settings.menuAutobootOffset, [boolByte value])
  | .menuAutobootDelaySec value => (Settings.menuAutobootDelaySecOffset, bytes16 value)
  | .menuAutobootItemIdx value => (Settings.menuAutobootItemIdxOffset, [value.setWidth 8])
  | .menuOsdsysOptions value => (Settings.menuOsdsysOptionsOffset, [value])

/-- What a setter makes of the settings, byte by byte. -/
def Setter.stages (settings : Settings) : Setter → List Settings
  | .menuAutoboot value => [settings, { settings with menuAutoboot := value }]
  | .menuAutobootDelaySec value => [settings,
    { settings with menuAutobootDelaySec := le16 (byteAt value 0) (byteAt settings.menuAutobootDelaySec 1) },
    { settings with menuAutobootDelaySec := value }]
  | .menuAutobootItemIdx value => [settings, { settings with menuAutobootItemIdx := value.setWidth 8 }]
  | .menuOsdsysOptions value => [settings, { settings with menuOsdsysOptions := value }]

variable {setter : Setter} {state : SettingsState}

theorem Setter.field_inside (setter : Setter) :
    4 ≤ setter.field.1 ∧ setter.field.1 + setter.field.2.length ≤ Settings.size := by
  cases setter <;> simp [field, Settings.size, Settings.menuAutobootOffset, Settings.menuAutobootDelaySecOffset,
    Settings.menuAutobootItemIdxOffset, Settings.menuOsdsysOptionsOffset]

theorem Setter.run_ops (setter : Setter) (state : SettingsState) :
    (setter.run state).2 = [] ∨
      (setter.run state).2 = (wearLevelingWrite state.wearLeveling setter.field.1 setter.field.2).2.2 := by
  cases setter with
  | menuAutoboot value =>
    simp only [Setter.run, settingsSetMenuAutoboot]
    split
    · exact .inl rfl
    · exact .inr rfl
  | menuAutobootDelaySec value =>
    simp only [Setter.run, settingsSetMenuAutobootDelaySec]
    split
    · exact .inl rfl
    · exact .inr rfl
  | menuAutobootItemIdx value =>
    simp only [Setter.run, settingsSetMenuAutobootItemIdx]
    split
    · exact .inl rfl
    · exact .inr rfl
  | menuOsdsysOptions value =>
    simp only [Setter.run, settingsSetMenuOsdsysOptions]
    split
    · exact .inl rfl
    · exact .inr rfl

theorem Setter.stages_old (settings : Settings) (setter : Setter) : settings ∈ setter.stages settings := by
  cases setter <;> exact List.mem_cons_self

theorem Setter.stages_version {settings stage : Settings} (member : stage ∈ setter.stages settings) :
    stage.versionMagic = settings.versionMagic := by
  cases setter with
  | menuAutobootDelaySec value =>
    simp only [stages, List.mem_cons, List.not_mem_nil, or_false] at member
    rcases member with rfl | rfl | rfl <;> rfl
  | menuAutoboot value | menuAutobootItemIdx value | menuOsdsysOptions value =>
    simp only [stages, List.mem_cons, List.not_mem_nil, or_false] at member
    rcases member with rfl | rfl <;> rfl

theorem Setter.stages_memcpy (setter : Setter) (fits : Settings.size ≤ cache.length) (count : Nat) :
    Settings.ofBytes (memcpy cache setter.field.1 (setter.field.2.take count)) ∈ setter.stages (Settings.ofBytes cache) := by
  have size : Settings.size = 12 := rfl
  cases count with
  | zero =>
    rw [List.take_zero, memcpy_nil]
    exact setter.stages_old _
  | succ count =>
    cases setter with
    | menuAutoboot value =>
      have inside : 4 + [boolByte value].length ≤ cache.length := by simp; omega
      rw [field, List.take_succ_cons, List.take_nil]
      refine List.mem_cons_of_mem _ (List.mem_singleton.mpr ?_)
      simp only [Settings.ofBytes, Settings.menuAutobootOffset, getD_memcpy _ inside, Settings.mk.injEq]
      refine ⟨rfl, ?_, rfl, rfl, rfl⟩
      cases value <;> rfl
    | menuAutobootDelaySec value =>
      cases count with
      | zero =>
        have inside : 6 + [byteAt value 0].length ≤ cache.length := by simp; omega
        refine List.mem_cons_of_mem _ (List.mem_cons.mpr (.inl ?_))
        rw [field, bytes16, List.take_succ_cons, List.take_zero]
        simp only [Settings.ofBytes, Settings.menuAutobootDelaySecOffset, getD_memcpy _ inside, Settings.mk.injEq,
          byteAt_le16_one]
        exact ⟨rfl, rfl, rfl, rfl, rfl⟩
      | succ count =>
        have inside : 6 + (bytes16 value).length ≤ cache.length := by simp; omega
        refine List.mem_cons_of_mem _ (List.mem_cons_of_mem _ (List.mem_singleton.mpr ?_))
        rw [field, List.take_of_length_le (by simp)]
        simp only [Settings.ofBytes, Settings.menuAutobootDelaySecOffset, getD_memcpy _ inside, Settings.mk.injEq]
        exact ⟨rfl, rfl, le16_byteAt value, rfl, rfl⟩
    | menuAutobootItemIdx value =>
      have inside : 8 + [value.setWidth 8].length ≤ cache.length := by simp; omega
      rw [field, List.take_succ_cons, List.take_nil]
      refine List.mem_cons_of_mem _ (List.mem_singleton.mpr ?_)
      simp only [Settings.ofBytes, Settings.menuAutobootItemIdxOffset, getD_memcpy _ inside]
      rfl
    | menuOsdsysOptions value =>
      have inside : 9 + [value].length ≤ cache.length := by simp; omega
      rw [field, List.take_succ_cons, List.take_nil]
      refine List.mem_cons_of_mem _ (List.mem_singleton.mpr ?_)
      simp only [Settings.ofBytes, Settings.menuOsdsysOptionsOffset, getD_memcpy _ inside]
      rfl

/-- A cut can leave the old settings or the new ones, or what is between them, or
the defaults. -/
def Setter.Outcome (setter : Setter) (settings : Settings) (performed : List FlashOp) (found : Settings) : Prop :=
  found ∈ setter.stages settings ∨ found = .defaults ∧ Erases performed

theorem Setter.restored_stage {stage : Settings} {log : Log} (version : state.settings.versionMagic = settingsVersionMagic)
    (member : stage ∈ setter.stages state.settings) (contents : Settings.ofBytes (log.contents Entry.update) = stage) :
    restored log ∈ setter.stages state.settings := by
  rw [restored, contents, if_pos ((stages_version member).trans version)]
  exact member

theorem version_front {cache : List U8} (fits : 4 ≤ cache.length) :
    (Settings.ofBytes cache).versionMagic = settingsVersionMagic → cache.take 4 = bytes32 settingsVersionMagic := by
  intro version
  match cache, fits with
  | b0 :: b1 :: b2 :: b3 :: rest, _ =>
    have word : le32 b0 b1 b2 b3 = settingsVersionMagic := version
    rw [← word, bytes32_le32]
    rfl

theorem Setter.run_cut (setter : Setter) (durable : SettingsDurable flash state) (replays : Replays flash log)
    (coherent : Coherent log) :
    CutAnywhere (setter.run state).2 (fun performed after =>
      ∃ log, Replays after log ∧ Coherent log ∧ setter.Outcome state.settings performed (restored log)) flash := by
  obtain ⟨synced, contents⟩ := replays.synced durable.settled
  have size : Settings.size ≤ logicalSize := by decide
  have length := durable.settled.length
  have image := durable.image
  obtain ⟨behind, inside⟩ := setter.field_inside
  have stage (count : Nat) : Settings.ofBytes (memcpy state.wearLeveling.cache setter.field.1 (setter.field.2.take count)) ∈
      setter.stages state.settings := by
    rw [← image]
    exact setter.stages_memcpy (by omega) count
  have old : restored log ∈ setter.stages state.settings :=
    setter.restored_stage durable.version (setter.stages_old _) (by rw [contents, image])
  rcases setter.run_ops state with nothing | written
  · rw [nothing]
    exact cutAnywhere_nil.mpr ⟨log, replays, coherent, .inl old⟩
  · rw [written]
    refine Cuts.weaken (wearLevelingWrite_cut durable.settled replays (Nat.le_trans inside (by decide))).1
      fun performed after left => ?_
    cases left with
    | @logged base added count stores kept replays =>
      have short : setter.field.1 + (setter.field.2.take count).length ≤ Settings.size := by
        rw [List.length_take]
        omega
      have whole : (log.contents Entry.update).length = logicalSize := by rw [contents, length]
      rcases kept with rfl | ⟨rfl, erases⟩
      · refine ⟨_, replays, coherent.stores stores whole behind short, .inl ?_⟩
        exact setter.restored_stage durable.version (stage count) (by rw [contents_stores stores whole, contents])
      · refine ⟨_, replays, coherent_unfounded _, ?_⟩
        have bare := unfounded_stores stores log.entries
        have bareLength := unfounded_length log.entries
        by_cases version : (Settings.ofBytes (unfounded (log.entries ++ added))).versionMagic = settingsVersionMagic
        · have front := version_front (by rw [unfounded_length]; decide) version
          rw [bare, take_memcpy_before behind (by omega)] at front
          have same := coherent front
          refine .inl (setter.restored_stage durable.version (stage count) ?_)
          show Settings.ofBytes (unfounded (log.entries ++ added)) = _
          apply Settings.ofBytes_front
          rw [bare, take_memcpy short (by omega), take_memcpy short (by omega), same, contents]
        · exact .inr ⟨if_neg version, erases⟩
    | @rewritten base erases replays front =>
      refine ⟨_, replays, coherent_checkpoint _, ?_⟩
      have same {other : List U8} (equal : base.take 64 = other.take 64) : Settings.ofBytes base = Settings.ofBytes other := by
        apply Settings.ofBytes_front
        have shorter := congrArg (List.take Settings.size) equal
        rwa [List.take_take, List.take_take] at shorter
      rcases front with none | new
      · have other : (Settings.ofBytes base).versionMagic ≠ settingsVersionMagic := by
          intro version
          rw [same none] at version
          exact blank_version (version_front (by rw [blank_length]; decide) version)
        exact .inr ⟨if_neg other, erases⟩
      · refine .inl (setter.restored_stage durable.version (stage setter.field.2.length) ?_)
        rw [List.take_length]
        exact same new

/-- Whatever the log holds, a cut setter leaves one that can be replayed. -/
theorem Setter.run_cut_replays (setter : Setter) (durable : SettingsDurable flash state) (replays : Replays flash log) :
    CutAnywhere (setter.run state).2 (fun _ after => ∃ log, Replays after log) flash := by
  obtain ⟨_, inside⟩ := setter.field_inside
  rcases setter.run_ops state with nothing | written
  · rw [nothing]
    exact cutAnywhere_nil.mpr ⟨log, replays⟩
  · rw [written]
    exact Cuts.weaken (wearLevelingWrite_cut durable.settled replays (Nat.le_trans inside (by decide))).1
      fun _ _ left => left.replayed

theorem Setter.run_tidy (setter : Setter) (durable : SettingsDurable flash state) (replays : Replays flash log)
    (coherent : Coherent log) : ∃ log, Replays (applyAll (setter.run state).2 flash) log ∧ Coherent log := by
  obtain ⟨behind, inside⟩ := setter.field_inside
  have length := replays.contents_length
  have small : setter.field.1 + setter.field.2.length ≤ 64 := Nat.le_trans inside (by decide)
  rcases setter.run_ops state with nothing | written
  · rw [nothing]
    exact ⟨log, replays, coherent⟩
  · rw [written]
    rcases (wearLevelingWrite_cut durable.settled replays small).2 with same | done
    · rw [wearLevelingWrite_same same]
      exact ⟨log, replays, coherent⟩
    · cases done with
      | logged stores replays => exact ⟨_, replays, coherent.stores stores length behind inside⟩
      | rewritten replays => exact ⟨_, replays, coherent_checkpoint _⟩

end Firmware

end Fruitchip
