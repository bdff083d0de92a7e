import Fruitchip.Proofs.DataOutPhases
import Fruitchip.Proofs.Session

/-! The data-out channels over whole runs. Between two commands they are idle
and set up as they were at the start, until a sector write calls the checksum
helper. -/

namespace Fruitchip.DataOut
open Embedded Embedded.Dma Embedded.Dma.Engine Firmware

structure Intact (state : State) : Prop where
  claimed : state.claimed = State.initial.claimed
  control : ∀ channel ∈ [ctrl1Chan, ctrl2Chan],
    (state.engine.channels channel).program = (State.initial.engine.channels channel).program
  busyCode : ∀ channel ∈ [busyPing, busyPong], ∃ chainTo,
    (state.engine.channels channel).program = (State.initial.engine.channels channel).program.chained chainTo

/-- How far a command has got with its answer. -/
inductive Stage where
  | free
  /-- The data is set, its answer has not started. -/
  | loaded
  | busy
  /-- The status code is in place, then the list that sends it. -/
  | coded
  | listed
  | done
  deriving DecidableEq

/-- The stage after a task. Commands without a checksum keep to these. -/
def Stage.after (stage : Stage) : Task → Option Stage
  | .setStatusCode _ => if stage = .busy then some .coded else none
  | .setStatusList => if stage = .coded then some .listed else none
  | .chainToStatus => if stage = .listed then some .done else none
  | .event (.startStatusCode _) | .event (.startDataWithStatusCode ..) =>
    if stage = .free then some .done else none
  | .event (.setData ..) => if stage = .free then some .loaded else none
  | .event (.startDataWithoutStatusCode _) => if stage = .loaded then some .done else none
  | .event .startBusyCode => if stage = .free then some .busy else none
  | .event (.stopBusyCode _) | .event (.dmaCrc32 _) => none
  | .event (.flash _) | .event (.settingsSet _) | .event (.setFlashWriteLock _) | .event (.setScratch0 _)
  | .event .watchdogReboot => some stage

/-- Tasks that take a command from a stage to its end. -/
def Concludes : Stage → List Task → Prop
  | stage, [] => stage = .free ∨ stage = .done
  | stage, task :: rest => ∃ after, stage.after task = some after ∧ Concludes after rest

def Ordered (events : List Event) : Prop := Concludes .free (events.flatMap tasks)

theorem concludes_flash (stage : Stage) (ops : List FlashOp) (rest : List Event) :
    Concludes stage ((ops.map Event.flash ++ rest).flatMap tasks) ↔ Concludes stage (rest.flatMap tasks) := by
  induction ops with
  | nil => rfl
  | cons op ops ih =>
    constructor
    · rintro ⟨after, same, concludes⟩
      cases same
      exact ih.mp concludes
    · intro concludes
      exact ⟨stage, rfl, ih.mpr concludes⟩

theorem concludes_stop (statusCode : U32) : Concludes .busy ([Event.stopBusyCode statusCode].flatMap tasks) :=
  ⟨.coded, rfl, .listed, rfl, .done, rfl, .inr rfl⟩

theorem busy_ordered (ops : List FlashOp) (statusCode : U32) :
    Ordered (.startBusyCode :: ops.map .flash ++ [.stopBusyCode statusCode]) :=
  ⟨.busy, rfl, (concludes_flash .busy ops _).mpr (concludes_stop statusCode)⟩

theorem answer_ordered (world : World) (statusCode : U32) : Ordered (answer world statusCode).2 :=
  ⟨.done, rfl, .inr rfl⟩

theorem answerData_ordered (world : World) (ref : DataRef) (count : U32) (crc : Bool) :
    Ordered (answerData world ref count crc).2 := ⟨.done, rfl, .inr rfl⟩

theorem kvSetBody_ordered (s : KvSetStatics) (world : World) : Ordered (kvSetBody s world).2 := by
  simp only [kvSetBody]
  split
  · exact ⟨.busy, rfl, .busy, rfl, (concludes_flash .busy _ _).mpr (concludes_stop _)⟩
  · exact answer_ordered world _

theorem rebootBody_ordered (s : RebootStatics) (world : World) : Ordered (rebootBody s world).2 := by
  simp only [rebootBody]
  split
  · split
    · exact ⟨.free, rfl, .done, rfl, .done, rfl, .inr rfl⟩
    · exact ⟨.done, rfl, .done, rfl, .inr rfl⟩
  · exact answer_ordered world _

theorem body_ordered (config : Config) (cmd : Cmd) (s : Statics) (world : World) :
    Ordered ((switchOf config cmd).body s world).2 := by
  cases cmd
  case pinConfig =>
    simp only [switchOf, handleWritePinConfig, pinConfigBody]
    split
    · split
      · exact answerData_ordered world _ _ _
      · exact answer_ordered world _
    · exact answer_ordered world _
  case getPartitionSize =>
    simp only [switchOf, handleWriteGetPartitionSize, getPartitionSizeBody]
    split
    · exact answerData_ordered world _ _ _
    · exact answer_ordered world _
  case kvGet =>
    simp only [switchOf, handleWriteKvGet, kvGetBody]
    split
    · exact answerData_ordered world _ _ _
    · exact answer_ordered world _
  case writeLock =>
    simp only [switchOf, handleWriteWriteLock, writeLockBody]
    split
    · exact ⟨.free, rfl, .done, rfl, .inr rfl⟩
    · exact answer_ordered world _
  case kvSet => exact kvSetBody_ordered s.kvSet world
  case reboot => exact rebootBody_ordered s.reboot world
  case testDataOutNoStatusWithDataWithCrc | testDataOutNoStatusWithDataNoCrc =>
    exact ⟨.loaded, rfl, .done, rfl, .inr rfl⟩
  case testDataOutBusy => exact busy_ordered [] _
  case readEeStage3 | readApp | eraseFlashSector | writeFlashSector => exact .inl rfl
  case testDataOutWithStatusNoDataNoCrc | disableNextOsdsysHook => exact answer_ordered _ _
  all_goals exact answerData_ordered _ _ _ _

/-- The next byte is the last one of a WRITE_FLASH_SECTOR frame whose checksum
matches its complement. -/
def CompletesSectorWrite (firmware : FirmwareState) : Prop :=
  firmware.writeHandler = .writeFlashSector ∧ firmware.cmdByteCounter + 1 = flashSectorSize + 22 - 1 ∧
    firmware.statics.flash.sectorCrc ^^^ firmware.statics.flash.sectorCrcXor = 0xFFFFFFFF

instance (firmware : FirmwareState) : Decidable (CompletesSectorWrite firmware) :=
  inferInstanceAs (Decidable (_ ∧ _ ∧ _))

theorem toIdle_ordered (firmware : FirmwareState) : Ordered (toIdle firmware).2 := .inl rfl

theorem switch_ordered (config : Config) (cmd : Cmd) (firmware : FirmwareState) (w : U8) :
    Ordered ((switchOf config cmd).handle firmware w).2 := by
  simp only [Switch.handle]
  repeat' split
  all_goals first | exact .inl rfl | exact body_ordered config cmd _ _

theorem readEeStage3Body_ordered (config : Config) (s : Stage3Statics) (w : U8) (world : World) :
    Ordered (readEeStage3Body config s w world).2 := by
  simp only [readEeStage3Body]
  split
  · exact answerData_ordered world _ _ _
  · exact answer_ordered world _

theorem readAppsPartitionBody_ordered (s : ReadAppStatics) (w : U8) (world : World) :
    Ordered (readAppsPartitionBody s w world).2 := by
  simp only [readAppsPartitionBody]
  split
  · exact answerData_ordered world _ _ _
  · exact answer_ordered world _

theorem eraseFlashSectorBody_ordered (config : Config) (s : FlashStatics) (world : World) :
    Ordered (eraseFlashSectorBody config s world).2 := by
  simp only [eraseFlashSectorBody]
  split
  · exact busy_ordered _ _
  · exact busy_ordered [] _

theorem writeFlashSectorBody_events (config : Config) (s : FlashStatics) (world : World) :
    ∃ (ops : List FlashOp) (statusCode : U32), (writeFlashSectorBody config s world).2 =
      .startBusyCode :: (if s.sectorCrc ^^^ s.sectorCrcXor = 0xFFFFFFFF then [.dmaCrc32 s.sectorBytes] else []) ++
        ops.map .flash ++ [.stopBusyCode statusCode] := by
  simp only [writeFlashSectorBody]
  split
  · exact ⟨_, _, rfl⟩
  · exact ⟨[], modchipCmdResultErr, by simp⟩

theorem handle_ordered (config : Config) {firmware : FirmwareState} (w : U8)
    (other : ¬ CompletesSectorWrite firmware) : Ordered (handle config firmware w).2 := by
  simp only [handle]
  split
  case h_1 =>
    simp only [handleWriteIdle]
    split <;> exact .inl rfl
  case h_2 =>
    simp only [handleWriteCmd]
    repeat' split
    all_goals exact .inl rfl
  case h_3 =>
    simp only [handleWriteCmdGroup0, handleGroup]
    split <;> exact .inl rfl
  case h_4 =>
    simp only [handleWriteCmdGroup1, handleGroup]
    split <;> exact .inl rfl
  case h_5 => exact switch_ordered config _ firmware w
  case h_6 => exact readEeStage3Body_ordered config _ w _
  case h_7 => exact readAppsPartitionBody_ordered _ w _
  case h_8 =>
    simp only [eraseFlashSector]
    split
    · exact eraseFlashSectorBody_ordered config _ _
    · exact toIdle_ordered _
  case h_9 handler =>
    simp only [writeFlashSector]
    repeat' split
    · next last =>
      obtain ⟨ops, statusCode, events⟩ := writeFlashSectorBody_events config
        { firmware.statics.flash with sector := fun index =>
            if index = firmware.cmdByteCounter + 1 - 22 then w else firmware.statics.flash.sector index }
        firmware.world
      have mismatch : ¬ firmware.statics.flash.sectorCrc ^^^ firmware.statics.flash.sectorCrcXor = 0xFFFFFFFF :=
        fun complement => other ⟨handler, last, complement⟩
      rw [if_neg mismatch] at events
      rw [events]
      exact busy_ordered ops statusCode
    · exact .inl rfl
    · exact toIdle_ordered _

theorem handle_checksum (config : Config) {firmware : FirmwareState} (w : U8)
    (completes : CompletesSectorWrite firmware) : ∃ data, .dmaCrc32 data ∈ (handle config firmware w).2 := by
  obtain ⟨handler, last, complement⟩ := completes
  have inside : 22 ≤ firmware.cmdByteCounter + 1 ∧ firmware.cmdByteCounter + 1 ≤ flashSectorSize + 22 - 1 := by
    rw [last]
    decide
  simp only [handle, handler, writeFlashSector, if_pos inside, if_pos last]
  obtain ⟨ops, statusCode, events⟩ := writeFlashSectorBody_events config
    { firmware.statics.flash with sector := fun index =>
        if index = firmware.cmdByteCounter + 1 - 22 then w else firmware.statics.flash.sector index }
    firmware.world
  rw [if_pos complement] at events
  have member (data : List U8) (ops : List Event) (last : Event) :
      Event.dmaCrc32 data ∈ .startBusyCode :: [.dmaCrc32 data] ++ ops ++ [last] := by simp
  rw [events]
  exact ⟨_, member _ _ _⟩

structure Stage.Holds (stage : Stage) (state : State) : Prop where
  claimed : state.claimed = State.initial.claimed
  stands : match stage with
    | .free => state.Stands .idle
    | .loaded => state.Stands .idle ∧ (state.engine.channels ctrl2Chan).readAddr = at0 .controlBlocksDataOut
    | .busy | .coded => state.Stands (.waiting false)
    | .listed => state.Stands (.waiting true)
    | .done => state.Stands .idle ∨ state.Stands .answering

variable {state : State}

/-- The tasks of a command, one after the other. None of them fails. -/
theorem Stage.Holds.perform {stage after : Stage} {task : Task} (holds : stage.Holds state)
    (moves : stage.after task = some after) :
    ∃ next, task.perform state = some next ∧ after.Holds next := by
  have claimed := holds.claimed
  have stands := holds.stands
  cases task with
  | setStatusCode statusCode =>
    obtain ⟨rfl, same⟩ := Option.ite_none_right_eq_some.mp moves
    cases same
    exact ⟨_, rfl, claimed, setStatusCode_waiting statusCode stands⟩
  | setStatusList =>
    obtain ⟨rfl, same⟩ := Option.ite_none_right_eq_some.mp moves
    cases same
    exact ⟨_, rfl, claimed, setStatusList_waiting stands⟩
  | chainToStatus =>
    obtain ⟨rfl, same⟩ := Option.ite_none_right_eq_some.mp moves
    cases same
    exact ⟨_, rfl, claimed, .inr (chainToStatus_answering stands)⟩
  | event event =>
    cases event with
    | startStatusCode statusCode =>
      obtain ⟨rfl, same⟩ := Option.ite_none_right_eq_some.mp moves
      cases same
      exact ⟨_, rfl, claimed, .inr (startStatusCode_answering statusCode stands)⟩
    | startDataWithStatusCode statusCode readAddr transferCount crc =>
      obtain ⟨rfl, same⟩ := Option.ite_none_right_eq_some.mp moves
      cases same
      exact ⟨_, rfl, claimed, .inr (startDataWithStatusCode_answering _ _ _ crc stands)⟩
    | setData readAddr transferCount =>
      obtain ⟨rfl, same⟩ := Option.ite_none_right_eq_some.mp moves
      cases same
      exact ⟨_, rfl, claimed, setData_idle _ _ stands⟩
    | startDataWithoutStatusCode crc =>
      obtain ⟨rfl, same⟩ := Option.ite_none_right_eq_some.mp moves
      cases same
      refine ⟨_, rfl, ?_, .inr (startDataWithoutStatusCode_answering crc stands.1 stands.2)⟩
      cases crc <;> exact claimed
    | startBusyCode =>
      obtain ⟨rfl, same⟩ := Option.ite_none_right_eq_some.mp moves
      cases same
      exact ⟨_, rfl, claimed, startBusyCode_waiting stands⟩
    | stopBusyCode statusCode => cases moves
    | dmaCrc32 data => cases moves
    | flash op | settingsSet setter | setFlashWriteLock value | setScratch0 value | watchdogReboot =>
      cases moves
      exact ⟨_, rfl, holds⟩

variable {config : Config} {device next : Device} {action : Action}

theorem State.Stands.intact (stands : state.Stands .idle) (claimed : state.claimed = State.initial.claimed) :
    Intact state := by
  cases stands with
  | rest wired _ =>
    have start := initial_wired
    refine ⟨claimed, ?_, ?_⟩
    · intro channel member
      simp only [List.mem_cons, List.not_mem_nil, or_false] at member
      rcases member with rfl | rfl
      · rw [wired.ctrl1, start.ctrl1]
      · rw [wired.ctrl2, start.ctrl2]
    · intro channel member
      simp only [List.mem_cons, List.not_mem_nil, or_false] at member
      rcases member with rfl | rfl
      · exact ⟨_, by rw [wired.ping, start.ping]; rfl⟩
      · exact ⟨_, by rw [wired.pong, start.pong]; rfl⟩

def Healthy (device : Device) : Prop :=
  ∃ stage : Stage, Concludes stage device.pending ∧ stage.Holds device.dma

def Device.initial (firmware : FirmwareState) : Device := ⟨firmware, [], .initial⟩

theorem initial_healthy (firmware : FirmwareState) : Healthy (.initial firmware) :=
  ⟨.free, .inl rfl, rfl, .rest initial_wired initial_onlyBusy⟩

theorem Healthy.resting (healthy : Healthy device) (resting : device.Resting) :
    device.dma.claimed = State.initial.claimed ∧ device.dma.Stands .idle := by
  obtain ⟨stage, concludes, holds⟩ := healthy
  rw [resting.1] at concludes
  refine ⟨holds.claimed, ?_⟩
  have stands := holds.stands
  rcases concludes with rfl | rfl
  · exact stands
  · rcases stands with idle | answering
    · exact idle
    · cases answering.quiet resting.2

theorem Stage.Holds.unit {stage : Stage} {read : DataRef → Nat → U8} {engine : Engine Object Memory} {channel : Nat}
    (holds : stage.Holds state) (stepped : state.engine.step (bus read) channel = some engine) :
    stage.Holds { state with engine } := by
  refine ⟨holds.claimed, ?_⟩
  have stands := holds.stands
  have resting (idle : state.Stands .idle) : False := by
    cases idle with
    | rest _ only => cases only.step stepped
  cases stage with
  | free => exact False.elim (resting stands)
  | loaded => exact False.elim (resting stands.1)
  | busy | coded | listed =>
    rcases Phase.step stands stepped with same | ⟨other, _⟩
    · exact same
    · cases other
  | done =>
    rcases stands with idle | answering
    · exact False.elim (resting idle)
    · rcases Phase.step answering stepped with more | ⟨_, ended⟩
      · exact .inr more
      · exact .inl ended

/-- A byte may be the last one of a sector write. -/
def Device.Completes (device : Device) (action : Action) : Prop :=
  (∃ w, action = .byte w) ∧ CompletesSectorWrite device.firmware

theorem Healthy.step (healthy : Healthy device) (other : ¬ device.Completes action)
    (stepped : device.step config action = some next) : Healthy next := by
  cases action with
  | byte w =>
    simp only [Device.step] at stepped
    split at stepped
    next resting =>
      cases stepped
      obtain ⟨claimed, idle⟩ := healthy.resting resting
      exact ⟨.free, handle_ordered config w (fun completes => other ⟨⟨w, rfl⟩, completes⟩), claimed, idle⟩
    · cases stepped
  | task =>
    obtain ⟨stage, concludes, holds⟩ := healthy
    simp only [Device.step] at stepped
    split at stepped
    · cases stepped
    next task pending found =>
      rw [found] at concludes
      obtain ⟨after, moves, rest⟩ := concludes
      obtain ⟨dma, performed, held⟩ := holds.perform moves
      rw [performed] at stepped
      cases stepped
      exact ⟨after, rest, held⟩
  | unit channel =>
    obtain ⟨stage, concludes, holds⟩ := healthy
    simp only [Device.step, Option.map_eq_some_iff] at stepped
    obtain ⟨engine, moved, rfl⟩ := stepped
    exact ⟨stage, concludes, holds.unit moved⟩

def firstUnclaimed : Nat := 6

/-- The checksum helper gives back another channel than it claims. -/
theorem dmaCrc32_claimed {data : List U8} {crc : U32} {helped : State} (performed : dmaCrc32 state data crc = some helped) :
    ∃ unused, (List.range numDmaChannels).find? (fun channel => !state.claimed channel) = some unused ∧
      helped.claimed firstUnclaimed = (decide (firstUnclaimed = unused) || state.claimed firstUnclaimed) := by
  simp only [dmaCrc32, dmaClaimUnusedChannel, bind, Option.bind_eq_some_iff, Option.map_eq_some_iff] at performed
  obtain ⟨_, ⟨unused, found, rfl⟩, same⟩ := performed
  cases same
  refine ⟨unused, found, ?_⟩
  have channel : firstUnclaimed ≠ (if unused ≠ 0 then 1 else 0) := by
    split <;> decide
  simp only [dmaChannelUnclaim, if_neg channel]
  by_cases leaked : firstUnclaimed = unused
  · simp [State.setChannel, State.setMemory, dmaChannelClaim, leaked]
  · simp [State.setChannel, State.setMemory, dmaChannelClaim, leaked]

theorem Task.perform_claimed {task : Task} {done : State} (other : ∀ data, task ≠ .event (.dmaCrc32 data))
    (performed : task.perform state = some done) : done.claimed = state.claimed := by
  cases task with
  | event event =>
    cases event with
    | dmaCrc32 data => exact False.elim (other data rfl)
    | startDataWithoutStatusCode crc =>
      cases performed
      cases crc <;> rfl
    | startStatusCode | startDataWithStatusCode | setData | startBusyCode | stopBusyCode | flash | settingsSet
      | setFlashWriteLock | setScratch0 | watchdogReboot =>
      cases performed
      rfl
  | setStatusCode | setStatusList | chainToStatus =>
    cases performed
    rfl

/-- A channel has leaked, or the checksum helper is about to leak one. -/
def Tainted (device : Device) : Prop :=
  device.dma.claimed firstUnclaimed = true ∨
    device.dma.claimed = State.initial.claimed ∧ ∃ data, .event (.dmaCrc32 data) ∈ device.pending

theorem Tainted.step (tainted : Tainted device) (stepped : device.step config action = some next) :
    Tainted next := by
  cases action with
  | byte w =>
    simp only [Device.step] at stepped
    split at stepped
    next resting =>
      cases stepped
      rcases tainted with leaked | ⟨_, data, member⟩
      · exact .inl leaked
      · rw [resting.1] at member
        cases member
    · cases stepped
  | unit channel =>
    simp only [Device.step, Option.map_eq_some_iff] at stepped
    obtain ⟨engine, _, rfl⟩ := stepped
    exact tainted
  | task =>
    simp only [Device.step] at stepped
    split at stepped
    · cases stepped
    next task pending found =>
      simp only [Option.map_eq_some_iff] at stepped
      obtain ⟨dma, performed, rfl⟩ := stepped
      by_cases checksum : ∃ data, task = .event (.dmaCrc32 data)
      · obtain ⟨data, rfl⟩ := checksum
        obtain ⟨unused, first, claimed⟩ := dmaCrc32_claimed performed
        left
        rw [claimed]
        rcases tainted with leaked | ⟨unchanged, _⟩
        · rw [leaked, Bool.or_true]
        · rw [unchanged] at first
          have six : unused = firstUnclaimed := Option.some.inj (first.symm.trans (by decide))
          simp [six]
      · have claimed := Task.perform_claimed (fun data same => checksum ⟨data, same⟩) performed
        rcases tainted with leaked | ⟨unchanged, data, member⟩
        · exact .inl (by rw [claimed, leaked])
        · rw [found] at member
          rcases List.mem_cons.mp member with same | later
          · exact False.elim (checksum ⟨data, same.symm⟩)
          · exact .inr ⟨claimed.trans unchanged, data, later⟩

/-- No byte of a run completes a sector write whose checksum matches its
complement. -/
def Clean (config : Config) : Device → List Action → Prop
  | _, [] => True
  | device, action :: rest =>
    ¬ device.Completes action ∧ ∀ next, device.step config action = some next → Clean config next rest

theorem Device.run_cons {rest : List Action} {last : Device}
    (run : Device.run config device (action :: rest) = some last) :
    ∃ next, device.step config action = some next ∧ Device.run config next rest = some last :=
  Option.bind_eq_some_iff.mp run

theorem Healthy.run {actions : List Action} {last : Device} (healthy : Healthy device)
    (clean : Clean config device actions) (run : Device.run config device actions = some last) : Healthy last := by
  induction actions generalizing device with
  | nil =>
    cases run
    exact healthy
  | cons action rest ih =>
    obtain ⟨next, stepped, later⟩ := Device.run_cons run
    exact ih (healthy.step clean.1 stepped) (clean.2 next stepped) later

theorem Tainted.run {actions : List Action} {last : Device} (tainted : Tainted device)
    (run : Device.run config device actions = some last) : Tainted last := by
  induction actions generalizing device with
  | nil =>
    cases run
    exact tainted
  | cons action rest ih =>
    obtain ⟨next, stepped, later⟩ := Device.run_cons run
    exact ih (tainted.step stepped) later

theorem Healthy.taint (healthy : Healthy device) (completes : device.Completes action)
    (stepped : device.step config action = some next) : Tainted next := by
  obtain ⟨⟨w, rfl⟩, completes⟩ := completes
  simp only [Device.step] at stepped
  split at stepped
  next resting =>
    cases stepped
    obtain ⟨data, member⟩ := handle_checksum config w completes
    refine .inr ⟨(healthy.resting resting).1, data, ?_⟩
    exact List.mem_flatMap.mpr ⟨_, member, List.mem_singleton_self _⟩
  · cases stepped

theorem Healthy.run_tainted {actions : List Action} {last : Device} (healthy : Healthy device)
    (dirty : ¬ Clean config device actions) (run : Device.run config device actions = some last) :
    Tainted last := by
  induction actions generalizing device with
  | nil => exact False.elim (dirty trivial)
  | cons action rest ih =>
    obtain ⟨next, stepped, later⟩ := Device.run_cons run
    by_cases completes : device.Completes action
    · exact (healthy.taint completes stepped).run later
    · refine ih (healthy.step completes stepped) (fun clean => dirty ⟨completes, ?_⟩) later
      intro other again
      rw [stepped] at again
      cases again
      exact clean

theorem Tainted.leaked (tainted : Tainted device) (resting : device.Resting) : ¬ Intact device.dma := by
  intro intact
  have free : device.dma.claimed firstUnclaimed = false := by
    rw [intact.claimed]
    decide
  rcases tainted with leaked | ⟨_, data, member⟩
  · rw [free] at leaked
    cases leaked
  · rw [resting.1] at member
    cases member

/-- After every command of a run the channels are as they were set up, exactly
as long as no sector write has reached the checksum helper. -/
theorem channels_intact_iff {firmware : FirmwareState} {actions : List Action}
    (run : Device.run config (.initial firmware) actions = some device) (resting : device.Resting) :
    Intact device.dma ↔ Clean config (.initial firmware) actions := by
  constructor
  · intro intact
    by_cases clean : Clean config (.initial firmware) actions
    · exact clean
    · exact False.elim (((initial_healthy firmware).run_tainted clean run).leaked resting intact)
  · intro clean
    obtain ⟨claimed, idle⟩ := ((initial_healthy firmware).run clean run).resting resting
    exact idle.intact claimed

theorem Device.run_append (first rest : List Action) :
    Device.run config device (first ++ rest) =
      (Device.run config device first).bind (Device.run config · rest) := by
  induction first generalizing device with
  | nil => rfl
  | cons action first ih =>
    simp only [List.cons_append, Device.run, Option.bind_assoc]
    exact congrArg _ (funext fun next => ih)

theorem Device.run_silent {firmware : FirmwareState} {dma : State} (quiet : dma.quiet) {bytes : List U8}
    (silent : ((machine config).run firmware bytes).2 = []) :
    Device.run config ⟨firmware, [], dma⟩ (bytes.map .byte) =
      some ⟨((machine config).run firmware bytes).1, [], dma⟩ := by
  induction bytes generalizing firmware with
  | nil => rfl
  | cons w bytes ih =>
    rw [Mealy.run_cons] at silent ⊢
    obtain ⟨first, later⟩ := List.append_eq_nil_iff.mp silent
    have stepped : Device.step config ⟨firmware, [], dma⟩ (.byte w) =
        some ⟨((machine config).step firmware w).1, [], dma⟩ := by
      have events : (handle config firmware w).2 = [] := first
      simp only [Device.step, Device.Resting, quiet, and_self, ite_true, events]
      rfl
    simp only [List.map_cons, Device.run, stepped, Option.bind_some]
    exact ih later

theorem Device.run_call {start : FirmwareState} {dma : State} (idle : start.writeHandler = .idle) (quiet : dma.quiet)
    (call : Client.Call) :
    Device.run config ⟨start, [], dma⟩ (call.poked.map .byte) =
      some ⟨((machine config).run start call.poked).1, (runCall config call start.world).2.flatMap tasks, dma⟩ := by
  have isFrame := isFrame_opcode config (callArgs_length call)
  rw [← poked_eq] at isFrame
  obtain ⟨init, last, split⟩ : ∃ init last, call.poked = init ++ [last] := by
    have some : call.poked ≠ [] := by
      rw [poked_eq, opcode_eq]
      simp
    exact ⟨_, _, (List.dropLast_concat_getLast some).symm⟩
  have grows : (protocol config).Grows init := by
    intro size above below
    have here := isFrame.grows size above (by rw [split]; simp; omega)
    rwa [split, List.take_append_of_le_length below] at here
  have silent : ((machine config).run start init).2 = [] := by
    rw [(run_refines config idle init).2.2, Framing.run_grows grows]
  have events := (Firmware.run_call config idle call).2.2
  rw [split, Mealy.run_concat, silent, List.nil_append] at events
  rw [split, List.map_append, Device.run_append, Device.run_silent quiet silent, Mealy.run_concat]
  have handled : (handle config ((machine config).run start init).1 last).2 = (runCall config call start.world).2 :=
    events
  simp only [Option.bind_some, List.map_cons, List.map_nil, Device.run, Device.step, Device.Resting, quiet,
    and_self, ite_true, handled]
  rfl

/-- A sector write while flash is locked: the checksum is computed all the same. -/
theorem locked_write_events (partitionIdx : U8) (sectorIdx : U32) (sector : Client.Sector) {world : World}
    (locked : world.flashWriteLock = true) :
    (runCall config (.writeFlashSector partitionIdx sectorIdx sector) world).2 =
      [.startBusyCode, .dmaCrc32 (sectorStatics partitionIdx sectorIdx (crc32 sector.bytes)
        (sector.bytes.getD · 0)).sectorBytes, .stopBusyCode modchipCmdResultErr] := by
  have complement := xor_xor_self (crc32 sector.bytes) 0xFFFFFFFF
  simp only [runCall, writeFlashSectorBody, sectorStatics, complement, locked, Bool.true_eq_false, false_and,
    ite_false, ite_true]
  rfl

def lockedStart : FirmwareState := .powerUp (fun _ => 0xFF) ⟨.defaults, WearLeveling.clearCache⟩

def zeroSector : Client.Sector := ⟨List.replicate flashSectorSize 0, List.length_replicate⟩

def zeroSectorBytes : List U8 :=
  (sectorStatics modchipPartitionIdxApps 0 (crc32 zeroSector.bytes) (zeroSector.bytes.getD · 0)).sectorBytes

def zeroSectorCall : Client.Call := .writeFlashSector modchipPartitionIdxApps 0 zeroSector

def zeroSectorActions : List Action :=
  List.replicate 5 .task ++ [4, 4, 4, 4, 5, 0, 0, 0, 0, 2, 2, 2, 2, 0, 0, 0, 0, 2, 0, 0, 0, 0].map .unit

/-- One refused sector write costs the second control channel its claim. -/
theorem sector_write_releases_ctrl2 :
    ∃ device, Device.run default (.initial lockedStart) (zeroSectorCall.poked.map .byte ++ zeroSectorActions) =
        some device ∧ device.Resting ∧ ¬ Intact device.dma := by
  have facts : (Device.run default ⟨((machine default).run lockedStart zeroSectorCall.poked).1,
      [.event .startBusyCode, .event (.dmaCrc32 zeroSectorBytes), .setStatusCode modchipCmdResultErr,
        .setStatusList, .chainToStatus], .initial⟩ zeroSectorActions).map
        (fun device => (device.pending, device.dma.quiet, device.dma.claimed ctrl2Chan)) =
      some ([], true, false) := by
    decide +kernel
  obtain ⟨device, run, same⟩ := Option.map_eq_some_iff.mp facts
  obtain ⟨pending, rest⟩ := Prod.mk.inj same
  obtain ⟨quiet, claimed⟩ := Prod.mk.inj rest
  refine ⟨device, ?_, ⟨pending, quiet⟩, ?_⟩
  · have events : (runCall default zeroSectorCall lockedStart.world).2 =
        [.startBusyCode, .dmaCrc32 zeroSectorBytes, .stopBusyCode modchipCmdResultErr] :=
      locked_write_events modchipPartitionIdxApps 0 zeroSector rfl
    have call := @Device.run_call default lockedStart .initial rfl (by decide) zeroSectorCall
    have ordered (data : List U8) : [Event.startBusyCode, .dmaCrc32 data, .stopBusyCode modchipCmdResultErr].flatMap
        tasks = [.event .startBusyCode, .event (.dmaCrc32 data), .setStatusCode modchipCmdResultErr,
          .setStatusList, .chainToStatus] := rfl
    rw [events, ordered] at call
    rw [Device.run_append, Device.initial, call, Option.bind_some, run]
  · intro intact
    have kept := congrFun intact.claimed ctrl2Chan
    rw [claimed] at kept
    cases kept

/-- An answer with four bytes of data: both control lists, data and checksum. -/
def sectorSizeActions : List Action :=
  Client.Call.getFlashSectorSize.poked.map .byte ++ [.task] ++
    [0, 0, 0, 0, 2, 2, 0, 0, 0, 0, 2, 2, 2, 2, 1, 1, 1, 1, 3, 3, 3, 3, 0, 0, 0, 0, 2, 2, 2, 2, 0, 0, 0, 0, 2,
      0, 0, 0, 0].map .unit

theorem channels_intact_iff_sector_size :
    ∃ device, Device.run default (.initial lockedStart) sectorSizeActions = some device ∧
      device.Resting ∧ (Intact device.dma ↔ Clean default (.initial lockedStart) sectorSizeActions) := by
  have facts : (Device.run default (.initial lockedStart) sectorSizeActions).map
      (fun device => (device.pending, device.dma.quiet)) = some ([], true) := by
    decide +kernel
  obtain ⟨device, run, same⟩ := Option.map_eq_some_iff.mp facts
  obtain ⟨pending, quiet⟩ := Prod.mk.inj same
  exact ⟨device, run, ⟨pending, quiet⟩, channels_intact_iff run ⟨pending, quiet⟩⟩

end Fruitchip.DataOut
