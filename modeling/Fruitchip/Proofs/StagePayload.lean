import Fruitchip.Proofs.DataDue
import Fruitchip.Proofs.OneShotHook

/-! The payload of an injection. Byte 503 of the syscall table puts stage 1 into
the data block that the answers of all commands share, and byte 508 sends that
block. It stands until then, unless an answer that began before byte 503 has yet
to fetch its own data, or a command in between writes the block. -/

namespace Fruitchip.DataOut
open Embedded Embedded.Dma Embedded.Dma.Engine Firmware

variable {config : Config} {board next last : LoopDevice} {action : LoopAction} {actions rest : List LoopAction}
  {state done : State} {index : Nat} {engine : Engine Object Memory} {read : DataRef → Nat → U8}

theorem LoopDevice.run_loop (run : LoopDevice.run config board actions = some last) :
    last.loop = board.loop.after config (inputs actions) := by
  induction actions generalizing board with
  | nil =>
    cases run
    rfl
  | cons action rest ih =>
    obtain ⟨next, stepped, later⟩ := LoopDevice.run_cons run
    have reached := ih later
    rcases LoopDevice.step_cases stepped with ⟨_, rfl, _, rfl⟩ | ⟨_, _, _, rfl, _, rfl, _⟩ | ⟨_, _, rfl, rfl, _⟩
    all_goals exact reached

/-- The data block is the stage 1 payload, and CTRL2 is at its start. -/
structure Armed (config : Config) (dma : State) : Prop where
  readAddr : dma.engine.memory.readAddr = at0 (.data .eeStage1)
  transCount : dma.engine.memory.transCount = config.loaderEeStage1Size.toNat
  ctrl2 : (dma.engine.channels ctrl2Chan).readAddr = at0 .controlBlocksDataOut

/-- Every injection of a run finds the payload. -/
def AlwaysArmed (config : Config) (start : LoopDevice) (actions : List LoopAction) : Prop :=
  ∀ before r rest board, actions = before ++ .byte (.read r) :: rest →
    LoopDevice.run config start before = some board → board.loop.Injects config r → Armed config board.dma

def Loop.SetsUp (config : Config) (loop : Loop) (r : U8) : Prop :=
  ¬ loop.PastTest ∧ (loop.step config (.read r)).1.PastTest

/-- Where the payload is set up while an answer has still to fetch its data,
byte 508 of the table is not the one that is waited for. -/
def NoEarlyData (config : Config) (start : LoopDevice) (actions : List LoopAction) : Prop :=
  ∀ before r rest board, actions = before ++ .byte (.read r) :: rest →
    LoopDevice.run config start before = some board → Loop.SetsUp config board.loop r →
    (reads (inputs rest))[4]? = some 0x00 → NoDataDue board.dma.engine.channels

def touchesData : Event → Bool
  | .setData .. | .startDataWithStatusCode .. | .dmaCrc32 _ => true
  | _ => false

/-- The byte completes a command that answers with data, or a sector write that
gets as far as its checksum. -/
def Disturbs (config : Config) (loop : Loop) (w : U8) : Prop :=
  ∃ event ∈ (loop.step config (.write w)).2, touchesData event

/-- Where a command disturbs the data between the test and the injection, byte
508 of the table is not the one that is waited for. -/
def NoLateData (config : Config) (start : LoopDevice) (actions : List LoopAction) : Prop :=
  ∀ before w rest board, actions = before ++ .byte (.write w) :: rest →
    LoopDevice.run config start before = some board → Disturbs config board.loop w → board.loop.PastTest →
    (reads (inputs rest))[507 - board.loop.reader.osdsysCounter]? ≠ some 0x00

/-- What a command without data has still to store. PING starts once PONG leads
back to it, and PONG leads to CTRL1 once that is at the status list. -/
def Follows (listed reset : Prop) : List Store → Prop
  | [] => True
  | .statusCode _ :: rest => Follows listed reset rest
  | .pointCtrl1 list _ :: rest => list = .withStatusNoDataNoCrc ∧ Follows True reset rest
  | .pongToPing :: rest => Follows listed True rest
  | .startPing :: rest => reset ∧ Follows listed reset rest
  | .pongToCtrl1 :: rest => listed ∧ Follows listed False rest
  | _ => False

theorem Follows.mono {listed reset listed' reset' : Prop} {pending : List Store} (follows : Follows listed reset pending)
    (stays : listed → listed') (kept : reset → reset') : Follows listed' reset' pending := by
  induction pending generalizing listed reset listed' reset' with
  | nil => exact trivial
  | cons store rest ih =>
    cases store with
    | statusCode => exact ih follows stays kept
    | pointCtrl1 => exact ⟨follows.1, ih follows.2 id kept⟩
    | pongToPing => exact ih follows stays id
    | startPing => exact ⟨kept follows.1, ih follows.2 stays kept⟩
    | pongToCtrl1 => exact ⟨stays follows.1, ih follows.2 stays id⟩
    | readAddr | transCount | pointCtrl2 | startCtrl2 | dmaCrc32 => exact False.elim follows

def startsData : Event → Bool
  | .startDataWithoutStatusCode _ => true
  | _ => false

theorem follows_stores {events : List Event}
    (calm : ∀ event ∈ events, touchesData event = false ∧ startsData event = false) :
    Follows False False (events.flatMap eventStores) := by
  induction events with
  | nil => exact trivial
  | cons event rest ih =>
    obtain ⟨⟨untouched, started⟩, later⟩ := List.forall_mem_cons.mp calm
    have after {listed reset : Prop} : Follows listed reset (rest.flatMap eventStores) :=
      (ih later).mono False.elim False.elim
    rw [List.flatMap_cons]
    cases event with
    | startStatusCode => exact ⟨rfl, after⟩
    | startBusyCode => exact ⟨trivial, after⟩
    | stopBusyCode => exact ⟨rfl, trivial, after⟩
    | flash | settingsSet | setFlashWriteLock | setScratch0 | watchdogReboot => exact after
    | startDataWithStatusCode | setData | dmaCrc32 => cases untouched
    | startDataWithoutStatusCode => cases started

/-- An answer starts with data only after the data is set. -/
theorem concludes_unstarted {stage : Stage} {events : List Event} (concludes : Concludes stage (events.flatMap tasks))
    (unloaded : stage ≠ .loaded) (calm : ∀ event ∈ events, touchesData event = false) :
    ∀ event ∈ events, startsData event = false := by
  induction events generalizing stage with
  | nil => exact List.forall_mem_nil _
  | cons event rest ih =>
    obtain ⟨untouched, later⟩ := List.forall_mem_cons.mp calm
    rw [List.flatMap_cons] at concludes
    cases event with
    | setData | startDataWithStatusCode | dmaCrc32 => cases untouched
    | startDataWithoutStatusCode =>
      obtain ⟨_, moves, _⟩ := concludes
      exact False.elim (unloaded (Option.ite_none_right_eq_some.mp moves).1)
    | stopBusyCode =>
      obtain ⟨_, coded, _, listed, _, done, concludes⟩ := concludes
      cases (Option.ite_none_right_eq_some.mp done).2
      exact List.forall_mem_cons.mpr ⟨rfl, ih concludes (by decide) later⟩
    | startStatusCode | startBusyCode =>
      obtain ⟨_, moves, concludes⟩ := concludes
      cases (Option.ite_none_right_eq_some.mp moves).2
      exact List.forall_mem_cons.mpr ⟨rfl, ih concludes (by decide) later⟩
    | flash | settingsSet | setFlashWriteLock | setScratch0 | watchdogReboot =>
      obtain ⟨_, moves, concludes⟩ := concludes
      cases moves
      exact List.forall_mem_cons.mpr ⟨rfl, ih concludes unloaded later⟩

theorem undisturbed_follows {loop : Loop} {w : U8} (undisturbed : ¬ Disturbs config loop w) :
    Follows False False ((loop.step config (.write w)).2.flatMap eventStores) := by
  have calm : ∀ event ∈ (loop.step config (.write w)).2, touchesData event = false := by
    intro event member
    apply Bool.eq_false_iff.mpr
    intro touches
    exact undisturbed ⟨event, member, touches⟩
  have ordered : Ordered (loop.step config (.write w)).2 := by
    apply handle_ordered
    intro completes
    obtain ⟨data, member⟩ := handle_checksum config w completes
    exact undisturbed ⟨_, member, rfl⟩
  have unstarted := concludes_unstarted ordered (by decide) calm
  exact follows_stores fun event member => ⟨calm event member, unstarted event member⟩

/-- How far the payload is set up, and what the running command has still to do. -/
inductive SetUp (config : Config) (dma : State) : List Store → Prop
  | begun : SetUp config dma (setDataStores .eeStage1 config.loaderEeStage1Size)
  | addressed (readAddr : dma.engine.memory.readAddr = at0 (.data .eeStage1)) :
    SetUp config dma [.transCount config.loaderEeStage1Size.toNat, .pointCtrl2]
  | counted (readAddr : dma.engine.memory.readAddr = at0 (.data .eeStage1))
    (transCount : dma.engine.memory.transCount = config.loaderEeStage1Size.toNat) : SetUp config dma [.pointCtrl2]
  | armed {pending : List Store} (armed : Armed config dma) (follows : Follows (Listed dma.engine.channels)
      ((dma.engine.channels busyPong).ctrl.chainTo = busyPing) pending) : SetUp config dma pending

/-- The payload is there, or on its way, and nothing moves CTRL2. -/
structure Ready (config : Config) (board : LoopDevice) : Prop where
  due : NoDataDue board.dma.engine.channels
  setUp : SetUp config board.dma board.pending

theorem Ready.armed (ready : Ready config board) (waits : board.pending = []) : Armed config board.dma := by
  obtain ⟨loop, pending, dma⟩ := board
  cases waits
  cases ready.setUp with
  | armed armed => exact armed

theorem Ready.unit (ready : Ready config board) (mapped : Mapped board.dma)
    (stepped : board.dma.engine.step (bus read) index = some engine) :
    Ready config { board with dma.engine := engine } := by
  obtain ⟨loop, pending, dma⟩ := board
  obtain ⟨source, count⟩ := step_data stepped
  refine ⟨ready.due.unit mapped stepped, ?_⟩
  cases ready.setUp with
  | begun => exact .begun
  | addressed readAddr => exact .addressed (source.trans readAddr)
  | counted readAddr transCount => exact .counted (source.trans readAddr) (count.trans transCount)
  | armed armed follows =>
    have pong : (dma.engine.channels busyPong).Alike (engine.channels busyPong) := mapped.core_alike stepped rfl
    refine .armed ⟨source.trans armed.readAddr, count.trans armed.transCount, ?_⟩
      (follows.mono (mapped.listed stepped) fun chained => (congrArg Ctrl.chainTo pong.ctrl).trans chained)
    exact (congrArg Channel.readAddr (ready.due.still mapped stepped)).trans armed.ctrl2

theorem Armed.store {store : Store} {pending : List Store} (armed : Armed config state)
    (due : NoDataDue state.engine.channels) (follows : Follows (Listed state.engine.channels)
      ((state.engine.channels busyPong).ctrl.chainTo = busyPing) (store :: pending))
    (performed : store.perform state = some done) :
    NoDataDue done.engine.channels ∧ Armed config done ∧ Follows (Listed done.engine.channels)
      ((done.engine.channels busyPong).ctrl.chainTo = busyPing) pending := by
  obtain ⟨readAddr, transCount, ctrl2⟩ := armed
  cases store with
  | statusCode =>
    cases performed
    exact ⟨due, ⟨readAddr, transCount, ctrl2⟩, follows⟩
  | pointCtrl1 list trigger =>
    obtain ⟨rfl, later⟩ := follows
    cases performed
    have listed : Listed (dmaChannelSetReadAddr state ctrl1Chan
        (at0 (.controlList .withStatusNoDataNoCrc)) trigger).engine.channels := by
      apply status_listed
      cases trigger with
      | false => rfl
      | true => exact congrArg Address.object (Channel.triggered_readAddr _)
    refine ⟨due.list listed ?_, ?_, ?_⟩
    · rintro index (rfl | rfl | rfl) <;> cases trigger <;> rfl
    · cases trigger <;> exact ⟨readAddr, transCount, ctrl2⟩
    · exact later.mono (fun _ => listed) (by cases trigger <;> exact id)
  | pongToPing =>
    cases performed
    have later : Follows (Listed state.engine.channels) True pending := follows
    refine ⟨due.code ?_ ?_, ⟨readAddr, transCount, ctrl2⟩, later.mono id fun _ => rfl⟩
    · intro index _ pong
      exact set_channels_other _ _ pong
    · intro _ chained
      cases chained
  | startPing =>
    obtain ⟨reset, later⟩ := follows
    cases performed
    refine ⟨due.code ?_ ?_, ⟨readAddr, transCount, ctrl2⟩, later⟩
    · intro index ping _
      exact (set_channels_other _ _ ping).trans (set_channels_other _ _ ping)
    · intro _ chained
      cases reset.symm.trans chained
  | pongToCtrl1 =>
    obtain ⟨listed, later⟩ := follows
    cases performed
    refine ⟨due.list listed ?_, ⟨readAddr, transCount, ctrl2⟩, later.mono id False.elim⟩
    rintro index (rfl | rfl | rfl) <;> rfl
  | readAddr | transCount | pointCtrl2 | startCtrl2 | dmaCrc32 => exact False.elim follows

theorem Ready.store {store : Store} {pending : List Store} {dma : State} (ready : Ready config board)
    (found : board.pending = store :: pending) (performed : store.perform board.dma = some dma) :
    Ready config { board with pending, dma } := by
  obtain ⟨due, setUp⟩ := ready
  rw [found] at setUp
  generalize whole : store :: pending = stores at setUp
  cases setUp with
  | begun =>
    cases whole
    cases performed
    exact ⟨due, .addressed rfl⟩
  | addressed readAddr =>
    cases whole
    cases performed
    exact ⟨due, .counted readAddr rfl⟩
  | counted readAddr transCount =>
    cases whole
    cases performed
    refine ⟨⟨due.ctrl2, ?_, due.ctrl1, due.busyCode⟩, .armed ⟨readAddr, transCount, rfl⟩ trivial⟩
    rintro index (rfl | rfl) busy
    · exact due.worker data1Chan (.inl rfl) busy
    · exact due.worker data2Chan (.inr rfl) busy
  | armed armed follows =>
    cases whole
    obtain ⟨due, armed, follows⟩ := armed.store due follows performed
    exact ⟨due, .armed armed follows⟩

theorem table_silent {loop : Loop} {counter : Nat} (inTable : loop.InTable counter) (r : U8) (test : counter + 1 ≠ 503)
    (last : counter + 1 ≠ 508) : (loop.step config (.read r)).2 = [] := by
  simp only [Loop.step, handleRead, inTable.handler, handleReadFindOsdsysSyscallTable, inTable.counter, if_neg last,
    if_neg test]

theorem table_ends {loop : Loop} (inTable : loop.InTable 507) (r : U8) :
    ¬ (loop.step config (.read r)).1.PastTest := by
  intro past
  have handler := past.1
  simp only [Loop.step, handleRead, inTable.handler, handleReadFindOsdsysSyscallTable, inTable.counter] at handler
  split at handler
  · split at handler
    all_goals cases handler
  next other => exact other trivial

theorem setsUp_events {loop : Loop} {r : U8} (setsUp : Loop.SetsUp config loop r) :
    (loop.step config (.read r)).2 = [.setData .eeStage1 config.loaderEeStage1Size] ∧
      (loop.step config (.read r)).1.reader.osdsysCounter = 503 := by
  obtain ⟨before, past⟩ := setsUp
  by_cases handler : loop.reader.readHandler = .findOsdsysSyscallTable
  · have early : loop.reader.osdsysCounter < 503 := Nat.lt_of_not_le fun late => before ⟨handler, late⟩
    by_cases test : loop.reader.osdsysCounter + 1 = 503
    · obtain ⟨kept, _⟩ := past
      simp only [Loop.step, handleRead, handler, handleReadFindOsdsysSyscallTable, test, Nat.reduceEqDiff, ite_false,
        ite_true] at kept ⊢
      split at kept
      · cases kept
      next right =>
        split at kept
        · cases kept
        next clear => simp only [if_neg right, if_neg clear, and_self]
    · have counted := table_counts config ⟨handler, rfl⟩ r test (by omega)
      have late := past.2
      rw [counted.counter] at late
      omega
  · exact False.elim ((other_handler config handler r).2 past)

/-- Past the test the payload is ready, or the search will miss. -/
structure Covered (config : Config) (board : LoopDevice) (rest : List LoopAction) : Prop where
  mapped : Mapped board.dma
  bounds : board.loop.InBounds
  ready : board.loop.PastTest → Ready config board ∨
    (reads (inputs rest))[507 - board.loop.reader.osdsysCounter]? ≠ some 0x00

theorem NoEarlyData.tail (noEarly : NoEarlyData config board (action :: rest))
    (stepped : board.step config action = some next) : NoEarlyData config next rest := by
  rintro before r more reached rfl run
  exact noEarly (action :: before) r more reached rfl (Option.bind_eq_some_iff.mpr ⟨next, stepped, run⟩)

theorem NoLateData.tail (noLate : NoLateData config board (action :: rest))
    (stepped : board.step config action = some next) : NoLateData config next rest := by
  rintro before w more reached rfl run
  exact noLate (action :: before) w more reached rfl (Option.bind_eq_some_iff.mpr ⟨next, stepped, run⟩)

theorem Covered.read_byte {r : U8} (covered : Covered config board (.byte (.read r) :: rest))
    (noEarly : NoEarlyData config board (.byte (.read r) :: rest)) (waits : board.pending = [])
    (past : (board.loop.step config (.read r)).1.PastTest) :
    Ready config { board with
        loop := (board.loop.step config (.read r)).1, pending := (board.loop.step config (.read r)).2.flatMap eventStores } ∨
      (reads (inputs rest))[507 - (board.loop.step config (.read r)).1.reader.osdsysCounter]? ≠ some 0x00 := by
  by_cases before : board.loop.PastTest
  · have inTable : board.loop.InTable board.loop.reader.osdsysCounter := ⟨before.1, rfl⟩
    have low := before.2
    have high := covered.bounds before.1
    by_cases final : board.loop.reader.osdsysCounter = 507
    · exact False.elim (table_ends ⟨before.1, final⟩ r past)
    have counted := table_counts config inTable r (by omega) (by omega)
    have silent := @table_silent config _ _ inTable r (by omega) (by omega)
    rcases covered.ready before with ready | missed
    · left
      rw [silent]
      exact ⟨ready.due, .armed (ready.armed waits) trivial⟩
    · right
      have place : 507 - board.loop.reader.osdsysCounter = 507 - (board.loop.reader.osdsysCounter + 1) + 1 := by omega
      rw [place] at missed
      rw [counted.counter]
      exact missed
  · obtain ⟨events, counter⟩ := setsUp_events ⟨before, past⟩
    by_cases goes : (reads (inputs rest))[4]? = some 0x00
    · left
      rw [events]
      exact ⟨noEarly [] r rest board rfl rfl ⟨before, past⟩ goes, .begun⟩
    · right
      rw [counter]
      exact goes

theorem Covered.write_byte {w : U8} (covered : Covered config board (.byte (.write w) :: rest))
    (noLate : NoLateData config board (.byte (.write w) :: rest)) (waits : board.pending = [])
    (past : board.loop.PastTest) :
    Ready config { board with
        loop := (board.loop.step config (.write w)).1, pending := (board.loop.step config (.write w)).2.flatMap eventStores } ∨
      (reads (inputs rest))[507 - board.loop.reader.osdsysCounter]? ≠ some 0x00 := by
  by_cases disturbs : Disturbs config board.loop w
  · exact .inr (noLate [] w rest board rfl rfl disturbs past)
  · rcases covered.ready past with ready | missed
    · left
      exact ⟨ready.due, .armed (ready.armed waits) ((undisturbed_follows disturbs).mono False.elim False.elim)⟩
    · exact .inr missed

theorem Covered.step (covered : Covered config board (action :: rest))
    (noEarly : NoEarlyData config board (action :: rest)) (noLate : NoLateData config board (action :: rest))
    (stepped : board.step config action = some next) : Covered config next rest := by
  have mapped := covered.mapped.step stepped
  rcases LoopDevice.step_cases stepped with ⟨input, rfl, waits, rfl⟩ | ⟨store, pending, dma, rfl, found, rfl, performed⟩ |
    ⟨index, engine, rfl, rfl, moved⟩
  · refine ⟨mapped, covered.bounds.step config input, ?_⟩
    cases input with
    | read r => exact covered.read_byte noEarly waits
    | write w => exact covered.write_byte noLate waits
  · refine ⟨mapped, covered.bounds, fun past => ?_⟩
    exact (covered.ready past).imp_left fun ready => ready.store found performed
  · refine ⟨mapped, covered.bounds, fun past => ?_⟩
    exact (covered.ready past).imp_left fun ready => ready.unit covered.mapped moved

theorem Covered.run {before : List LoopAction} (covered : Covered config board (before ++ rest))
    (noEarly : NoEarlyData config board (before ++ rest)) (noLate : NoLateData config board (before ++ rest))
    (run : LoopDevice.run config board before = some last) : Covered config last rest := by
  induction before generalizing board with
  | nil =>
    cases run
    exact covered
  | cons action before ih =>
    obtain ⟨next, stepped, later⟩ := LoopDevice.run_cons run
    exact ih (covered.step noEarly noLate stepped) (noEarly.tail stepped) (noLate.tail stepped) later

theorem NoLateData.always_armed {start : LoopDevice} (noLate : NoLateData config start actions)
    (noEarly : NoEarlyData config start actions) (mapped : Mapped start.dma) (bounds : start.loop.InBounds)
    (fresh : ¬ start.loop.PastTest) (run : LoopDevice.run config start actions = some last) :
    AlwaysArmed config start actions := by
  rintro before r rest board rfl reached injects
  obtain ⟨middle, same, later⟩ := LoopDevice.run_split run
  cases reached.symm.trans same
  obtain ⟨next, stepped, _⟩ := LoopDevice.run_cons later
  obtain ⟨inTable, rfl⟩ := (injects_iff _ _).mp injects
  have covered : Covered config board (.byte (.read 0x00) :: rest) :=
    Covered.run ⟨mapped, bounds, fun past => False.elim (fresh past)⟩ noEarly noLate reached
  rcases LoopDevice.step_cases stepped with ⟨_, _, waits, _⟩ | ⟨_, _, _, other, _⟩ | ⟨_, _, other, _⟩
  · rcases covered.ready ⟨inTable.handler, by rw [inTable.counter]; decide⟩ with ready | missed
    · exact ready.armed waits
    · rw [inTable.counter] at missed
      exact False.elim (missed rfl)
  · cases other
  · cases other

def usesPayload : Event → Bool
  | .setData .eeStage1 _ | .startDataWithStatusCode _ .eeStage1 _ _ => true
  | _ => false

def Foreign (events : List Event) : Prop := ∀ event ∈ events, usesPayload event = false

theorem foreign_nil : Foreign [] := List.forall_mem_nil _

theorem foreign_cons {event : Event} {events : List Event} (first : usesPayload event = false)
    (later : Foreign events) : Foreign (event :: events) := List.forall_mem_cons.mpr ⟨first, later⟩

theorem foreign_single {event : Event} (only : usesPayload event = false) : Foreign [event] :=
  foreign_cons only foreign_nil

theorem foreign_append {first last : List Event} (foreign : Foreign first) (later : Foreign last) :
    Foreign (first ++ last) := List.forall_mem_append.mpr ⟨foreign, later⟩

theorem foreign_flash (ops : List FlashOp) : Foreign (ops.map .flash) := by
  intro event member
  obtain ⟨op, _, rfl⟩ := List.mem_map.mp member
  rfl

theorem body_foreign (config : Config) (cmd : Cmd) (s : Statics) (world : World) :
    Foreign ((switchOf config cmd).body s world).2 := by
  cases cmd
  case pinConfig =>
    simp only [switchOf, handleWritePinConfig, pinConfigBody]
    split
    · split
      · exact foreign_single rfl
      · exact foreign_single rfl
    · exact foreign_single rfl
  case getPartitionSize =>
    simp only [switchOf, handleWriteGetPartitionSize, getPartitionSizeBody]
    split
    · exact foreign_single rfl
    · exact foreign_single rfl
  case kvGet =>
    simp only [switchOf, handleWriteKvGet, kvGetBody]
    split
    · exact foreign_single rfl
    · exact foreign_single rfl
  case writeLock =>
    simp only [switchOf, handleWriteWriteLock, writeLockBody]
    split
    · exact foreign_cons rfl (foreign_single rfl)
    · exact foreign_single rfl
  case kvSet =>
    simp only [switchOf, handleWriteKvSet, kvSetBody]
    split
    · exact foreign_append (foreign_cons rfl (foreign_cons rfl (foreign_flash _))) (foreign_single rfl)
    · exact foreign_single rfl
  case reboot =>
    simp only [switchOf, handleWriteReboot, rebootBody]
    split
    · split
      · exact foreign_cons rfl (foreign_cons rfl (foreign_single rfl))
      · exact foreign_cons rfl (foreign_single rfl)
    · exact foreign_single rfl
  case testDataOutNoStatusWithDataWithCrc | testDataOutNoStatusWithDataNoCrc | testDataOutBusy =>
    exact foreign_cons rfl (foreign_single rfl)
  case readEeStage3 | readApp | eraseFlashSector | writeFlashSector => exact foreign_nil
  all_goals exact foreign_single rfl

theorem handle_foreign (config : Config) (firmware : FirmwareState) (w : U8) : Foreign (handle config firmware w).2 := by
  simp only [handle]
  split
  case h_1 =>
    simp only [handleWriteIdle]
    split <;> exact foreign_nil
  case h_2 =>
    simp only [handleWriteCmd]
    repeat' split
    all_goals exact foreign_nil
  case h_3 =>
    simp only [handleWriteCmdGroup0, handleGroup]
    split <;> exact foreign_nil
  case h_4 =>
    simp only [handleWriteCmdGroup1, handleGroup]
    split <;> exact foreign_nil
  case h_5 cmd _ =>
    rcases (switchOf config cmd).handle_effect firmware w with ⟨_, none⟩ | ⟨s, _, events⟩
    · exact none ▸ foreign_nil
    · exact events ▸ body_foreign config cmd s _
  case h_6 =>
    simp only [readEeStage3, readEeStage3Body]
    split
    · exact foreign_single rfl
    · exact foreign_single rfl
  case h_7 =>
    simp only [readAppsPartition, readAppsPartitionBody]
    split
    · exact foreign_single rfl
    · exact foreign_single rfl
  case h_8 =>
    simp only [eraseFlashSector]
    split
    · simp only [eraseFlashSectorBody]
      split
      · exact foreign_append (foreign_cons rfl (foreign_flash _)) (foreign_single rfl)
      · exact foreign_cons rfl (foreign_single rfl)
    · exact foreign_nil
  case h_9 =>
    simp only [writeFlashSector]
    repeat' split
    · obtain ⟨ops, statusCode, events⟩ := writeFlashSectorBody_events config
        { firmware.statics.flash with sector := fun index =>
            if index = firmware.cmdByteCounter + 1 - 22 then w else firmware.statics.flash.sector index }
        firmware.world
      rw [events]
      refine foreign_append (foreign_append (foreign_cons rfl ?_) (foreign_flash ops)) (foreign_single rfl)
      split
      · exact foreign_single rfl
      · exact foreign_nil
    · exact foreign_nil
    · exact foreign_nil

/-- The data is disturbed, or the running command is about to do it. -/
structure Spoiled (board : LoopDevice) : Prop where
  foreign : Store.readAddr .eeStage1 ∉ board.pending
  broken : (∃ ref, Store.readAddr ref ∈ board.pending) ∨
    board.dma.engine.memory.readAddr ≠ at0 (.data .eeStage1) ∨ Store.pointCtrl2 ∉ board.pending ∧
      ((∃ data, Store.dmaCrc32 data ∈ board.pending) ∨
        (board.dma.engine.channels ctrl2Chan).readAddr.object ≠ .controlBlocksDataOut)

theorem Spoiled.not_armed (spoiled : Spoiled board) (waits : board.pending = []) : ¬ Armed config board.dma := by
  intro armed
  have none {store : Store} : store ∉ board.pending := waits ▸ List.not_mem_nil
  rcases spoiled.broken with ⟨_, member⟩ | source | ⟨_, ⟨_, member⟩ | ctrl2⟩
  · exact none member
  · exact source armed.readAddr
  · exact none member
  · exact ctrl2 (congrArg Address.object armed.ctrl2)

theorem store_source {store : Store} (mapped : Mapped state) (other : ∀ ref, store ≠ .readAddr ref)
    (performed : store.perform state = some done) :
    done.engine.memory.readAddr = state.engine.memory.readAddr := by
  cases store with
  | readAddr ref => exact False.elim (other ref rfl)
  | pointCtrl1 list trigger =>
    cases performed
    cases trigger <;> rfl
  | dmaCrc32 data =>
    obtain ⟨_, memory, same, rfl⟩ := mapped.helper_takes_ctrl2 performed
    exact same
  | statusCode | transCount | pointCtrl2 | startCtrl2 | pongToPing | startPing | pongToCtrl1 =>
    cases performed
    rfl

theorem store_ctrl2 {store : Store} (pointed : store ≠ .pointCtrl2) (helped : ∀ data, store ≠ .dmaCrc32 data)
    (performed : store.perform state = some done) :
    (done.engine.channels ctrl2Chan).readAddr = (state.engine.channels ctrl2Chan).readAddr := by
  cases store with
  | pointCtrl2 => exact False.elim (pointed rfl)
  | dmaCrc32 data => exact False.elim (helped data rfl)
  | pointCtrl1 list trigger =>
    cases performed
    cases trigger <;> rfl
  | startCtrl2 =>
    cases performed
    exact Channel.triggered_readAddr _
  | statusCode | readAddr | transCount | pongToPing | startPing | pongToCtrl1 =>
    cases performed
    rfl

theorem Spoiled.store {store : Store} {pending : List Store} {dma : State} (spoiled : Spoiled board)
    (mapped : Mapped board.dma) (found : board.pending = store :: pending)
    (performed : store.perform board.dma = some dma) : Spoiled { board with pending, dma } := by
  obtain ⟨foreign, broken⟩ := spoiled
  rw [found] at foreign broken
  refine ⟨fun member => foreign (List.mem_cons_of_mem _ member), ?_⟩
  by_cases sets : ∃ ref, store = .readAddr ref
  · obtain ⟨ref, rfl⟩ := sets
    cases performed
    refine .inr (.inl fun same => ?_)
    cases same
    exact foreign List.mem_cons_self
  have other : ∀ ref, store ≠ .readAddr ref := fun ref same => sets ⟨ref, same⟩
  rcases broken with ⟨ref, member⟩ | source | ⟨unpointed, broken⟩
  · exact .inl ⟨ref, (List.mem_cons.mp member).resolve_left fun same => other ref same.symm⟩
  · right; left
    rw [store_source mapped other performed]
    exact source
  · refine .inr (.inr ⟨fun member => unpointed (List.mem_cons_of_mem _ member), ?_⟩)
    by_cases helps : ∃ data, store = .dmaCrc32 data
    · obtain ⟨data, rfl⟩ := helps
      obtain ⟨_, _, _, rfl⟩ := mapped.helper_takes_ctrl2 performed
      right
      intro same
      cases same
    have unhelped : ∀ data, store ≠ .dmaCrc32 data := fun data same => helps ⟨data, same⟩
    rcases broken with ⟨data, member⟩ | ctrl2
    · exact .inl ⟨data, (List.mem_cons.mp member).resolve_left fun same => unhelped data same.symm⟩
    · right
      rw [store_ctrl2 (fun same => unpointed (same ▸ List.mem_cons_self)) unhelped performed]
      exact ctrl2

theorem foreign_stores {events : List Event} (foreign : Foreign events) :
    Store.readAddr .eeStage1 ∉ events.flatMap eventStores := by
  intro member
  obtain ⟨event, among, member⟩ := List.mem_flatMap.mp member
  have other := foreign event among
  cases event with
  | setData ref | startDataWithStatusCode _ ref => cases ref <;> simp [eventStores, setDataStores, usesPayload] at member other
  | startDataWithoutStatusCode crc => cases crc <;> simp [eventStores] at member
  | startStatusCode | startBusyCode | stopBusyCode | dmaCrc32 | flash | settingsSet | setFlashWriteLock | setScratch0
  | watchdogReboot => simp [eventStores] at member

/-- CTRL2 is pointed at the block only where the block is written. -/
theorem pointed_stores {events : List Event} (pointed : Store.pointCtrl2 ∈ events.flatMap eventStores) :
    ∃ ref, Store.readAddr ref ∈ events.flatMap eventStores := by
  obtain ⟨event, among, member⟩ := List.mem_flatMap.mp pointed
  have written (ref : DataRef) (here : Store.readAddr ref ∈ eventStores event) :
      ∃ ref, Store.readAddr ref ∈ events.flatMap eventStores := ⟨ref, List.mem_flatMap.mpr ⟨event, among, here⟩⟩
  cases event with
  | setData ref => exact written ref (by simp [eventStores, setDataStores])
  | startDataWithStatusCode _ ref => exact written ref (by simp [eventStores, setDataStores])
  | startDataWithoutStatusCode crc => cases crc <;> simp [eventStores] at member
  | startStatusCode | startBusyCode | stopBusyCode | dmaCrc32 | flash | settingsSet | setFlashWriteLock | setScratch0
  | watchdogReboot => simp [eventStores] at member

theorem command_foreign (config : Config) (loop : Loop) (w : U8) :
    Store.readAddr .eeStage1 ∉ (loop.step config (.write w)).2.flatMap eventStores :=
  foreign_stores (handle_foreign config loop.firmware w)

theorem Disturbs.spoils {w : U8} (disturbs : Disturbs config board.loop w) : Spoiled { board with
    loop := (board.loop.step config (.write w)).1, pending := (board.loop.step config (.write w)).2.flatMap eventStores } := by
  refine ⟨command_foreign config board.loop w, ?_⟩
  by_cases pointed : Store.pointCtrl2 ∈ (board.loop.step config (.write w)).2.flatMap eventStores
  · exact .inl (pointed_stores pointed)
  · obtain ⟨event, among, touches⟩ := disturbs
    refine .inr (.inr ⟨pointed, .inl ?_⟩)
    have reaches (store : Store) (here : store ∈ eventStores event) :
        store ∈ (board.loop.step config (.write w)).2.flatMap eventStores := List.mem_flatMap.mpr ⟨event, among, here⟩
    cases event with
    | dmaCrc32 data => exact ⟨data, reaches _ (List.mem_singleton_self _)⟩
    | setData | startDataWithStatusCode =>
      exact False.elim (pointed (reaches _ (by simp [eventStores, setDataStores])))
    | _ => cases touches

theorem Spoiled.command {w : U8} (spoiled : Spoiled board) (waits : board.pending = []) : Spoiled { board with
    loop := (board.loop.step config (.write w)).1, pending := (board.loop.step config (.write w)).2.flatMap eventStores } := by
  refine ⟨command_foreign config board.loop w, ?_⟩
  have none {store : Store} : store ∉ board.pending := waits ▸ List.not_mem_nil
  by_cases pointed : Store.pointCtrl2 ∈ (board.loop.step config (.write w)).2.flatMap eventStores
  · exact .inl (pointed_stores pointed)
  · rcases spoiled.broken with ⟨_, member⟩ | source | ⟨_, ⟨_, member⟩ | ctrl2⟩
    · exact False.elim (none member)
    · exact .inr (.inl source)
    · exact False.elim (none member)
    · exact .inr (.inr ⟨pointed, .inr ctrl2⟩)

theorem Spoiled.unit (spoiled : Spoiled board) (mapped : Mapped board.dma)
    (stepped : board.dma.engine.step (bus read) index = some engine) : Spoiled { board with dma.engine := engine } := by
  refine ⟨spoiled.foreign, spoiled.broken.imp_right (Or.imp ?_ (And.imp_right (Or.imp_right ?_)))⟩
  · intro source
    rw [(step_data stepped).1]
    exact source
  · intro ctrl2
    rw [(mapped.core_alike stepped rfl).reads]
    exact ctrl2

theorem Spoiled.run {counter : Nat} (spoiled : Spoiled board) (mapped : Mapped board.dma)
    (inTable : board.loop.InTable counter) (past : 503 ≤ counter)
    (room : counter + (reads (inputs actions)).length ≤ 507)
    (run : LoopDevice.run config board actions = some last) : Spoiled last := by
  induction actions generalizing board counter with
  | nil =>
    cases run
    exact spoiled
  | cons action rest ih =>
    obtain ⟨next, stepped, later⟩ := LoopDevice.run_cons run
    have mapped' := mapped.step stepped
    rcases LoopDevice.step_cases stepped with ⟨input, rfl, waits, rfl⟩ |
      ⟨store, pending, dma, rfl, found, rfl, performed⟩ | ⟨index, engine, rfl, rfl, moved⟩
    · cases input with
      | read r =>
        have whole : (reads (inputs (.byte (.read r) :: rest))).length = (reads (inputs rest)).length + 1 := rfl
        have counted := table_counts config inTable r (by omega) (by omega)
        refine ih ?_ mapped' counted (by omega) (by omega) later
        rw [table_silent inTable r (by omega) (by omega)]
        have spoiled : Spoiled { board with pending := [] } := waits ▸ spoiled
        exact ⟨spoiled.foreign, spoiled.broken⟩
      | write w => exact ih (spoiled.command waits) mapped' ⟨inTable.handler, inTable.counter⟩ past room later
    · exact ih (spoiled.store mapped found performed) mapped' inTable past room later
    · exact ih (spoiled.unit mapped moved) mapped' inTable past room later

theorem inputs_split {first : List BusByte} {input : BusByte} {more : List BusByte}
    (found : inputs actions = first ++ input :: more) :
    ∃ before after, actions = before ++ .byte input :: after ∧ inputs before = first := by
  induction actions generalizing first with
  | nil => cases first <;> cases found
  | cons action rest ih =>
    cases action with
    | store =>
      obtain ⟨before, after, split, same⟩ := ih found
      exact ⟨.store :: before, after, by rw [split]; rfl, same⟩
    | unit channel =>
      obtain ⟨before, after, split, same⟩ := ih found
      exact ⟨.unit channel :: before, after, by rw [split]; rfl, same⟩
    | byte here =>
      cases first with
      | nil =>
        obtain ⟨rfl, _⟩ := List.cons.inj found
        exact ⟨[], rest, rfl, rfl⟩
      | cons head first =>
        obtain ⟨rfl, later⟩ := List.cons.inj found
        obtain ⟨before, after, split, same⟩ := ih later
        exact ⟨.byte here :: before, after, by rw [split]; rfl, congrArg (here :: ·) same⟩

theorem AlwaysArmed.no_late {start : LoopDevice} (always : AlwaysArmed config start actions)
    (mapped : Mapped start.dma) (bounds : ∀ inputs, (start.loop.after config inputs).InBounds)
    (run : LoopDevice.run config start actions = some last) : NoLateData config start actions := by
  rintro before w rest board rfl reached disturbs past found
  obtain ⟨same, reached', later⟩ := LoopDevice.run_split run
  cases reached.symm.trans reached'
  obtain ⟨next, stepped, later⟩ := LoopDevice.run_cons later
  obtain ⟨first, more, split, length⟩ := reads_split found
  obtain ⟨middle, after, rfl, rfl⟩ := inputs_split split
  obtain ⟨late, reachedLate, last508⟩ := LoopDevice.run_split later
  obtain ⟨_, injected, _⟩ := LoopDevice.run_cons last508
  have mappedNext := (mapped.run reached).step stepped
  rcases LoopDevice.step_cases stepped with ⟨_, taken, _, rfl⟩ | ⟨_, _, _, other, _⟩ | ⟨_, _, other, _⟩
  · cases taken
    have high : board.loop.reader.osdsysCounter ≤ 507 := by
      have bound := bounds (inputs before)
      rw [← LoopDevice.run_loop reached] at bound
      exact bound past.1
    have inTable : (board.loop.step config (.write w)).1.InTable board.loop.reader.osdsysCounter := ⟨past.1, rfl⟩
    have room : board.loop.reader.osdsysCounter + (reads (inputs middle)).length ≤ 507 := by omega
    have spoiled := disturbs.spoils.run mappedNext inTable past.2 room reachedLate
    have counted := (pastTest_counts config inTable past.2 room).1
    rw [← LoopDevice.run_loop reachedLate] at counted
    have injects : late.loop.Injects config 0x00 :=
      (injects_iff _ _).mpr ⟨⟨counted.handler, by rw [counted.counter]; omega⟩, rfl⟩
    have whole : LoopDevice.run config start (before ++ .byte (.write w) :: middle) = some late := by
      rw [LoopDevice.run_append, reached, Option.bind_some, LoopDevice.run, stepped]
      exact reachedLate
    have armed := always (before ++ .byte (.write w) :: middle) 0x00 after late (by simp) whole injects
    rcases LoopDevice.step_cases injected with ⟨_, _, waits, _⟩ | ⟨_, _, _, other, _⟩ | ⟨_, _, other, _⟩
    · exact spoiled.not_armed waits armed
    · cases other
    · cases other
  · cases other
  · cases other

theorem powerUp_fresh (flash : Flash) (settings : SettingsState) :
    ¬ (LoopDevice.powerUp flash settings).loop.PastTest := by
  rintro ⟨handler, _⟩
  cases handler

/-- Every injection finds the payload when no answer has still to fetch its data
at byte 503 and no command disturbs the data after it. A run that disturbs the
data has an injection that does not find it. -/
theorem payload_armed {flash : Flash} {settings : SettingsState}
    (run : LoopDevice.run config (.powerUp flash settings) actions = some last) :
    (NoEarlyData config (.powerUp flash settings) actions ∧ NoLateData config (.powerUp flash settings) actions →
      AlwaysArmed config (.powerUp flash settings) actions) ∧
      (AlwaysArmed config (.powerUp flash settings) actions → NoLateData config (.powerUp flash settings) actions) := by
  have bounds := fun inputs => @powerUp_inBounds config flash settings inputs
  constructor
  · rintro ⟨noEarly, noLate⟩
    exact noLate.always_armed noEarly initial_mapped (bounds []) (powerUp_fresh flash settings) run
  · intro always
    exact always.no_late initial_mapped bounds run

/-- A test of every board that a run comes to. -/
def LoopDevice.always (config : Config) (test : LoopDevice → Bool) : LoopDevice → List LoopAction → Bool
  | board, [] => test board
  | board, action :: rest =>
    test board && match board.step config action with
      | some next => always config test next rest
      | none => true

theorem LoopDevice.always_reached {test : LoopDevice → Bool} {before : List LoopAction}
    (passes : LoopDevice.always config test board (before ++ rest) = true)
    (run : LoopDevice.run config board before = some last) : test last = true := by
  induction before generalizing board with
  | nil =>
    cases run
    cases rest with
    | nil => exact passes
    | cons => exact (Bool.and_eq_true_iff.mp passes).1
  | cons action before ih =>
    obtain ⟨next, stepped, later⟩ := LoopDevice.run_cons run
    have continues := (Bool.and_eq_true_iff.mp passes).2
    rw [stepped] at continues
    exact ih continues later

def tableStart : List LoopAction :=
  (osdsysHeader ++ List.replicate 502 0x00).map fun r => .byte (.read r)

def testByte : List LoopAction := .byte (.read 0xE0) :: List.replicate 3 .store

def zeroReads (count : Nat) : List LoopAction := List.replicate count (.byte (.read 0x00))

def blankStart : LoopDevice := .powerUp (fun _ => 0xFF) ⟨.defaults, WearLeveling.clearCache⟩

theorem payload_armed_undisturbed :
    ∃ last, LoopDevice.run default blankStart (tableStart ++ testByte ++ zeroReads 5) = some last ∧
      AlwaysArmed default blankStart (tableStart ++ testByte ++ zeroReads 5) := by
  have finishes : (LoopDevice.run default blankStart (tableStart ++ testByte ++ zeroReads 5)).isSome := by
    decide +kernel
  have quiet : LoopDevice.always default (fun board => board.dma.quiet) blankStart
      (tableStart ++ testByte ++ zeroReads 5) := by
    decide +kernel
  obtain ⟨last, run⟩ := Option.isSome_iff_exists.mp finishes
  refine ⟨last, run, (payload_armed run).1 ⟨?_, ?_⟩⟩
  · intro before r rest board split reached _ _
    rw [split] at quiet
    exact .quiet (LoopDevice.always_reached quiet reached)
  · intro before w rest board split
    have member : LoopAction.byte (.write w) ∈ tableStart ++ testByte ++ zeroReads 5 := by
      rw [split]
      exact List.mem_append_right _ List.mem_cons_self
    rcases List.mem_append.mp member with member | zeros
    · rcases List.mem_append.mp member with table | test
      · obtain ⟨_, _, same⟩ := List.mem_map.mp table
        cases same
      · rcases List.mem_cons.mp test with same | stores
        · cases same
        · cases List.eq_of_mem_replicate stores
    · cases List.eq_of_mem_replicate zeros

def sectorSizeAsked : List LoopAction :=
  Client.Call.getFlashSectorSize.poked.map (fun w => .byte (.write w)) ++ List.replicate 6 .store

def sectorSizeSent : List LoopAction :=
  [0, 0, 0, 0, 2, 2, 0, 0, 0, 0, 2, 2, 2, 2, 1, 1, 1, 1, 3, 3, 3, 3, 0, 0, 0, 0, 2, 2, 2, 2, 0, 0, 0, 0, 2,
    0, 0, 0, 0].map .unit

/-- The sector size is asked for between byte 503 and byte 508. -/
def lateData : List LoopAction := tableStart ++ testByte ++ sectorSizeAsked ++ sectorSizeSent ++ zeroReads 4

/-- It is asked for before byte 503, and its data block is fetched after it. -/
def earlyData : List LoopAction :=
  tableStart ++ sectorSizeAsked ++ testByte ++ sectorSizeSent.take 18 ++ zeroReads 4

instance (config : Config) (loop : Loop) (r : U8) : Decidable (loop.Injects config r) :=
  inferInstanceAs (Decidable (_ ∧ _))

/-- What is injected then is the sector size. -/
theorem payload_replaced : ¬ AlwaysArmed default blankStart (lateData ++ [.byte (.read 0x00)]) := by
  intro always
  have facts : (LoopDevice.run default blankStart lateData).map (fun board =>
      (decide (board.loop.Injects default 0x00), board.dma.engine.memory.readAddr)) =
        some (true, at0 (.data (.word 4096))) := by
    decide +kernel
  obtain ⟨board, run, same⟩ := Option.map_eq_some_iff.mp facts
  obtain ⟨injects, readAddr⟩ := Prod.mk.inj same
  have armed := always lateData 0x00 [] board rfl run (of_decide_eq_true injects)
  rw [armed.readAddr] at readAddr
  cases readAddr

/-- The first condition is needed as well: CTRL2 has fetched stage 1 for the
sector size, and is past the block. -/
theorem payload_passed_by : ¬ AlwaysArmed default blankStart (earlyData ++ [.byte (.read 0x00)]) := by
  intro always
  have facts : (LoopDevice.run default blankStart earlyData).map (fun board =>
      (decide (board.loop.Injects default 0x00), (board.dma.engine.channels ctrl2Chan).readAddr)) =
        some (true, ⟨.controlBlocksDataOut, 16⟩) := by
    decide +kernel
  obtain ⟨board, run, same⟩ := Option.map_eq_some_iff.mp facts
  obtain ⟨injects, ctrl2⟩ := Prod.mk.inj same
  have armed := always earlyData 0x00 [] board rfl run (of_decide_eq_true injects)
  rw [armed.ctrl2] at ctrl2
  cases ctrl2

end Fruitchip.DataOut
