import Fruitchip.Proofs.ReaderSteps

/-! Skipping the OSDSYS hook once. The request is a flag that the command
handlers set and the read handlers consume; the read handlers look at it at
byte 503 of the syscall table and clear it again at byte 508. -/

namespace Fruitchip.Firmware
open Embedded

variable {config : Config} {loop : Loop}

def BusByte.read? : BusByte → Option U8
  | .read r => some r
  | .write _ => none

def reads (inputs : List BusByte) : List U8 := inputs.filterMap BusByte.read?

@[simp] theorem reads_nil : reads [] = [] := rfl

@[simp] theorem reads_cons_read (r : U8) (inputs : List BusByte) :
    reads (.read r :: inputs) = r :: reads inputs := rfl

@[simp] theorem reads_cons_write (w : U8) (inputs : List BusByte) :
    reads (.write w :: inputs) = reads inputs := rfl

@[simp] theorem reads_append (first rest : List BusByte) : reads (first ++ rest) = reads first ++ reads rest :=
  List.filterMap_append

theorem reads_split {inputs : List BusByte} {index : Nat} {r : U8} (found : (reads inputs)[index]? = some r) :
    ∃ before after, inputs = before ++ .read r :: after ∧ (reads before).length = index := by
  induction inputs generalizing index with
  | nil => cases found
  | cons input rest ih =>
    cases input with
    | write w =>
      obtain ⟨before, after, split, length⟩ := ih found
      exact ⟨.write w :: before, after, by rw [split]; rfl, length⟩
    | read first =>
      cases index with
      | zero =>
        cases found
        exact ⟨[], rest, rfl, rfl⟩
      | succ index =>
        obtain ⟨before, after, split, length⟩ := ih found
        exact ⟨.read first :: before, after, by rw [split]; rfl, by rw [reads_cons_read, List.length_cons, length]⟩

abbrev Loop.after (config : Config) (loop : Loop) (inputs : List BusByte) : Loop :=
  ((mainLoop config).run loop inputs).1

theorem Loop.after_append (first rest : List BusByte) :
    loop.after config (first ++ rest) = (loop.after config first).after config rest := by
  rw [Loop.after, Mealy.run_append]

theorem Loop.after_cons (input : BusByte) (rest : List BusByte) :
    loop.after config (input :: rest) = (loop.step config input).1.after config rest := rfl

theorem Loop.after_middle (before : List BusByte) (input : BusByte) (rest : List BusByte) :
    loop.after config (before ++ input :: rest) = ((loop.after config before).step config input).1.after config rest := by
  rw [Loop.after_append]
  rfl

/-- The byte completes a DISABLE_NEXT_OSDSYS_HOOK command, which answers OK. -/
def Loop.AnswersDisable (config : Config) (loop : Loop) (w : U8) : Prop :=
  loop.firmware.writeHandler = .command .disableNextOsdsysHook ∧
    .startStatusCode modchipCmdResultOk ∈ (loop.step config (.write w)).2

/-- The syscall table handler starts the injection at this byte. -/
def Loop.Injects (config : Config) (loop : Loop) (r : U8) : Prop :=
  loop.reader.readHandler = .findOsdsysSyscallTable ∧
    .startDataWithoutStatusCode true ∈ (loop.step config (.read r)).2

/-- The syscall table handler goes to `skip` at this byte. -/
def Loop.Skips (loop : Loop) (r : U8) : Prop :=
  loop.reader.readHandler = .findOsdsysSyscallTable ∧ loop.reader.osdsysCounter + 1 = 503 ∧ r = 0xE0 ∧
    loop.firmware.world.disableNextOsdsysHook = true

/-- The syscall table handler has received a number of bytes. -/
structure Loop.InTable (loop : Loop) (counter : Nat) : Prop where
  handler : loop.reader.readHandler = .findOsdsysSyscallTable
  counter : loop.reader.osdsysCounter = counter

/-- Byte 503 of the table, where the flag is looked at, has gone by. -/
def Loop.PastTest (loop : Loop) : Prop :=
  loop.reader.readHandler = .findOsdsysSyscallTable ∧ 503 ≤ loop.reader.osdsysCounter

theorem Switch.handle_effect (switch : Switch) (firmware : FirmwareState) (w : U8) :
    ((switch.handle firmware w).1.world = firmware.world ∧ (switch.handle firmware w).2 = []) ∨
      ∃ s, (switch.handle firmware w).1.world = (switch.body s firmware.world).1 ∧
        (switch.handle firmware w).2 = (switch.body s firmware.world).2 := by
  simp only [Switch.handle]
  repeat' split
  all_goals first | exact .inl ⟨rfl, rfl⟩ | exact .inr ⟨_, rfl, rfl⟩

theorem body_disable (cmd : Cmd) (other : cmd ≠ .disableNextOsdsysHook) (s : Statics) (world : World) :
    ((switchOf config cmd).body s world).1.disableNextOsdsysHook = world.disableNextOsdsysHook := by
  cases cmd
  case disableNextOsdsysHook => exact False.elim (other rfl)
  case pinConfig =>
    simp only [switchOf, handleWritePinConfig, pinConfigBody]
    repeat' split
    all_goals rfl
  case getPartitionSize =>
    simp only [switchOf, handleWriteGetPartitionSize, getPartitionSizeBody]
    split <;> rfl
  case writeLock =>
    simp only [switchOf, handleWriteWriteLock, writeLockBody]
    split <;> rfl
  case reboot =>
    simp only [switchOf, handleWriteReboot, rebootBody]
    split <;> rfl
  case kvGet =>
    simp only [switchOf, handleWriteKvGet, kvGetBody]
    split <;> rfl
  case kvSet =>
    simp only [switchOf, handleWriteKvSet, kvSetBody]
    split <;> rfl
  all_goals rfl

theorem handle_disable (firmware : FirmwareState) (w : U8)
    (other : firmware.writeHandler ≠ .command .disableNextOsdsysHook) :
    (handle config firmware w).1.world.disableNextOsdsysHook = firmware.world.disableNextOsdsysHook := by
  simp only [handle]
  split
  next handler =>
    simp only [handleWriteIdle]
    split <;> rfl
  next handler =>
    simp only [handleWriteCmd]
    repeat' split
    all_goals rfl
  next handler =>
    simp only [handleWriteCmdGroup0, handleGroup]
    split <;> rfl
  next handler =>
    simp only [handleWriteCmdGroup1, handleGroup]
    split <;> rfl
  next cmd handler =>
    have different : cmd ≠ .disableNextOsdsysHook := fun same => other (same ▸ handler)
    rcases (switchOf config cmd).handle_effect firmware w with ⟨same, _⟩ | ⟨s, done, _⟩
    · rw [same]
    · rw [done, body_disable cmd different]
  next handler =>
    simp only [readEeStage3, readEeStage3Body]
    split <;> rfl
  next handler =>
    simp only [readAppsPartition, readAppsPartitionBody]
    split <;> rfl
  next handler =>
    simp only [eraseFlashSector, eraseFlashSectorBody]
    repeat' split
    all_goals rfl
  next handler =>
    simp only [writeFlashSector, writeFlashSectorBody]
    repeat' split
    all_goals rfl

theorem write_disable (config : Config) (loop : Loop) (w : U8) :
    (¬ loop.AnswersDisable config w ∧ (loop.step config (.write w)).1.firmware.world.disableNextOsdsysHook =
        loop.firmware.world.disableNextOsdsysHook) ∨
      (loop.AnswersDisable config w ∧
        (loop.step config (.write w)).1.firmware.world.disableNextOsdsysHook = true) := by
  by_cases handler : loop.firmware.writeHandler = .command .disableNextOsdsysHook
  · have switched : handle config loop.firmware w = handleWriteDisableNextOsdsysHook.handle loop.firmware w := by
      simp only [handle, handler, switchOf]
    simp only [Loop.AnswersDisable, Loop.step, handler, switched, true_and]
    rcases handleWriteDisableNextOsdsysHook.handle_effect loop.firmware w with ⟨world, events⟩ | ⟨s, world, events⟩
    · rw [world, events]
      exact .inl ⟨List.not_mem_nil, rfl⟩
    · rw [world, events]
      exact .inr ⟨List.mem_singleton_self _, rfl⟩
  · exact .inl ⟨fun answers => handler answers.1, handle_disable loop.firmware w handler⟩

theorem write_asked (config : Config) (w : U8) (asked : loop.firmware.world.disableNextOsdsysHook = true) :
    (loop.step config (.write w)).1.firmware.world.disableNextOsdsysHook = true := by
  rcases write_disable config loop w with ⟨_, same⟩ | ⟨_, set⟩
  · rw [same, asked]
  · exact set

theorem table_counts_only {counter : Nat} (inTable : loop.InTable counter) (r : U8) (test : counter + 1 ≠ 503)
    (last : counter + 1 ≠ 508) :
    (loop.step config (.read r)).1 = { loop with reader.osdsysCounter := counter + 1 } := by
  simp only [Loop.step, handleRead, inTable.handler, handleReadFindOsdsysSyscallTable, inTable.counter, if_neg last,
    if_neg test]

theorem table_counts (config : Config) {counter : Nat} (inTable : loop.InTable counter) (r : U8)
    (test : counter + 1 ≠ 503) (last : counter + 1 ≠ 508) :
    (loop.step config (.read r)).1.InTable (counter + 1) := by
  rw [table_counts_only inTable r test last]
  exact ⟨inTable.handler, rfl⟩

theorem table_test {counter : Nat} (inTable : loop.InTable counter) (test : counter + 1 = 503)
    (clear : loop.firmware.world.disableNextOsdsysHook = false) :
    (loop.step config (.read 0xE0)).1.InTable (counter + 1) := by
  constructor
  all_goals
    simp [Loop.step, handleRead, inTable.handler, handleReadFindOsdsysSyscallTable, inTable.counter, test, clear]

theorem injects_iff (loop : Loop) (r : U8) : loop.Injects config r ↔ loop.InTable 507 ∧ r = 0x00 := by
  constructor
  · rintro ⟨handler, started⟩
    simp only [Loop.step, handleRead, handler, handleReadFindOsdsysSyscallTable] at started
    split at started
    next last =>
      refine ⟨⟨handler, by omega⟩, ?_⟩
      split at started
      · cases started
      next zero => exact Decidable.not_not.mp zero
    · repeat' split at started
      all_goals simp at started
  · rintro ⟨inTable, rfl⟩
    refine ⟨inTable.handler, ?_⟩
    simp [Loop.step, handleRead, inTable.handler, handleReadFindOsdsysSyscallTable, inTable.counter]

theorem pastTest_counts (config : Config) {counter : Nat} (inTable : loop.InTable counter) (past : 503 ≤ counter)
    {inputs : List BusByte} (room : counter + (reads inputs).length ≤ 507) :
    (loop.after config inputs).InTable (counter + (reads inputs).length) ∧
      (loop.firmware.world.disableNextOsdsysHook = true →
        (loop.after config inputs).firmware.world.disableNextOsdsysHook = true) := by
  induction inputs generalizing loop counter with
  | nil => exact ⟨inTable, id⟩
  | cons input rest ih =>
    rw [Loop.after_cons]
    cases input with
    | write w =>
      have inTable : (loop.step config (.write w)).1.InTable counter := ⟨inTable.handler, inTable.counter⟩
      obtain ⟨counted, kept⟩ := ih inTable past room
      exact ⟨counted, fun asked => kept (write_asked config w asked)⟩
    | read r =>
      rw [reads_cons_read, List.length_cons] at room ⊢
      have next := table_counts config inTable r (by omega) (by omega)
      obtain ⟨counted, kept⟩ := ih next (by omega) (by omega)
      rw [Nat.add_right_comm, Nat.add_assoc] at counted
      refine ⟨counted, fun asked => kept ?_⟩
      rw [table_counts_only inTable r (by omega) (by omega)]
      exact asked

/-- No request is answered in a stream. -/
def Loop.Unasked (config : Config) (loop : Loop) (inputs : List BusByte) : Prop :=
  ∀ before w rest, inputs = before ++ .write w :: rest → ¬ (loop.after config before).AnswersDisable config w

theorem Loop.Unasked.tail {input : BusByte} {rest : List BusByte} (unasked : loop.Unasked config (input :: rest)) :
    (loop.step config input).1.Unasked config rest := by
  rintro before w more rfl
  exact unasked (input :: before) w more rfl

theorem read_clear (r : U8) (clear : loop.firmware.world.disableNextOsdsysHook = false) :
    (loop.step config (.read r)).1.firmware.world.disableNextOsdsysHook = false := by
  simp only [Loop.step, handleRead, handleReadFindOsdsysSyscallTable, clear]
  repeat' split
  all_goals rfl

theorem step_clear (input : BusByte) {rest : List BusByte} (unasked : loop.Unasked config (input :: rest))
    (clear : loop.firmware.world.disableNextOsdsysHook = false) :
    (loop.step config input).1.firmware.world.disableNextOsdsysHook = false := by
  cases input with
  | read r => exact read_clear r clear
  | write w =>
    rcases write_disable config loop w with ⟨_, same⟩ | ⟨answers, _⟩
    · rw [same, clear]
    · exact False.elim (unasked [] w rest rfl answers)

theorem stays_clear {inputs : List BusByte} (unasked : loop.Unasked config inputs)
    (clear : loop.firmware.world.disableNextOsdsysHook = false) :
    (loop.after config inputs).firmware.world.disableNextOsdsysHook = false := by
  induction inputs generalizing loop with
  | nil => exact clear
  | cons input rest ih => exact ih unasked.tail (step_clear input unasked clear)

theorem unasked_counts {counter : Nat} (inTable : loop.InTable counter)
    (clear : loop.firmware.world.disableNextOsdsysHook = false) {inputs : List BusByte}
    (unasked : loop.Unasked config inputs) (room : counter + (reads inputs).length ≤ 507)
    (test : ∀ index, counter + index + 1 = 503 → index < (reads inputs).length →
      (reads inputs)[index]? = some 0xE0) :
    (loop.after config inputs).InTable (counter + (reads inputs).length) := by
  induction inputs generalizing loop counter with
  | nil => exact inTable
  | cons input rest ih =>
    rw [Loop.after_cons]
    have still := step_clear input unasked clear
    cases input with
    | write w => exact ih ⟨inTable.handler, inTable.counter⟩ still unasked.tail room test
    | read r =>
      rw [reads_cons_read, List.length_cons] at room test ⊢
      have counted : (loop.step config (.read r)).1.InTable (counter + 1) := by
        by_cases here : counter + 1 = 503
        · have zero := test 0 here (by omega)
          cases zero
          exact table_test inTable here clear
        · exact table_counts config inTable r here (by omega)
      have more := ih counted still unasked.tail (by omega) fun index place inside => by
        have shifted := test (index + 1) (by omega) (by omega)
        exact shifted
      rwa [Nat.add_right_comm, Nat.add_assoc] at more

def Loop.Waiting (loop : Loop) : Prop := loop.firmware.world.disableNextOsdsysHook = true ∧ ¬ loop.PastTest

theorem other_handler (config : Config) (other : loop.reader.readHandler ≠ .findOsdsysSyscallTable) (r : U8) :
    (loop.step config (.read r)).1.firmware.world.disableNextOsdsysHook =
        loop.firmware.world.disableNextOsdsysHook ∧ ¬ (loop.step config (.read r)).1.PastTest := by
  by_cases elf : loop.reader.readHandler = .findOsdsysElf
  · have next : (loop.step config (.read r)).1 = { loop with reader := handleReadFindOsdsysElf loop.reader r } := by
      simp only [Loop.step, handleRead, elf]
    rw [next]
    refine ⟨rfl, ?_⟩
    rintro ⟨handler, late⟩
    rcases elf_cases loop.reader r with ⟨reset, _⟩ | ⟨entered, _⟩ | ⟨counted, _⟩
    · rw [reset] at handler
      exact other handler
    · rw [entered] at late
      exact Nat.not_succ_le_zero _ late
    · rw [counted] at handler
      exact other handler
  · have outside : loop.reader.readHandler.inOsdsys = false := by
      cases handler : loop.reader.readHandler <;> first | rfl | contradiction
    obtain ⟨same, next⟩ := outside_step config outside loop.firmware.world.disableNextOsdsysHook r
    refine ⟨same, ?_⟩
    rintro ⟨handler, _⟩
    have entered : (handleRead config loop.reader loop.firmware.world.disableNextOsdsysHook r).1.readHandler =
        .findOsdsysSyscallTable := handler
    rcases next with stays | ⟨_, _, found⟩
    · have still := stays.outside
      rw [entered] at still
      cases still
    · rw [found] at entered
      cases entered

theorem Loop.Waiting.step (waiting : loop.Waiting) {input : BusByte}
    (unskipped : ∀ r, input = .read r → ¬ loop.Skips r) : (loop.step config input).1.Waiting := by
  obtain ⟨asked, before⟩ := waiting
  cases input with
  | write w =>
    exact ⟨write_asked config w asked, before⟩
  | read r =>
    by_cases handler : loop.reader.readHandler = .findOsdsysSyscallTable
    · have early : loop.reader.osdsysCounter < 503 := Nat.lt_of_not_le fun late => before ⟨handler, late⟩
      by_cases test : loop.reader.osdsysCounter + 1 = 503
      · have wrong : r ≠ 0xE0 := fun right => unskipped r rfl ⟨handler, test, right, asked⟩
        have result : (loop.step config (.read r)).1 =
            ⟨{ loop.reader with readHandler := .idle, osdsysCounter := 0 }, loop.firmware⟩ := by
          simp only [Loop.step, handleRead, handler, handleReadFindOsdsysSyscallTable, test, if_pos wrong,
            Nat.reduceEqDiff, ite_false, ite_true]
        rw [result]
        exact ⟨asked, fun past => by cases past.1⟩
      · have counted := table_counts config ⟨handler, rfl⟩ r test (by omega)
        have flag : (loop.step config (.read r)).1.firmware.world.disableNextOsdsysHook = true := by
          simp [Loop.step, handleRead, handler, handleReadFindOsdsysSyscallTable, test, asked,
            show loop.reader.osdsysCounter + 1 ≠ 508 by omega]
        refine ⟨flag, ?_⟩
        intro past
        have late := past.2
        rw [counted.counter] at late
        omega
    · obtain ⟨same, early⟩ := other_handler config handler r
      exact ⟨same.trans asked, early⟩

theorem Loop.Waiting.no_injection (waiting : loop.Waiting) (r : U8) : ¬ loop.Injects config r := by
  intro injects
  obtain ⟨⟨handler, counter⟩, _⟩ := (injects_iff loop r).mp injects
  exact waiting.2 ⟨handler, by omega⟩

/-- While it waits, nothing is injected before a skip. -/
theorem Loop.Waiting.until_skip (waiting : loop.Waiting) (inputs : List BusByte) :
    (loop.after config inputs).Waiting ∨ ∃ first skipped last, inputs = first ++ .read skipped :: last ∧
      (loop.after config first).Skips skipped := by
  have step (state : Loop) (input : BusByte) (kept : state.Waiting)
      (unskipped : ¬ ∃ r, input = .read r ∧ state.Skips r) : (state.step config input).1.Waiting :=
    kept.step fun r same skips => unskipped ⟨r, same, skips⟩
  rcases (mainLoop config).run_preserves_until step waiting inputs with kept | ⟨first, input, last, split, broken⟩
  · exact .inl kept
  · obtain ⟨r, rfl, skips⟩ := broken
    exact .inr ⟨first, r, last, split, skips⟩

def Loop.InBounds (loop : Loop) : Prop :=
  loop.reader.readHandler = .findOsdsysSyscallTable → loop.reader.osdsysCounter ≤ 507

theorem Loop.InBounds.step (bounds : loop.InBounds) (config : Config) (input : BusByte) :
    (loop.step config input).1.InBounds := by
  cases input with
  | write w => exact bounds
  | read r =>
    intro entered
    by_cases handler : loop.reader.readHandler = .findOsdsysSyscallTable
    · have before := bounds handler
      simp only [Loop.step, handleRead, handler, handleReadFindOsdsysSyscallTable] at entered ⊢
      repeat' split
      all_goals simp_all
      all_goals omega
    · have early := (other_handler config handler r).2
      have below : ¬ 503 ≤ (loop.step config (.read r)).1.reader.osdsysCounter := fun late => early ⟨entered, late⟩
      omega

theorem powerUp_inBounds (flash : Flash) (settings : SettingsState) (inputs : List BusByte) :
    ((Loop.powerUp flash settings).after config inputs).InBounds :=
  (mainLoop config).run_preserves (fun _ input bounds => bounds.step config input) (fun started => by cases started) inputs

/-- What the command promises in a run. -/
structure OneShot (config : Config) (start : Loop) (inputs : List BusByte) : Prop where
  /-- Once the command is answered, a skip comes before any injection. -/
  held : ∀ before w middle r rest, inputs = before ++ .write w :: (middle ++ .read r :: rest) →
    (start.after config before).AnswersDisable config w →
    (start.after config (before ++ .write w :: middle)).Injects config r →
    ∃ first skipped last, middle = first ++ .read skipped :: last ∧
      (start.after config (before ++ .write w :: first)).Skips skipped
  /-- After a skip, and with no further command, a complete match injects. -/
  resumed : ∀ before r gap table rest, inputs = before ++ .read r :: (gap ++ table ++ .read 0x00 :: rest) →
    (start.after config before).Skips r →
    (start.after config (before ++ [.read r])).Unasked config (gap ++ table) →
    (start.after config (before ++ .read r :: gap)).InTable 0 →
    (reads table).length = 507 → (reads table)[502]? = some 0xE0 →
    (start.after config (before ++ .read r :: (gap ++ table))).Injects config 0x00

/-- Where a command is answered between the test and the injection, byte 508 of
the table is not the one that is waited for. -/
def NoLateRequest (config : Config) (start : Loop) (inputs : List BusByte) : Prop :=
  ∀ before w rest, inputs = before ++ .write w :: rest → (start.after config before).AnswersDisable config w →
    (start.after config before).PastTest →
    (reads rest)[507 - (start.after config before).reader.osdsysCounter]? ≠ some 0x00

theorem skip_clears {r : U8} (skips : loop.Skips r) :
    (loop.step config (.read r)).1.firmware.world.disableNextOsdsysHook = false := by
  obtain ⟨handler, test, rfl, asked⟩ := skips
  simp [Loop.step, handleRead, handler, handleReadFindOsdsysSyscallTable, test, asked]

theorem Loop.Unasked.append {first rest : List BusByte} (unasked : loop.Unasked config (first ++ rest)) :
    loop.Unasked config first ∧ (loop.after config first).Unasked config rest := by
  constructor
  · rintro before w more rfl
    exact unasked before w (more ++ rest) (by simp)
  · rintro before w more rfl
    have here := unasked (first ++ before) w more (by simp)
    rwa [Loop.after_append] at here

theorem match_injects {table : List BusByte} (inTable : loop.InTable 0)
    (clear : loop.firmware.world.disableNextOsdsysHook = false) (unasked : loop.Unasked config table)
    (whole : (reads table).length = 507) (test : (reads table)[502]? = some 0xE0) :
    (loop.after config table).Injects config 0x00 := by
  have counted := unasked_counts inTable clear unasked (by omega) fun index place _ => by
    obtain rfl : index = 502 := by omega
    exact test
  rw [whole] at counted
  exact (injects_iff _ _).mpr ⟨counted, rfl⟩

theorem OneShot.no_late {start : Loop} {inputs : List BusByte} (oneShot : OneShot config start inputs)
    (bounds : ∀ before, (start.after config before).InBounds) : NoLateRequest config start inputs := by
  rintro before w rest rfl answers past found
  obtain ⟨middle, more, rfl, length⟩ := reads_split found
  have inTable : ((start.after config before).step config (.write w)).1.InTable
      (start.after config before).reader.osdsysCounter := ⟨past.1, rfl⟩
  have low := past.2
  have high := bounds before past.1
  obtain ⟨counted, _⟩ := pastTest_counts config inTable low (Nat.le_of_eq (by omega : _ + (reads middle).length = 507))
  obtain ⟨first, skipped, last, rfl, skips⟩ := oneShot.held before w middle 0x00 more rfl answers
    ((injects_iff _ _).mpr ⟨by
      rw [Loop.after_middle]
      exact ⟨counted.handler, by rw [counted.counter]; omega⟩, rfl⟩)
  -- the skip would have to come at byte 503, which has gone by
  rw [reads_append, List.length_append] at length
  have room : (start.after config before).reader.osdsysCounter + (reads first).length ≤ 507 := by omega
  obtain ⟨here, _⟩ := pastTest_counts config inTable low room
  rw [Loop.after_middle] at skips
  have test := skips.2.1
  rw [here.counter] at test
  omega

/-- A match that fails at its last byte leaves a request waiting. -/
theorem miss_waits {r : U8} (inTable : loop.InTable 507) (nonzero : r ≠ 0x00)
    (asked : loop.firmware.world.disableNextOsdsysHook = true) : (loop.step config (.read r)).1.Waiting := by
  have result : (loop.step config (.read r)).1 =
      ⟨{ loop.reader with readHandler := .idle, osdsysCounter := 0 }, loop.firmware⟩ := by
    simp only [Loop.step, handleRead, inTable.handler, handleReadFindOsdsysSyscallTable, inTable.counter,
      if_pos nonzero, ite_true]
  rw [result]
  exact ⟨asked, fun past => by cases past.1⟩

/-- A request that comes after the test is served by the next match, unless
this one goes through. -/
theorem late_request_held {loop : Loop} {counter : Nat} (inTable : loop.InTable counter) (past : 503 ≤ counter)
    (bound : counter ≤ 507) (asked : loop.firmware.world.disableNextOsdsysHook = true) {middle rest : List BusByte}
    {r : U8} (miss : (reads (middle ++ .read r :: rest))[507 - counter]? ≠ some 0x00)
    (injects : (loop.after config middle).Injects config r) :
    ∃ first skipped last, middle = first ++ .read skipped :: last ∧ (loop.after config first).Skips skipped := by
  rcases Nat.lt_or_ge (507 - counter) (reads middle).length with later | now
  · -- byte 508 comes within `middle` and ends the match
    obtain ⟨last508, found⟩ : ∃ byte, (reads middle)[507 - counter]? = some byte :=
      ⟨_, List.getElem?_eq_getElem later⟩
    have nonzero : last508 ≠ 0x00 := by
      rintro rfl
      rw [reads_append, List.getElem?_append_left later] at miss
      exact miss found
    obtain ⟨first, last, rfl, length⟩ := reads_split found
    have room : counter + (reads first).length ≤ 507 := by omega
    obtain ⟨full, kept⟩ := pastTest_counts config inTable past room
    have ended : ((loop.after config first).step config (.read last508)).1.Waiting :=
      miss_waits ⟨full.handler, by rw [full.counter, length]; omega⟩ nonzero (kept asked)
    rcases ended.until_skip last with waiting | ⟨earlier, skipped, more, rfl, skips⟩
    · rw [Loop.after_middle] at injects
      exact False.elim (waiting.no_injection r injects)
    · refine ⟨first ++ .read last508 :: earlier, skipped, more, by simp, ?_⟩
      rwa [Loop.after_middle]
  · -- the byte after `middle` is not byte 508, or is not zero
    have room : counter + (reads middle).length ≤ 507 := by omega
    obtain ⟨here, _⟩ := pastTest_counts config inTable past room
    obtain ⟨last, rfl⟩ := (injects_iff _ _).mp injects
    have place : (reads middle).length = 507 - counter := by
      have same := here.counter.symm.trans last.counter
      omega
    rw [reads_append, ← place, List.getElem?_append_right (Nat.le_refl _), Nat.sub_self] at miss
    exact False.elim (miss rfl)

/-- The request is lost exactly when it comes between the test and the injection
of a match that goes through. -/
theorem one_shot_iff (config : Config) (flash : Flash) (settings : SettingsState) (inputs : List BusByte) :
    OneShot config (.powerUp flash settings) inputs ↔ NoLateRequest config (.powerUp flash settings) inputs := by
  refine ⟨fun oneShot => oneShot.no_late (powerUp_inBounds flash settings), fun noLate => ⟨?_, ?_⟩⟩
  · rintro before w middle r rest rfl answers injects
    rw [Loop.after_middle] at injects
    have asked : (((Loop.powerUp flash settings).after config before).step config
        (.write w)).1.firmware.world.disableNextOsdsysHook = true := by
      rcases write_disable config _ w with ⟨silent, _⟩ | ⟨_, set⟩
      · exact False.elim (silent answers)
      · exact set
    have served : ∃ first skipped last, middle = first ++ .read skipped :: last ∧
        ((((Loop.powerUp flash settings).after config before).step config (.write w)).1.after config first).Skips
          skipped := by
      by_cases past : ((Loop.powerUp flash settings).after config before).PastTest
      · have inTable : (((Loop.powerUp flash settings).after config before).step config (.write w)).1.InTable
            ((Loop.powerUp flash settings).after config before).reader.osdsysCounter := ⟨past.1, rfl⟩
        exact late_request_held inTable past.2 (powerUp_inBounds flash settings before past.1) asked
          (noLate before w _ rfl answers past) injects
      · have waiting : (((Loop.powerUp flash settings).after config before).step config (.write w)).1.Waiting :=
          ⟨asked, past⟩
        exact (waiting.until_skip middle).resolve_left fun kept => kept.no_injection r injects
    obtain ⟨first, skipped, last, split, skips⟩ := served
    exact ⟨first, skipped, last, split, by rwa [Loop.after_middle]⟩
  · rintro before r gap table rest - skips unasked inTable whole test
    obtain ⟨first, later⟩ := unasked.append
    have single : (Loop.powerUp flash settings).after config (before ++ [.read r]) =
        (((Loop.powerUp flash settings).after config before).step config (.read r)).1 := Loop.after_middle before _ []
    rw [single] at first later
    rw [Loop.after_middle] at inTable ⊢
    rw [Loop.after_append]
    exact match_injects inTable (stays_clear first (skip_clears skips)) later whole test

/-- The bytes of the OSDSYS header and of the table up to byte 503, then all but
the last byte of the command. -/
def lateBefore : List BusByte :=
  ((osdsysHeader ++ List.replicate 502 0x00 ++ [0xE0]).map .read) ++
    (Cmd.opcode .disableNextOsdsysHook).dropLast.map .write

/-- The command is answered after byte 503, and byte 508 injects. -/
def lateRequest : List BusByte :=
  lateBefore ++ .write (Cmd.getByte .disableNextOsdsysHook 3) :: List.replicate 5 (.read 0x00)

instance (config : Config) (loop : Loop) (w : U8) : Decidable (loop.AnswersDisable config w) :=
  inferInstanceAs (Decidable (_ ∧ _))

instance (loop : Loop) : Decidable loop.PastTest := inferInstanceAs (Decidable (_ ∧ _))

theorem late_request_lost :
    ¬ OneShot default (.powerUp (fun _ => 0xFF) ⟨.defaults, WearLeveling.clearCache⟩) lateRequest := by
  intro oneShot
  refine oneShot.no_late (powerUp_inBounds _ _) lateBefore _ _ rfl ?_ ?_ ?_
  · decide +kernel
  · decide +kernel
  · decide +kernel

end Fruitchip.Firmware
