import Fruitchip.Firmware.Frames

/-! The byte-level handlers refine the frame protocol. At every byte the parser
is exactly as far as the bytes received since it was last idle say, whatever
the static variables held before. -/

namespace Fruitchip.Firmware
open Embedded

@[simp] theorem protocol_verdict (config : Config) : (protocol config).verdict = verdict := rfl

@[simp] theorem protocol_execute (config : Config) : (protocol config).execute = execute config := rfl

theorem opcode_eq (cmd : Cmd) : cmd.opcode =
    [modchipCmdPrefix.setWidth 8, cmd.getByte 1, cmd.getByte 2, cmd.getByte 3] := by
  cases cmd <;> rfl

theorem cmdOf_opcode (cmd : Cmd) : cmdOf (cmd.getByte 1) (cmd.getByte 2) = some cmd := by
  cases cmd <;> rfl

private theorem caseOf_some {cases : List Cmd} {w : U8} {cmd : Cmd} (found : caseOf cases w = some cmd) :
    cmd ∈ cases ∧ cmd.getByte 2 = w := by
  refine ⟨List.mem_of_find?_eq_some found, ?_⟩
  simpa using List.find?_some found

private theorem group0_byte : ∀ cmd ∈ group0Cases, cmd.getByte 1 = modchipCmdGroup0.setWidth 8 := by
  decide

private theorem group1_byte : ∀ cmd ∈ group1Cases, cmd.getByte 1 = modchipCmdGroup1.setWidth 8 := by
  decide

theorem cmdOf_some {group id : U8} {cmd : Cmd} (found : cmdOf group id = some cmd) :
    group = cmd.getByte 1 ∧ id = cmd.getByte 2 := by
  unfold cmdOf at found
  split at found
  next first =>
    obtain ⟨member, same⟩ := caseOf_some found
    exact ⟨first.trans (group0_byte cmd member).symm, same.symm⟩
  · split at found
    next second =>
      obtain ⟨member, same⟩ := caseOf_some found
      exact ⟨second.trans (group1_byte cmd member).symm, same.symm⟩
    · cases found

theorem verdict_args (cmd : Cmd) (args : List U8) : verdict (cmd.opcode ++ args) =
    if args.length < argLength cmd then .growing
    else if args.length = argLength cmd then .complete (cmd, args)
    else .reject := by
  simp only [opcode_eq, List.cons_append, List.nil_append, verdict, cmdOf_opcode, and_self, ite_true]

theorem verdict_complete {bytes : List U8} {frame : Cmd × List U8}
    (complete : verdict bytes = .complete frame) :
    bytes = frame.1.opcode ++ frame.2 ∧ frame.2.length = argLength frame.1 := by
  match bytes with
  | [] => cases complete
  | [b0] => simp only [verdict] at complete; split at complete <;> cases complete
  | [b0, b1] => simp only [verdict] at complete; split at complete <;> cases complete
  | [b0, b1, b2] => simp only [verdict] at complete; split at complete <;> cases complete
  | b0 :: b1 :: b2 :: b3 :: args =>
    simp only [verdict] at complete
    split at complete
    · cases complete
    next cmd found =>
      obtain ⟨rfl, rfl⟩ := cmdOf_some found
      split at complete
      next header =>
        obtain ⟨rfl, rfl⟩ := header
        split at complete
        · cases complete
        · split at complete
          next whole =>
            cases complete
            exact ⟨by rw [opcode_eq]; rfl, whole⟩
          · cases complete
      · cases complete

private theorem verdict_take (cmd : Cmd) {size : Nat} (above : 0 < size) (below : size < 4) :
    verdict (cmd.opcode.take size) = .growing := by
  have cases : size = 1 ∨ size = 2 ∨ size = 3 := by omega
  rcases cases with rfl | rfl | rfl <;> cases cmd <;> rfl

theorem isFrame_opcode (config : Config) {cmd : Cmd} {args : List U8}
    (length : args.length = argLength cmd) :
    (protocol config).IsFrame (cmd.opcode ++ args) (cmd, args) := by
  constructor
  · intro size above below
    have four : cmd.opcode.length = 4 := rfl
    rcases Nat.lt_or_ge size 4 with short | long
    · rw [List.take_append_of_le_length (by omega)]
      exact verdict_take cmd above short
    · rw [List.take_append, List.take_of_length_le (by omega)]
      rw [protocol_verdict, verdict_args, if_pos]
      simp only [List.length_append, List.length_take] at below ⊢
      omega
  · rw [protocol_verdict, verdict_args, if_neg (by omega), if_pos length]

/-- The statics after the cases of a switch have received some bytes. -/
def collect (world : World) : List Store → List U8 → Statics → Statics
  | store :: stores, w :: args, s => collect world stores args (store world w s)
  | _, _, s => s

theorem collect_concat {world : World} {stores : List Store} {args : List U8} {w : U8}
    {store : Store} (found : stores[args.length]? = some store) (s : Statics) :
    collect world stores (args ++ [w]) s = store world w (collect world stores args s) := by
  induction args generalizing stores s with
  | nil =>
    cases stores with
    | nil => cases found
    | cons first stores =>
      cases found
      cases stores <;> rfl
  | cons byte args ih =>
    cases stores with
    | nil => cases found
    | cons first stores => exact ih (by simpa using found) (first world byte s)

theorem explode {args : List U8} {size : Nat} (length : args.length = size) :
    args = (List.range size).map (fun index => args.getD index 0) := by
  apply List.ext_getElem (by simp [length])
  intro index inside _
  simp [inside]

variable {config : Config}

theorem body_execute {cmd : Cmd} (single : (switchOf config cmd).next = .idle) {args : List U8}
    (length : args.length = argLength cmd) (world : World) (s : Statics) :
    (switchOf config cmd).body (collect world (switchOf config cmd).stores args s) world =
      execute config (cmd, args) world := by
  cases cmd
  case readEeStage3 | readApp | eraseFlashSector | writeFlashSector => cases single
  all_goals
    rw [explode length]
    rfl

private theorem switch_cmd (cmd : Cmd) : (switchOf config cmd).cmd = cmd := by
  cases cmd <;> rfl

private theorem single_length {cmd : Cmd} (single : (switchOf config cmd).next = .idle) :
    (switchOf config cmd).stores.length = argLength cmd := by
  cases cmd
  case readEeStage3 | readApp | eraseFlashSector | writeFlashSector => cases single
  all_goals rfl

private theorem double_facts {cmd : Cmd} (double : (switchOf config cmd).next ≠ .idle) :
    0 < (switchOf config cmd).stores.length ∧
      (switchOf config cmd).stores.length < argLength cmd ∧
      ∀ s world, (switchOf config cmd).body s world = (world, []) := by
  cases cmd
  case readEeStage3 | eraseFlashSector =>
    exact ⟨Nat.zero_lt_succ 16, Nat.lt_succ_self 17, fun _ _ => rfl⟩
  case readApp => exact ⟨Nat.zero_lt_succ 18, Nat.lt_succ_self 19, fun _ _ => rfl⟩
  case writeFlashSector => exact ⟨Nat.zero_lt_succ 17, Nat.lt_add_of_pos_right (by decide), fun _ _ => rfl⟩
  all_goals exact False.elim (double rfl)

/-- The arguments of a two-handler command after its first handler: the fields
are collected, and what follows them is in the sector buffer. -/
structure Collected (config : Config) (firmware : FirmwareState) (cmd : Cmd) (args : List U8) : Prop where
  fields : ∃ s sector, firmware.statics =
    { collect firmware.world (switchOf config cmd).stores
        (args.take (switchOf config cmd).stores.length) s with
      flash.sector := sector }
  payload : ∀ index, (switchOf config cmd).stores.length + index < args.length →
    firmware.statics.flash.sector index = args.getD ((switchOf config cmd).stores.length + index) 0

/-- The parser has received `pending` since it was last idle. -/
inductive Tracks (config : Config) (firmware : FirmwareState) : List U8 → Prop where
  | idle (handler : firmware.writeHandler = .idle) : Tracks config firmware []
  | started (handler : firmware.writeHandler = .cmd) (counter : firmware.cmdByteCounter = 0) :
      Tracks config firmware [modchipCmdPrefix.setWidth 8]
  | group0 (handler : firmware.writeHandler = .cmdGroup0) (counter : firmware.cmdByteCounter = 1) :
      Tracks config firmware [modchipCmdPrefix.setWidth 8, modchipCmdGroup0.setWidth 8]
  | group1 (handler : firmware.writeHandler = .cmdGroup1) (counter : firmware.cmdByteCounter = 1) :
      Tracks config firmware [modchipCmdPrefix.setWidth 8, modchipCmdGroup1.setWidth 8]
  | command (cmd : Cmd) (handler : firmware.writeHandler = .command cmd)
      (counter : firmware.cmdByteCounter = 2) : Tracks config firmware (cmd.opcode.take 3)
  | fields (cmd : Cmd) (args : List U8) (handler : firmware.writeHandler = .command cmd)
      (counter : firmware.cmdByteCounter = 3 + args.length)
      (room : args.length < (switchOf config cmd).stores.length)
      (collected : ∃ s, firmware.statics =
        collect firmware.world (switchOf config cmd).stores args s) :
      Tracks config firmware (cmd.opcode ++ args)
  | second (cmd : Cmd) (args : List U8) (double : (switchOf config cmd).next ≠ .idle)
      (handler : firmware.writeHandler = (switchOf config cmd).next)
      (counter : firmware.cmdByteCounter = 3 + args.length)
      (low : (switchOf config cmd).stores.length ≤ args.length)
      (high : args.length < argLength cmd) (collected : Collected config firmware cmd args) :
      Tracks config firmware (cmd.opcode ++ args)

/-- The firmware answers a byte as the protocol does. -/
structure Follows (config : Config) (result : FirmwareState × List Event)
    (expected : Framing.State U8 World × List Event) : Prop where
  events : result.2 = expected.2
  world : expected.1.world = result.1.world
  tracks : Tracks config result.1 expected.1.pending

variable {firmware : FirmwareState} (w : U8)

private theorem follows_idle (handler : firmware.writeHandler = .idle) :
    Follows config (handle config firmware w) ((protocol config).machine.step ⟨[], firmware.world⟩ w) := by
  simp only [handle, handler, handleWriteIdle]
  by_cases starts : w = modchipCmdPrefix.setWidth 8
  · rw [if_pos starts, Framing.step_growing (by simp [verdict, starts])]
    subst starts
    exact ⟨rfl, rfl, .started rfl rfl⟩
  · rw [if_neg starts, Framing.step_reject (by simp [verdict, starts])]
    exact ⟨rfl, rfl, .idle rfl⟩

private theorem follows_started (handler : firmware.writeHandler = .cmd)
    (counter : firmware.cmdByteCounter = 0) :
    Follows config (handle config firmware w)
      ((protocol config).machine.step ⟨[modchipCmdPrefix.setWidth 8], firmware.world⟩ w) := by
  simp only [handle, handler, handleWriteCmd]
  by_cases first : w = modchipCmdGroup0.setWidth 8
  · rw [if_pos first, Framing.step_growing (by simp [verdict, first])]
    subst first
    exact ⟨rfl, rfl, .group0 rfl (by simp [counter])⟩
  · by_cases second : w = modchipCmdGroup1.setWidth 8
    · rw [if_neg first, if_pos second, Framing.step_growing (by simp [verdict, second])]
      subst second
      exact ⟨rfl, rfl, .group1 rfl (by simp [counter])⟩
    · rw [if_neg first, if_neg second, Framing.step_reject (by simp [verdict, first, second])]
      exact ⟨rfl, rfl, .idle rfl⟩

private theorem follows_group {group : U8} {cases : List Cmd}
    (lookup : ∀ id, cmdOf group id = caseOf cases id) (counter : firmware.cmdByteCounter = 1) :
    Follows config (handleGroup cases firmware w)
      ((protocol config).machine.step ⟨[modchipCmdPrefix.setWidth 8, group], firmware.world⟩ w) := by
  unfold handleGroup
  cases found : caseOf cases w with
  | none =>
    rw [Framing.step_reject (by simp [verdict, lookup, found])]
    exact ⟨rfl, rfl, .idle rfl⟩
  | some cmd =>
    rw [Framing.step_growing (by simp [verdict, lookup, found])]
    obtain ⟨rfl, rfl⟩ := cmdOf_some ((lookup w).trans found)
    have pending : [modchipCmdPrefix.setWidth 8, cmd.getByte 1] ++ [cmd.getByte 2] =
        cmd.opcode.take 3 := by rw [opcode_eq]; rfl
    rw [pending]
    exact ⟨rfl, rfl, .command cmd rfl (by simp only [counter])⟩

private theorem collect_nil (world : World) (stores : List Store) (s : Statics) :
    collect world stores [] s = s := by
  cases stores <;> rfl

private theorem follows_finish {cmd : Cmd} {args : List U8} {world : World}
    (single : (switchOf config cmd).next = .idle) (length : args.length = argLength cmd)
    (same : firmware.world = world)
    (collected : ∃ s, firmware.statics = collect world (switchOf config cmd).stores args s) :
    Follows config ((switchOf config cmd).finish firmware)
      (⟨[], (execute config (cmd, args) world).1⟩, (execute config (cmd, args) world).2) := by
  obtain ⟨s, collected⟩ := collected
  have result := body_execute single length world s
  simp only [Switch.finish, collected, same, result]
  exact ⟨rfl, rfl, .idle single⟩

private theorem handle_opcode (switch : Switch) (counter : firmware.cmdByteCounter = 2) :
    switch.handle firmware w =
      if w ≠ switch.cmd.getByte 3 then toIdle { firmware with cmdByteCounter := 3 }
      else if switch.stores.isEmpty then switch.finish { firmware with cmdByteCounter := 3 }
      else ({ firmware with cmdByteCounter := 3 }, []) := by
  simp only [Switch.handle, counter]
  rfl

private theorem handle_store (switch : Switch) {index : Nat} {store : Store}
    (counter : firmware.cmdByteCounter = 3 + index) (found : switch.stores[index]? = some store) :
    switch.handle firmware w =
      let next := { firmware with
        cmdByteCounter := 3 + (index + 1)
        statics := store firmware.world w firmware.statics }
      if index + 1 = switch.stores.length then switch.finish next else (next, []) := by
  have early : ¬ (3 + (index + 1) < 3) := by omega
  have opcode : ¬ (3 + (index + 1) = 3) := by omega
  have position : 3 + (index + 1) - 4 = index := by omega
  have count : 3 + (index + 1) - 3 = index + 1 := by omega
  simp only [Switch.handle, counter, Nat.add_assoc, if_neg early, if_neg opcode, position, count, found]

theorem stores_le (config : Config) (cmd : Cmd) : (switchOf config cmd).stores.length ≤ argLength cmd := by
  by_cases single : (switchOf config cmd).next = .idle
  · exact Nat.le_of_eq (single_length single)
  · exact Nat.le_of_lt (double_facts single).2.1

private theorem follows_command {cmd : Cmd} (handler : firmware.writeHandler = .command cmd)
    (counter : firmware.cmdByteCounter = 2) :
    Follows config (handle config firmware w)
      ((protocol config).machine.step ⟨cmd.opcode.take 3, firmware.world⟩ w) := by
  simp only [handle, handler, handle_opcode w _ counter, switch_cmd]
  by_cases last : w = cmd.getByte 3
  · have whole : cmd.opcode.take 3 ++ [w] = cmd.opcode ++ [] := by rw [opcode_eq, last]; rfl
    have verdictNow := verdict_args cmd []
    rw [if_neg (by simp [last])]
    by_cases empty : (switchOf config cmd).stores = []
    · -- no arguments: the frame is complete
      have single : (switchOf config cmd).next = .idle := by
        by_contra double
        have some := (double_facts double).1
        simp [empty] at some
      have none : argLength cmd = 0 := by rw [← single_length single, empty, List.length_nil]
      simp only [List.length_nil, none, Nat.lt_irrefl, ite_false, ite_true] at verdictNow
      rw [if_pos (by simp [empty]), Framing.step_complete (by rw [protocol_verdict, whole, verdictNow])]
      exact follows_finish single none.symm rfl ⟨firmware.statics, by rw [collect_nil]⟩
    · have room := List.length_pos_iff.mpr empty
      have more : 0 < argLength cmd := Nat.lt_of_lt_of_le room (stores_le config cmd)
      simp only [List.length_nil, more, ite_true] at verdictNow
      rw [if_neg (by simp [empty]), Framing.step_growing (by rw [protocol_verdict, whole, verdictNow]),
        whole]
      exact ⟨rfl, rfl, .fields cmd [] rfl rfl room ⟨firmware.statics, by rw [collect_nil]⟩⟩
  · rw [if_pos last, Framing.step_reject (by
      simp [opcode_eq, verdict, cmdOf_opcode, last])]
    exact ⟨rfl, rfl, .idle rfl⟩

private theorem follows_fields {cmd : Cmd} {args : List U8}
    (handler : firmware.writeHandler = .command cmd)
    (counter : firmware.cmdByteCounter = 3 + args.length)
    (room : args.length < (switchOf config cmd).stores.length)
    (collected : ∃ s, firmware.statics =
      collect firmware.world (switchOf config cmd).stores args s) :
    Follows config (handle config firmware w)
      ((protocol config).machine.step ⟨cmd.opcode ++ args, firmware.world⟩ w) := by
  obtain ⟨s, collected⟩ := collected
  have found := List.getElem?_eq_getElem room
  have stored : ∃ s', (switchOf config cmd).stores[args.length] firmware.world w firmware.statics =
      collect firmware.world (switchOf config cmd).stores (args ++ [w]) s' :=
    ⟨s, by rw [collect_concat found, collected]⟩
  have length : (args ++ [w]).length = args.length + 1 := List.length_append
  have verdictNow := verdict_args cmd (args ++ [w])
  have limit := stores_le config cmd
  simp only [handle, handler, handle_store w _ counter found]
  by_cases last : args.length + 1 = (switchOf config cmd).stores.length
  · rw [if_pos last]
    by_cases single : (switchOf config cmd).next = .idle
    · have whole : (args ++ [w]).length = argLength cmd := by rw [length, last, single_length single]
      rw [if_neg (by omega), if_pos whole] at verdictNow
      rw [Framing.step_complete (by rw [protocol_verdict, List.append_assoc, verdictNow])]
      exact follows_finish single whole rfl stored
    · -- the second handler takes over in the middle of the frame
      obtain ⟨_, short, nothing⟩ := double_facts single
      rw [if_pos (by omega)] at verdictNow
      rw [Framing.step_growing (by rw [protocol_verdict, List.append_assoc, verdictNow]),
        List.append_assoc]
      simp only [Switch.finish, nothing]
      refine ⟨rfl, rfl, .second cmd (args ++ [w]) single rfl (by rw [length]) (by omega) (by omega) ?_⟩
      constructor
      · obtain ⟨s', stored⟩ := stored
        refine ⟨s', (collect firmware.world (switchOf config cmd).stores (args ++ [w]) s').flash.sector, ?_⟩
        rw [List.take_of_length_le (by omega)]
        exact stored
      · intro index inside
        omega
  · rw [if_neg last]
    rw [if_pos (by omega)] at verdictNow
    rw [Framing.step_growing (by rw [protocol_verdict, List.append_assoc, verdictNow]),
      List.append_assoc]
    exact ⟨rfl, rfl, .fields cmd (args ++ [w]) rfl (by rw [length]) (by omega) stored⟩

theorem explode_prefix {args : List U8} {size : Nat} (rest : List U8) (length : args.length = size) :
    args = (List.range size).map (fun index => (args ++ rest).getD index 0) := by
  apply List.ext_getElem (by simp [length])
  intro index inside _
  simp [List.getElem?_append_left inside, inside]

theorem getD_last (args : List U8) {size : Nat} (length : args.length = size) :
    (args ++ [w]).getD size 0 = w := by
  simp [← length]

theorem collected_fields {cmd : Cmd} {args : List U8} (rest : List U8) (size : Nat)
    (stores : (switchOf config cmd).stores.length = size) (low : size ≤ args.length)
    (collected : Collected config firmware cmd args) :
    ∃ s sector, firmware.statics =
      { collect firmware.world (switchOf config cmd).stores
          ((List.range size).map fun index => (args ++ rest).getD index 0) s with
        flash.sector := sector } := by
  obtain ⟨s, sector, fields⟩ := collected.fields
  have length : (args.take size).length = size := by simp [low]
  have split : args ++ rest = args.take size ++ (args.drop size ++ rest) := by
    rw [← List.append_assoc, List.take_append_drop]
  refine ⟨s, sector, ?_⟩
  rw [split, ← explode_prefix _ length]
  rwa [stores] at fields

/-- The last byte of a frame whose second handler needs nothing else. -/
theorem step_last {cmd : Cmd} {args : List U8} (length : args.length + 1 = argLength cmd)
    (world : World) :
    (protocol config).machine.step ⟨cmd.opcode ++ args, world⟩ w =
      (⟨[], (execute config (cmd, args ++ [w]) world).1⟩,
        (execute config (cmd, args ++ [w]) world).2) := by
  have verdictNow := verdict_args cmd (args ++ [w])
  rw [List.length_append, List.length_singleton, if_neg (by omega), if_pos length] at verdictNow
  rw [Framing.step_complete (by rw [protocol_verdict, List.append_assoc, verdictNow])]
  rfl

private theorem follows_readEeStage3 {args : List U8} (handler : firmware.writeHandler = .readEeStage3)
    (length : args.length = 17) (collected : Collected config firmware .readEeStage3 args) :
    Follows config (handle config firmware w)
      ((protocol config).machine.step ⟨Cmd.opcode .readEeStage3 ++ args, firmware.world⟩ w) := by
  obtain ⟨s, _, statics⟩ := collected_fields [w] 17 rfl (by omega) collected
  have fields : firmware.statics.stage3 = stage3Args (fun index => (args ++ [w]).getD index 0) := by
    rw [statics]
    rfl
  rw [step_last w (congrArg (· + 1) length)]
  simp only [handle, handler, readEeStage3, fields, execute, getD_last w args length]
  exact ⟨rfl, rfl, .idle rfl⟩

private theorem follows_readAppsPartition {args : List U8}
    (handler : firmware.writeHandler = .readAppsPartition)
    (length : args.length = 19) (collected : Collected config firmware .readApp args) :
    Follows config (handle config firmware w)
      ((protocol config).machine.step ⟨Cmd.opcode .readApp ++ args, firmware.world⟩ w) := by
  obtain ⟨s, _, statics⟩ := collected_fields [w] 19 rfl (by omega) collected
  have fields : firmware.statics.readApp =
      readAppArgs firmware.world.flash (fun index => (args ++ [w]).getD index 0) := by
    rw [statics]
    rfl
  rw [step_last w (congrArg (· + 1) length)]
  simp only [handle, handler, readAppsPartition, fields, execute, getD_last w args length]
  exact ⟨rfl, rfl, .idle rfl⟩

theorem erase_congr {s t : FlashStatics} (world : World)
    (partitionIdx : s.partitionIdx = t.partitionIdx)
    (partitionIdxXor : s.partitionIdxXor = t.partitionIdxXor)
    (sectorIdx : s.sectorIdx = t.sectorIdx) (sectorIdxXor : s.sectorIdxXor = t.sectorIdxXor)
    (sectorCount : s.sectorCount = t.sectorCount)
    (sectorCountXor : s.sectorCountXor = t.sectorCountXor) :
    eraseFlashSectorBody config s world = eraseFlashSectorBody config t world := by
  cases s
  cases t
  cases partitionIdx
  cases partitionIdxXor
  cases sectorIdx
  cases sectorIdxXor
  cases sectorCount
  cases sectorCountXor
  rfl

private theorem follows_eraseFlashSector {args : List U8}
    (handler : firmware.writeHandler = .eraseFlashSector)
    (counter : firmware.cmdByteCounter = 3 + args.length)
    (length : args.length = 17) (collected : Collected config firmware .eraseFlashSector args) :
    Follows config (handle config firmware w)
      ((protocol config).machine.step ⟨Cmd.opcode .eraseFlashSector ++ args, firmware.world⟩ w) := by
  obtain ⟨s, _, statics⟩ := collected_fields [w] 17 rfl (by omega) collected
  have last : firmware.cmdByteCounter + 1 = 21 := by omega
  have body : eraseFlashSectorBody config { firmware.statics.flash with
        sectorCountXor := orByte firmware.statics.flash.sectorCountXor w 3 } firmware.world =
      execute config (.eraseFlashSector, args ++ [w]) firmware.world := by
    rw [statics]
    refine erase_congr _ rfl rfl rfl rfl rfl ?_
    show _ = orByte _ ((args ++ [w]).getD 17 0) 3
    rw [getD_last w args length]
    rfl
  rw [step_last w (congrArg (· + 1) length)]
  simp only [handle, handler, eraseFlashSector, last, ite_true, body]
  exact ⟨rfl, rfl, .idle rfl⟩

theorem write_congr {s t : FlashStatics} (world : World)
    (partitionIdx : s.partitionIdx = t.partitionIdx)
    (partitionIdxXor : s.partitionIdxXor = t.partitionIdxXor)
    (sectorIdx : s.sectorIdx = t.sectorIdx) (sectorIdxXor : s.sectorIdxXor = t.sectorIdxXor)
    (sectorCrc : s.sectorCrc = t.sectorCrc) (sectorCrcXor : s.sectorCrcXor = t.sectorCrcXor)
    (sector : s.sectorBytes = t.sectorBytes) :
    writeFlashSectorBody config s world = writeFlashSectorBody config t world := by
  unfold writeFlashSectorBody
  rw [sector]
  cases s
  cases t
  cases partitionIdx
  cases partitionIdxXor
  cases sectorIdx
  cases sectorIdxXor
  cases sectorCrc
  cases sectorCrcXor
  rfl

private theorem follows_writeFlashSector {args : List U8}
    (handler : firmware.writeHandler = .writeFlashSector)
    (counter : firmware.cmdByteCounter = 3 + args.length) (low : 18 ≤ args.length)
    (high : args.length < 18 + flashSectorSize)
    (collected : Collected config firmware .writeFlashSector args) :
    Follows config (handle config firmware w)
      ((protocol config).machine.step ⟨Cmd.opcode .writeFlashSector ++ args, firmware.world⟩ w) := by
  have limit : argLength .writeFlashSector = 18 + flashSectorSize := rfl
  have inside : 22 ≤ firmware.cmdByteCounter + 1 ∧
      firmware.cmdByteCounter + 1 ≤ flashSectorSize + 22 - 1 := by omega
  have payload : ∀ index, 18 + index < (args ++ [w]).length →
      (if index = firmware.cmdByteCounter + 1 - 22 then w else firmware.statics.flash.sector index) =
        (args ++ [w]).getD (18 + index) 0 := by
    intro index below
    simp only [List.length_append, List.length_singleton] at below
    by_cases here : index = firmware.cmdByteCounter + 1 - 22
    · rw [if_pos here, getD_last w args (by omega)]
    · rw [if_neg here, collected.payload index (by change 18 + index < _; omega)]
      simp only [List.getD_eq_getElem?_getD]
      rw [List.getElem?_append_left (by omega)]
      rfl
  simp only [handle, handler, writeFlashSector, if_pos inside]
  by_cases last : firmware.cmdByteCounter + 1 = flashSectorSize + 22 - 1
  · obtain ⟨s, _, statics⟩ := collected_fields [w] 18 rfl low collected
    have body : writeFlashSectorBody config { firmware.statics.flash with
          sector := fun index => if index = firmware.cmdByteCounter + 1 - 22 then w
            else firmware.statics.flash.sector index } firmware.world =
        execute config (.writeFlashSector, args ++ [w]) firmware.world := by
      apply write_congr
      case sector =>
        unfold FlashStatics.sectorBytes
        apply List.map_congr_left
        intro index member
        exact payload index (by simp at member ⊢; omega)
      all_goals
        rw [statics]
        rfl
    rw [if_pos last, step_last w (by rw [limit]; omega)]
    simp only [body]
    exact ⟨rfl, rfl, .idle rfl⟩
  · have verdictNow := verdict_args .writeFlashSector (args ++ [w])
    rw [if_pos (by rw [limit, List.length_append, List.length_singleton]; omega)] at verdictNow
    rw [if_neg last, Framing.step_growing (by rw [protocol_verdict, List.append_assoc, verdictNow]),
      List.append_assoc]
    obtain ⟨s, sector, statics⟩ := collected.fields
    have size : (switchOf config .writeFlashSector).stores.length = 18 := rfl
    refine ⟨rfl, rfl, .second .writeFlashSector (args ++ [w]) Handler.noConfusion rfl ?_ ?_ ?_
      ⟨⟨s, fun index =>
        if index = firmware.cmdByteCounter + 1 - 22 then w else firmware.statics.flash.sector index, ?_⟩,
        payload⟩⟩
    · simp only [counter, List.length_append, List.length_singleton, Nat.add_assoc]
    · simp only [size, List.length_append]
      omega
    · rw [List.length_append, List.length_singleton, limit]
      omega
    · rw [List.take_append_of_le_length (by omega)]
      simp only [statics]

private theorem next_handlers {cmd : Cmd} (double : (switchOf config cmd).next ≠ .idle) :
    cmd = .readEeStage3 ∨ cmd = .readApp ∨ cmd = .eraseFlashSector ∨ cmd = .writeFlashSector := by
  cases cmd
  case readEeStage3 | readApp | eraseFlashSector | writeFlashSector => simp only [true_or, or_true]
  all_goals exact False.elim (double rfl)

private theorem follows_second {cmd : Cmd} {args : List U8}
    (double : (switchOf config cmd).next ≠ .idle)
    (handler : firmware.writeHandler = (switchOf config cmd).next)
    (counter : firmware.cmdByteCounter = 3 + args.length)
    (low : (switchOf config cmd).stores.length ≤ args.length) (high : args.length < argLength cmd)
    (collected : Collected config firmware cmd args) :
    Follows config (handle config firmware w)
      ((protocol config).machine.step ⟨cmd.opcode ++ args, firmware.world⟩ w) := by
  rcases next_handlers double with rfl | rfl | rfl | rfl
  · exact follows_readEeStage3 w handler (Nat.le_antisymm (Nat.le_of_lt_succ high) low) collected
  · exact follows_readAppsPartition w handler (Nat.le_antisymm (Nat.le_of_lt_succ high) low) collected
  · exact follows_eraseFlashSector w handler counter
      (Nat.le_antisymm (Nat.le_of_lt_succ high) low) collected
  · exact follows_writeFlashSector w handler counter low high collected

/-- One byte keeps the parser and the protocol in step. -/
theorem handle_follows {pending : List U8} (tracks : Tracks config firmware pending) :
    Follows config (handle config firmware w)
      ((protocol config).machine.step ⟨pending, firmware.world⟩ w) := by
  cases tracks with
  | idle handler => exact follows_idle w handler
  | started handler counter => exact follows_started w handler counter
  | group0 handler counter =>
    rw [show handle config firmware w = handleGroup group0Cases firmware w by
      simp only [handle, handler, handleWriteCmdGroup0]]
    exact follows_group w (fun _ => rfl) counter
  | group1 handler counter =>
    rw [show handle config firmware w = handleGroup group1Cases firmware w by
      simp only [handle, handler, handleWriteCmdGroup1]]
    exact follows_group w (fun _ => rfl) counter
  | command cmd handler counter => exact follows_command w handler counter
  | fields cmd args handler counter room collected =>
    exact follows_fields w handler counter room collected
  | second cmd args double handler counter low high collected =>
    exact follows_second w double handler counter low high collected

/-- The handlers refine the protocol: both answer every byte with the same
events and leave the same world, from idle on and with any static variables. -/
theorem refines (config : Config) :
    Mealy.Simulation (machine config) (protocol config).machine
      (fun firmware state => state.world = firmware.world ∧ Tracks config firmware state.pending) where
  state := by
    rintro firmware ⟨pending, world⟩ w ⟨rfl, tracks⟩
    have follows := handle_follows w tracks
    exact ⟨follows.world, follows.tracks⟩
  output := by
    rintro firmware ⟨pending, world⟩ w ⟨rfl, tracks⟩
    exact (handle_follows w tracks).events

theorem Tracks.idle_iff {pending : List U8} (tracks : Tracks config firmware pending) :
    firmware.writeHandler = .idle ↔ pending = [] := by
  cases tracks with
  | idle handler => simp [handler]
  | started handler => simp [handler]
  | group0 handler => simp [handler]
  | group1 handler => simp [handler]
  | command cmd handler => simp [handler, opcode_eq]
  | fields cmd args handler => simp [handler, opcode_eq]
  | second cmd args double handler => simp [handler, double, opcode_eq]

/-- Every stream from idle: the firmware is where the protocol is. -/
theorem run_refines (config : Config) {start : FirmwareState} (idle : start.writeHandler = .idle)
    (stream : List U8) :
    ((protocol config).machine.run ⟨[], start.world⟩ stream).1.world =
        ((machine config).run start stream).1.world ∧
      Tracks config ((machine config).run start stream).1
        ((protocol config).machine.run ⟨[], start.world⟩ stream).1.pending ∧
      ((machine config).run start stream).2 =
        ((protocol config).machine.run ⟨[], start.world⟩ stream).2 := by
  have start : (⟨[], start.world⟩ : Framing.State U8 World).world = start.world ∧
      Tracks config start [] := ⟨rfl, .idle idle⟩
  obtain ⟨⟨world, tracks⟩, events⟩ := (refines config).run start stream
  exact ⟨world, tracks, events⟩

/-- A whole frame delivered to an idle parser is executed once, on exactly its
own argument bytes, and leaves the parser idle. -/
theorem run_frame (config : Config) {start : FirmwareState} (idle : start.writeHandler = .idle)
    {cmd : Cmd} {args : List U8} (length : args.length = argLength cmd) :
    let result := (machine config).run start (cmd.opcode ++ args)
    result.1.writeHandler = .idle ∧ result.1.world = (execute config (cmd, args) start.world).1 ∧
      result.2 = (execute config (cmd, args) start.world).2 := by
  obtain ⟨world, tracks, events⟩ := run_refines config idle (cmd.opcode ++ args)
  rw [Framing.run_frame (isFrame_opcode config length) (by simp [opcode_eq])] at world tracks events
  exact ⟨tracks.idle_iff.mpr rfl, world.symm, events⟩

theorem opcode_append_inj {cmd other : Cmd} {args rest : List U8}
    (same : cmd.opcode ++ args = other.opcode ++ rest) : cmd = other ∧ args = rest := by
  simp only [opcode_eq, List.cons_append, List.nil_append, List.cons.injEq] at same
  obtain ⟨_, first, second, _, tail⟩ := same
  have found := cmdOf_opcode cmd
  rw [first, second, cmdOf_opcode] at found
  cases found
  exact ⟨rfl, tail⟩

theorem Tracks.opcode_inv {cmd : Cmd} {args : List U8}
    (tracks : Tracks config firmware (cmd.opcode ++ args)) :
    (firmware.writeHandler = .command cmd ∧ args.length < (switchOf config cmd).stores.length) ∨
      (firmware.writeHandler = (switchOf config cmd).next ∧
        (switchOf config cmd).stores.length ≤ args.length ∧ Collected config firmware cmd args) := by
  generalize shape : cmd.opcode ++ args = pending at tracks
  cases tracks with
  | idle | started | group0 | group1 | command => simp [opcode_eq] at shape
  | fields other rest handler counter room collected =>
    obtain ⟨rfl, rfl⟩ := opcode_append_inj shape
    exact .inl ⟨handler, room⟩
  | second other rest double handler counter low high collected =>
    obtain ⟨rfl, rfl⟩ := opcode_append_inj shape
    exact .inr ⟨handler, low, collected⟩

private theorem next_inj {cmd other : Cmd} (double : (switchOf config cmd).next ≠ .idle)
    (same : (switchOf config other).next = (switchOf config cmd).next) : other = cmd := by
  rcases next_handlers double with rfl | rfl | rfl | rfl <;>
    rcases next_handlers (same ▸ double) with rfl | rfl | rfl | rfl <;>
    first | rfl | cases same

/-- A second handler is only ever entered from its own command. -/
theorem Tracks.second_inv {pending : List U8} (tracks : Tracks config firmware pending) {cmd : Cmd}
    (double : (switchOf config cmd).next ≠ .idle)
    (handler : firmware.writeHandler = (switchOf config cmd).next) :
    ∃ args, pending = cmd.opcode ++ args := by
  cases tracks with
  | idle resting => exact False.elim (double (handler.symm.trans resting))
  | second other args _ entered =>
    obtain rfl := next_inj double (entered.symm.trans handler)
    exact ⟨args, rfl⟩
  | started entered | group0 entered | group1 entered | command _ entered | fields _ _ entered =>
    have clash := entered.symm.trans handler
    rcases next_handlers double with rfl | rfl | rfl | rfl <;> cases clash

theorem split_last {pending : List U8} {cmd : Cmd} {args : List U8}
    (bytes : pending ++ [w] = cmd.opcode ++ args) (some : args ≠ []) :
    ∃ init, pending = cmd.opcode ++ init ∧ args = init ++ [w] := by
  obtain ⟨init, last, rfl⟩ : ∃ init last, args = init ++ [last] :=
    ⟨args.dropLast, args.getLast some, (List.dropLast_concat_getLast some).symm⟩
  rw [← List.append_assoc] at bytes
  obtain ⟨rfl, same⟩ := List.append_inj' bytes rfl
  cases same
  exact ⟨init, rfl, rfl⟩

theorem Tracks.single_handler {pending : List U8} {cmd : Cmd} {args : List U8}
    (tracks : Tracks config firmware pending) (bytes : pending ++ [w] = cmd.opcode ++ args)
    (length : args.length = argLength cmd) (single : (switchOf config cmd).next = .idle)
    (some : args ≠ []) : firmware.writeHandler = .command cmd := by
  obtain ⟨init, rfl, rfl⟩ := split_last w bytes some
  rcases tracks.opcode_inv with ⟨handler, _⟩ | ⟨_, low, _⟩
  · exact handler
  · rw [single_length single, ← length, List.length_append, List.length_singleton] at low
    omega

/-- A step either does nothing outside the parser, or completes a frame that
began on an idle parser, and then its effect is that of the frame. -/
theorem step_source {start : FirmwareState} (idle : start.writeHandler = .idle) (before : List U8) :
    let firmware := ((machine config).run start before).1
    ((handle config firmware w).1.world = firmware.world ∧ (handle config firmware w).2 = []) ∨
    ∃ earlier cmd args pending, before = earlier ++ pending ∧ pending ++ [w] = cmd.opcode ++ args ∧
      args.length = argLength cmd ∧ Tracks config firmware pending ∧
      ((machine config).run start earlier).1.writeHandler = .idle ∧
      ((machine config).run start earlier).1.world = firmware.world ∧
      (handle config firmware w).1.world = (execute config (cmd, args) firmware.world).1 ∧
      (handle config firmware w).2 = (execute config (cmd, args) firmware.world).2 := by
  obtain ⟨world, tracks, _⟩ := run_refines config idle before
  have follows := handle_follows w tracks
  intro firmware
  rw [follows.events, ← follows.world]
  obtain ⟨earlier, split, _, resting⟩ := Framing.idle_split (f := protocol config) start.world before
  obtain ⟨worldEarlier, tracksEarlier, _⟩ := run_refines config idle earlier
  rw [resting] at worldEarlier tracksEarlier
  cases found : verdict (((protocol config).machine.run ⟨[], start.world⟩ before).1.pending ++ [w]) with
  | growing =>
    rw [Framing.step_growing found]
    exact .inl ⟨rfl, rfl⟩
  | reject =>
    rw [Framing.step_reject found]
    exact .inl ⟨rfl, rfl⟩
  | complete frame =>
    obtain ⟨bytes, length⟩ := verdict_complete found
    refine .inr ⟨earlier, frame.1, frame.2, _, split, bytes, length, tracks,
      tracksEarlier.idle_iff.mpr rfl, worldEarlier.symm.trans world, ?_, ?_⟩
    all_goals
      rw [Framing.step_complete found]
      rfl

theorem event_source {start : FirmwareState} (idle : start.writeHandler = .idle) {before : List U8}
    {event : Event} (produced : event ∈ (handle config ((machine config).run start before).1 w).2) :
    ∃ earlier cmd args pending, before = earlier ++ pending ∧ pending ++ [w] = cmd.opcode ++ args ∧
      args.length = argLength cmd ∧
      Tracks config ((machine config).run start before).1 pending ∧
      ((machine config).run start earlier).1.writeHandler = .idle ∧
      ((machine config).run start earlier).1.world = ((machine config).run start before).1.world ∧
      (handle config ((machine config).run start before).1 w).2 =
        (execute config (cmd, args) ((machine config).run start before).1.world).2 := by
  rcases step_source w idle before with ⟨_, silent⟩ | source
  · rw [silent] at produced
    cases produced
  · obtain ⟨earlier, cmd, args, pending, split, bytes, length, tracks, resting, world, _, events⟩ := source
    exact ⟨earlier, cmd, args, pending, split, bytes, length, tracks, resting, world, events⟩

/-- The parser just before the last byte of a frame, and what that byte does. -/
theorem last_byte {start : FirmwareState} (idle : start.writeHandler = .idle) {cmd : Cmd}
    {args : List U8} (length : args.length + 1 = argLength cmd) :
    let firmware := ((machine config).run start (cmd.opcode ++ args)).1
    firmware.world = start.world ∧ Tracks config firmware (cmd.opcode ++ args) ∧
      (handle config firmware w).2 = (execute config (cmd, args ++ [w]) start.world).2 := by
  have isFrame : (protocol config).IsFrame (cmd.opcode ++ (args ++ [w])) (cmd, args ++ [w]) :=
    isFrame_opcode config (by simp [length])
  have grows : (protocol config).Grows (cmd.opcode ++ args) := by
    intro size above below
    have here := isFrame.grows size above (by simp at below ⊢; omega)
    rwa [← List.append_assoc, List.take_append_of_le_length below] at here
  obtain ⟨world, tracks, _⟩ := run_refines config idle (cmd.opcode ++ args)
  rw [Framing.run_grows grows] at world tracks
  refine ⟨world.symm, tracks, ?_⟩
  rw [(handle_follows w tracks).events, step_last w length, ← world]

end Fruitchip.Firmware
