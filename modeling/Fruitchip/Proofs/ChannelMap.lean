import Fruitchip.Firmware.LoopDevice
import Fruitchip.Proofs.DataOutChannels

/-! Which channel can start which, and whose registers it can write to. This map
holds whatever the commands do, also once the checksum helper has given CTRL2
another program. -/

namespace Fruitchip.DataOut
open Embedded Embedded.Dma Embedded.Dma.Engine Firmware

def Object.isChannel : Object → Bool
  | .channel _ => true
  | _ => false

/-- The channels that a channel can chain to. -/
def successors : Nat → List Nat
  | 0 => [ctrl1Chan]
  | 1 => [ctrl2Chan]
  | 2 | 3 => [ctrl1Chan, ctrl2Chan]
  | 4 => [busyPing, busyPong]
  | 5 => [busyPing, ctrl1Chan]
  | _ => []

/-- The channel whose registers a channel can write to. -/
def programmed : Nat → Option Nat
  | 0 => some data1Chan
  | 1 => some data2Chan
  | 5 => some busyPing
  | _ => none

structure Connected (index : Nat) (channel : Channel Object) : Prop where
  chains : index < firstUnclaimed → channel.ctrl.chainTo ∈ successors index
  writes : ∀ target, channel.writeAddr.object = .channel target → programmed index = some target
  reads : index = busyPong → channel.readAddr.object = .busyCodePtr
  unused : firstUnclaimed ≤ index → channel.busy = false
  /-- CTRL1 goes through its list from front to back. -/
  ring : index = ctrl1Chan → channel.ctrl.ringSel = true

structure Mapped (state : State) : Prop where
  claimed : state.claimed ctrl1Chan = true
  connected : ∀ index, Connected index (state.engine.channels index)
  data : state.engine.memory.readAddr.object.isChannel = false

variable {index other : Nat} {channel after : Channel Object} {state done : State} {read : DataRef → Nat → U8}
  {engine : Engine Object Memory}

theorem successor_used (member : other ∈ successors index) : other < firstUnclaimed := by
  unfold successors at member
  split at member
  all_goals
    simp only [List.mem_cons, List.not_mem_nil, or_false] at member
  · exact member ▸ by decide
  · exact member ▸ by decide
  · rcases member with rfl | rfl <;> decide
  · rcases member with rfl | rfl <;> decide
  · rcases member with rfl | rfl <;> decide
  · rcases member with rfl | rfl <;> decide

theorem programmed_cases (programs : programmed index = some other) :
    index = ctrl1Chan ∧ other = data1Chan ∨ index = ctrl2Chan ∧ other = data2Chan ∨
      index = busyPong ∧ other = busyPing := by
  unfold programmed at programs
  split at programs
  · cases programs
    exact .inl ⟨rfl, rfl⟩
  · cases programs
    exact .inr (.inl ⟨rfl, rfl⟩)
  · cases programs
    exact .inr (.inr ⟨rfl, rfl⟩)
  · cases programs

/-- The channels that only the core sets up. -/
def isCore (index : Nat) : Bool := index = ctrl1Chan ∨ index = ctrl2Chan ∨ index = busyPong

theorem core_unprogrammed (core : isCore other) : programmed index ≠ some other := by
  intro programs
  rcases programmed_cases programs with ⟨_, rfl⟩ | ⟨_, rfl⟩ | ⟨_, rfl⟩
  all_goals cases core

theorem programmed_irrefl (index : Nat) : programmed index ≠ some index := by
  intro own
  rcases programmed_cases own with ⟨rfl, same⟩ | ⟨rfl, same⟩ | ⟨rfl, same⟩
  all_goals cases same

namespace Connected

theorem reaches (connected : Connected index channel)
    (there : (bus read).registers channel.writeAddr.object = some other) : programmed index = some other := by
  apply connected.writes
  simp only [bus] at there
  split at there
  next object =>
    cases there
    exact object
  · cases there

theorem unreached (connected : Connected index channel) (apart : programmed index ≠ some other) :
    (bus read).registers channel.writeAddr.object ≠ some other :=
  fun there => apart (connected.reaches there)

/-- A transfer, its start or its end. -/
theorem alike (connected : Connected index channel) (same : channel.Alike after) (used : index < firstUnclaimed) :
    Connected index after where
  chains _ := same.ctrl ▸ connected.chains used
  writes target there := connected.writes target (same.writes ▸ there)
  reads pong := same.reads.trans (connected.reads pong)
  unused outside := False.elim (Nat.not_le_of_lt used outside)
  ring ctrl1 := same.ctrl ▸ connected.ring ctrl1

theorem triggered (connected : Connected index channel) (used : index < firstUnclaimed) :
    Connected index channel.triggered :=
  connected.alike (Channel.Alike.refl channel).triggered used

end Connected

/-- What control blocks and the busy code put into a register. -/
def Tame : Word Object → Prop
  | .address value => value.object.isChannel = false
  | .ctrl value => value.chainTo ∈ [ctrl1Chan, ctrl2Chan]
  | _ => True

theorem block_tame {block : Block Object} (source : block.readAddr.object.isChannel = false)
    (sink : block.writeAddr.object.isChannel = false) (chains : block.ctrl.chainTo ∈ [ctrl1Chan, ctrl2Chan])
    (words : Nat) : Tame (block.word words) := by
  unfold Block.word
  split
  · exact source
  · exact sink
  · exact trivial
  · exact chains

theorem blockWord_tame {blocks : List (Block Object)} {offset : Nat} {word : Word Object}
    (tame : ∀ block ∈ blocks, block.readAddr.object.isChannel = false ∧
      block.writeAddr.object.isChannel = false ∧ block.ctrl.chainTo ∈ [ctrl1Chan, ctrl2Chan])
    (found : blockWord blocks offset = some word) : Tame word := by
  obtain ⟨block, here, rfl⟩ := Option.map_eq_some_iff.mp found
  obtain ⟨source, sink, chains⟩ := tame block (List.mem_of_getElem? here)
  exact block_tame source sink chains _

theorem load_tame {memory : Memory} {address : Address Object} {word : Word Object}
    (data : memory.readAddr.object.isChannel = false) (loaded : load read memory address = some word) :
    Tame word := by
  unfold load at loaded
  split at loaded
  next list _ =>
    refine blockWord_tame ?_ loaded
    cases list <;> decide
  next =>
    refine blockWord_tame ?_ loaded
    intro block member
    rcases List.mem_cons.mp member with rfl | rest
    · exact ⟨data, rfl, List.mem_cons_self⟩
    · obtain rfl := List.mem_singleton.mp rest
      decide
  next => cases loaded; exact trivial
  next => cases loaded; exact trivial
  next => cases loaded; rfl
  next => cases loaded; exact trivial
  next =>
    cases loaded
    split <;> exact trivial
  next => cases loaded; exact trivial
  next => cases loaded; exact trivial
  next => cases loaded

/-- A worker gets a block, PING the address of the busy code. -/
theorem Connected.rewritten {word : Word Object} (connected : Connected index channel) (tame : Tame word)
    (worker : index = data1Chan ∨ index = data2Chan ∨ index = busyPing ∧ ∃ value, word = .address value)
    (written : channel.Rewritten word after) : Connected index after := by
  have used : index < firstUnclaimed := by
    rcases worker with rfl | rfl | ⟨rfl, _⟩ <;> decide
  have notPong : index ≠ busyPong := by
    rcases worker with rfl | rfl | ⟨rfl, _⟩ <;> decide
  have notCtrl1 : index ≠ ctrl1Chan := by
    rcases worker with rfl | rfl | ⟨rfl, _⟩ <;> decide
  cases written with
  | readAddr value =>
    exact ⟨connected.chains, connected.writes, fun pong => False.elim (notPong pong), connected.unused, connected.ring⟩
  | writeAddr value =>
    refine ⟨connected.chains, ?_, connected.reads, connected.unused, connected.ring⟩
    intro target there
    have plain : value.object.isChannel = false := tame
    rw [show value.object = .channel target from there] at plain
    cases plain
  | transCount value => exact ⟨connected.chains, connected.writes, connected.reads, connected.unused, connected.ring⟩
  | ctrl value =>
    have chains : value.chainTo ∈ successors index := by
      rcases worker with rfl | rfl | ⟨_, _, different⟩
      · exact tame
      · exact tame
      · cases different
    exact Connected.triggered ⟨fun _ => chains, connected.writes, connected.reads, connected.unused,
      fun ctrl1 => False.elim (notCtrl1 ctrl1)⟩ used

theorem Mapped.used (mapped : Mapped state) (stepped : state.engine.step (bus read) index = some engine) :
    index < firstUnclaimed := by
  apply Nat.lt_of_not_le
  intro outside
  rw [step_idle ((mapped.connected index).unused outside)] at stepped
  cases stepped

theorem Mapped.apart (mapped : Mapped state) (index : Nat) :
    (bus read).registers (state.engine.channels index).writeAddr.object ≠ some index :=
  (mapped.connected index).unreached (programmed_irrefl index)

/-- The data block is written by the core only. -/
theorem step_data (stepped : state.engine.step (bus read) index = some engine) :
    engine.memory.readAddr = state.engine.memory.readAddr ∧
      engine.memory.transCount = state.engine.memory.transCount := by
  have kept := step_keeps (fun memory : Memory => (memory.readAddr, memory.transCount)) ?_ ?_ stepped
  · exact Prod.mk.inj kept
  · intro memory channel ctrl word
    simp only [bus, sniff]
    repeat' split
    all_goals rfl
  · intro memory address word after stored
    simp only [bus, store] at stored
    split at stored
    all_goals
      cases stored
      try rfl

theorem Mapped.unit (mapped : Mapped state) (stepped : state.engine.step (bus read) index = some engine) :
    Mapped { state with engine } := by
  have used := mapped.used stepped
  refine ⟨mapped.claimed, ?_, (step_data stepped).1 ▸ mapped.data⟩
  intro other
  obtain ⟨reached, touched, outcome⟩ := step_touches (mapped.apart index) stepped other
  have connected : Connected other reached := by
    cases touched with
    | self here alike =>
      subst here
      exact (mapped.connected other).alike alike used
    | same => exact mapped.connected other
    | @written word _ _ there loaded rewritten =>
      have programs := (mapped.connected index).reaches there
      refine (mapped.connected other).rewritten (load_tame mapped.data loaded) ?_ rewritten
      rcases programmed_cases programs with ⟨_, rfl⟩ | ⟨_, rfl⟩ | ⟨rfl, rfl⟩
      · exact .inl rfl
      · exact .inr (.inl rfl)
      · refine .inr (.inr ⟨rfl, ?_⟩)
        have source := (mapped.connected busyPong).reads rfl
        simp only [bus, load, source, Option.some.injEq] at loaded
        exact ⟨_, loaded.symm⟩
  rcases outcome with same | ⟨chained, _, same⟩
  · exact same ▸ connected
  · have later := successor_used (chained ▸ (mapped.connected index).chains used)
    exact same ▸ connected.triggered later

theorem Mapped.core_alike (mapped : Mapped state) (stepped : state.engine.step (bus read) index = some engine)
    (core : isCore other) : (state.engine.channels other).Alike (engine.channels other) :=
  step_alike (mapped.apart index) ((mapped.connected index).unreached (core_unprogrammed core)) stepped

namespace Mapped

theorem setMemory {memory : Memory} (mapped : Mapped state) (data : memory.readAddr.object.isChannel = false) :
    Mapped (state.setMemory memory) := ⟨mapped.claimed, mapped.connected, data⟩

theorem setChannel (mapped : Mapped state) (connected : Connected index channel) :
    Mapped (state.setChannel index channel) := by
  refine ⟨mapped.claimed, ?_, mapped.data⟩
  intro other
  by_cases here : other = index
  · subst here
    exact (set_channels_self state.engine other channel).symm ▸ connected
  · exact (set_channels_other state.engine channel here).symm ▸ mapped.connected other

theorem start (mapped : Mapped state) (used : index < firstUnclaimed) : Mapped (dmaChannelStart state index) :=
  mapped.setChannel ((mapped.connected index).triggered used)

theorem setReadAddr {readAddr : Address Object} {trigger : Bool} (mapped : Mapped state)
    (used : index < firstUnclaimed) (other : index ≠ busyPong) :
    Mapped (dmaChannelSetReadAddr state index readAddr trigger) := by
  have connected := mapped.connected index
  have pointed : Mapped (state.setChannel index { state.engine.channels index with readAddr }) :=
    mapped.setChannel
      ⟨connected.chains, connected.writes, fun pong => False.elim (other pong), connected.unused, connected.ring⟩
  unfold dmaChannelSetReadAddr
  dsimp only
  split
  · exact pointed.start used
  · exact pointed

theorem setChainTo {trigger : Bool} (mapped : Mapped state) (used : index < firstUnclaimed)
    (chains : other ∈ successors index) : Mapped (dmaChannelSetChainTo state index other trigger) := by
  have connected := mapped.connected index
  have chained : Mapped (state.setChannel index { state.engine.channels index with ctrl.chainTo := other }) :=
    mapped.setChannel ⟨fun _ => chains, connected.writes, connected.reads, connected.unused, connected.ring⟩
  unfold dmaChannelSetChainTo
  dsimp only
  split
  · exact chained.start used
  · exact chained

/-- What `dma_crc32` leaves in the channel that it takes for its own. -/
def helper (length : Nat) : Channel Object where
  readAddr := ⟨.sector, length⟩
  writeAddr := at0 .stack
  transCount := length
  ctrl := crcConfig ctrl2Chan
  busy := false
  remaining := 0

theorem helper_connected (length : Nat) : Connected ctrl2Chan (helper length) where
  chains _ := List.mem_singleton_self ctrl2Chan
  writes _ there := by cases there
  reads pong := by cases pong
  unused _ := rfl
  ring ctrl1 := by cases ctrl1

/-- The checksum helper ends up on CTRL2, as CTRL1 is never given back. -/
theorem helper_takes_ctrl2 {data : List U8} {crc : U32} (mapped : Mapped state)
    (performed : dmaCrc32 state data crc = some done) :
    ∃ unused memory, memory.readAddr = state.engine.memory.readAddr ∧
      done = dmaChannelUnclaim (((dmaChannelClaim state unused).setMemory memory).setChannel ctrl2Chan
        (helper data.length)) ctrl2Chan := by
  simp only [dmaCrc32, dmaClaimUnusedChannel, bind, Option.bind_eq_some_iff, Option.map_eq_some_iff] at performed
  obtain ⟨_, ⟨unused, found, rfl⟩, same⟩ := performed
  have nonzero : unused ≠ 0 := by
    rintro rfl
    have free := List.find?_some found
    rw [show state.claimed 0 = true from mapped.claimed] at free
    cases free
  simp only [nonzero, ne_eq, not_false_eq_true, ite_true] at same
  refine ⟨unused, _, ?_, (Option.some.inj same).symm⟩
  rfl

theorem dmaCrc32 {data : List U8} {crc : U32} (mapped : Mapped state)
    (performed : dmaCrc32 state data crc = some done) : Mapped done := by
  obtain ⟨unused, memory, same, rfl⟩ := mapped.helper_takes_ctrl2 performed
  have claims : Mapped (dmaChannelClaim state unused) := by
    refine ⟨?_, mapped.connected, mapped.data⟩
    unfold dmaChannelClaim
    dsimp only
    split
    · rfl
    · exact mapped.claimed
  have plain : memory.readAddr.object.isChannel = false := same ▸ mapped.data
  have helped := (setMemory claims plain).setChannel (helper_connected data.length)
  exact ⟨helped.claimed, helped.connected, helped.data⟩

theorem perform {store : Store} (mapped : Mapped state) (performed : store.perform state = some done) :
    Mapped done := by
  cases store with
  | statusCode | transCount =>
    cases performed
    exact mapped.setMemory mapped.data
  | readAddr ref =>
    cases performed
    exact mapped.setMemory rfl
  | pointCtrl2 =>
    cases performed
    exact mapped.setReadAddr (by decide) (by decide)
  | pointCtrl1 list trigger =>
    cases performed
    exact mapped.setReadAddr (by decide) (by decide)
  | startCtrl2 =>
    cases performed
    exact mapped.start (by decide)
  | pongToPing | startPing | pongToCtrl1 =>
    cases performed
    exact mapped.setChainTo (by decide) (by decide)
  | dmaCrc32 data => exact mapped.dmaCrc32 performed

end Mapped

theorem initial_mapped : Mapped State.initial := by
  refine ⟨rfl, ?_, rfl⟩
  intro index
  rcases Nat.lt_or_ge index firstUnclaimed with used | outside
  · have known : index = ctrl1Chan ∨ index = ctrl2Chan ∨ index = data1Chan ∨ index = data2Chan ∨
        index = busyPing ∨ index = busyPong := by
      simp only [firstUnclaimed, ctrl1Chan, ctrl2Chan, data1Chan, data2Chan, busyPing, busyPong] at *
      omega
    rcases known with rfl | rfl | rfl | rfl | rfl | rfl
    all_goals
      refine ⟨fun _ => by decide, ?_, ?_, fun _ => rfl, ?_⟩
      · intro target there
        cases there <;> rfl
      · intro pong
        first | rfl | cases pong
      · intro ctrl1
        first | rfl | cases ctrl1
  · obtain ⟨rest, rfl⟩ := Nat.exists_eq_add_of_le outside
    rw [Nat.add_comm]
    refine ⟨?_, ?_, ?_, fun _ => rfl, ?_⟩
    · intro used
      exact False.elim (Nat.not_lt_of_le (Nat.le_add_left _ rest) used)
    · intro target there
      cases there
    · intro pong
      cases pong
    · intro ctrl1
      cases ctrl1

variable {config : Config} {board next last : LoopDevice} {action : LoopAction} {actions rest : List LoopAction}

theorem LoopDevice.step_cases (stepped : board.step config action = some next) :
    (∃ input, action = .byte input ∧ board.pending = [] ∧ next = { board with
        loop := (board.loop.step config input).1, pending := (board.loop.step config input).2.flatMap eventStores }) ∨
      (∃ store pending dma, action = .store ∧ board.pending = store :: pending ∧ next = { board with pending, dma } ∧
        store.perform board.dma = some dma) ∨
      (∃ index engine, action = .unit index ∧ next = { board with dma.engine := engine } ∧
        board.dma.engine.step (bus (refByte config board.loop.firmware.world.flash)) index = some engine) := by
  cases action with
  | byte input =>
    simp only [step] at stepped
    split at stepped
    next waits =>
      cases stepped
      exact .inl ⟨input, rfl, waits, rfl⟩
    · cases stepped
  | store =>
    simp only [step] at stepped
    split at stepped
    · cases stepped
    next store pending found =>
      obtain ⟨dma, performed, rfl⟩ := Option.map_eq_some_iff.mp stepped
      exact .inr (.inl ⟨store, pending, dma, rfl, found, rfl, performed⟩)
  | unit index =>
    simp only [step] at stepped
    obtain ⟨engine, moved, rfl⟩ := Option.map_eq_some_iff.mp stepped
    exact .inr (.inr ⟨index, engine, rfl, rfl, moved⟩)

theorem Mapped.step (mapped : Mapped board.dma) (stepped : board.step config action = some next) :
    Mapped next.dma := by
  rcases LoopDevice.step_cases stepped with ⟨_, _, _, rfl⟩ | ⟨_, _, _, _, _, rfl, performed⟩ | ⟨_, _, _, rfl, moved⟩
  · exact mapped
  · exact mapped.perform performed
  · exact mapped.unit moved

theorem LoopDevice.run_cons (run : LoopDevice.run config board (action :: rest) = some last) :
    ∃ next, board.step config action = some next ∧ LoopDevice.run config next rest = some last :=
  Option.bind_eq_some_iff.mp run

theorem LoopDevice.run_append (first rest : List LoopAction) :
    LoopDevice.run config board (first ++ rest) =
      (LoopDevice.run config board first).bind (LoopDevice.run config · rest) := by
  induction first generalizing board with
  | nil => rfl
  | cons action first ih =>
    simp only [List.cons_append, LoopDevice.run, Option.bind_assoc]
    exact congrArg _ (funext fun next => ih)

theorem LoopDevice.run_split {first : List LoopAction} (run : LoopDevice.run config board (first ++ rest) = some last) :
    ∃ middle, LoopDevice.run config board first = some middle ∧ LoopDevice.run config middle rest = some last := by
  rw [LoopDevice.run_append] at run
  exact Option.bind_eq_some_iff.mp run

theorem Mapped.run (mapped : Mapped board.dma) (run : LoopDevice.run config board actions = some last) :
    Mapped last.dma := by
  induction actions generalizing board with
  | nil =>
    cases run
    exact mapped
  | cons action rest ih =>
    obtain ⟨next, stepped, later⟩ := LoopDevice.run_cons run
    exact ih (mapped.step stepped) later

end Fruitchip.DataOut
