import Fruitchip.Firmware.DataOut

/-! Where an answer stands. While it goes out exactly one channel is busy, and
the place in its control list decides what can happen next. A unit of a channel
and a task of the core lead from one phase to another. -/

namespace Fruitchip.DataOut
open Embedded Embedded.Dma Embedded.Dma.Engine Firmware

/-- The program of a control channel that has copied some words of a block. -/
def controlProgram (control worker words : Nat) : Program Object :=
  ⟨⟨.channel worker, 4 * words⟩, 4, controlConfig control⟩

def pingProgram (chainTo : Nat) : Program Object :=
  Program.chained ⟨at0 .txf, 4, busyPingConfig⟩ chainTo

def pongProgram (chainTo : Nat) : Program Object :=
  Program.chained ⟨at0 (.channel busyPing), 1, busyPongConfig⟩ chainTo

/-- The programs of the channels that only software sets up. -/
structure Wired (channels : Nat → Channel Object) (words1 words2 ping pong : Nat) : Prop where
  ctrl1 : (channels ctrl1Chan).program = controlProgram ctrl1Chan data1Chan words1
  ctrl2 : (channels ctrl2Chan).program = controlProgram ctrl2Chan data2Chan words2
  ping : (channels busyPing).program = pingProgram ping
  pong : (channels busyPong).program = pongProgram pong

namespace Wired

variable {engine : Engine Object Memory} {words words1 words2 ping pong chainTo index : Nat} {channel : Channel Object}

theorem congr {next : Engine Object Memory} (wired : Wired engine.channels words1 words2 ping pong)
    (same : ∀ index, index ≠ data1Chan → index ≠ data2Chan →
      (next.channels index).program = (engine.channels index).program) :
    Wired next.channels words1 words2 ping pong where
  ctrl1 := by rw [same _ (by decide) (by decide), wired.ctrl1]
  ctrl2 := by rw [same _ (by decide) (by decide), wired.ctrl2]
  ping := by rw [same _ (by decide) (by decide), wired.ping]
  pong := by rw [same _ (by decide) (by decide), wired.pong]

theorem trigger (wired : Wired engine.channels words1 words2 ping pong) (index : Nat) :
    Wired (engine.trigger index).channels words1 words2 ping pong :=
  wired.congr fun other _ _ => engine.trigger_program index other

theorem set (wired : Wired engine.channels words1 words2 ping pong)
    (same : channel.program = (engine.channels index).program) :
    Wired (engine.set index channel).channels words1 words2 ping pong :=
  wired.congr fun other _ _ => engine.set_program same other

theorem setWorker (wired : Wired engine.channels words1 words2 ping pong)
    (worker : index = data1Chan ∨ index = data2Chan) :
    Wired (engine.set index channel).channels words1 words2 ping pong :=
  wired.congr fun other first last => by
    have different : other ≠ index := by
      rintro rfl
      exact worker.elim first last
    rw [set_channels_other engine channel different]

theorem setPing (wired : Wired engine.channels words1 words2 ping pong)
    (program : channel.program = pingProgram chainTo) :
    Wired (engine.set busyPing channel).channels words1 words2 chainTo pong where
  ctrl1 := by rw [set_channels_other engine channel (by decide), wired.ctrl1]
  ctrl2 := by rw [set_channels_other engine channel (by decide), wired.ctrl2]
  ping := by rw [set_channels_self, program]
  pong := by rw [set_channels_other engine channel (by decide), wired.pong]

theorem setPong (wired : Wired engine.channels words1 words2 ping pong)
    (program : channel.program = pongProgram chainTo) :
    Wired (engine.set busyPong channel).channels words1 words2 ping chainTo where
  ctrl1 := by rw [set_channels_other engine channel (by decide), wired.ctrl1]
  ctrl2 := by rw [set_channels_other engine channel (by decide), wired.ctrl2]
  ping := by rw [set_channels_other engine channel (by decide), wired.ping]
  pong := by rw [set_channels_self, program]

theorem copies1 {next : Engine Object Memory} (wired : Wired engine.channels words1 words2 ping pong)
    (copies : Copies engine next ctrl1Chan data1Chan words) : Wired next.channels words words2 ping pong where
  ctrl1 := by
    rw [copies.program, wired.ctrl1]
    rfl
  ctrl2 := by rw [copies.others _ (by decide) (by decide), wired.ctrl2]
  ping := by rw [copies.others _ (by decide) (by decide), wired.ping]
  pong := by rw [copies.others _ (by decide) (by decide), wired.pong]

theorem copies2 {next : Engine Object Memory} (wired : Wired engine.channels words1 words2 ping pong)
    (copies : Copies engine next ctrl2Chan data2Chan words) : Wired next.channels words1 words ping pong where
  ctrl1 := by rw [copies.others _ (by decide) (by decide), wired.ctrl1]
  ctrl2 := by
    rw [copies.program, wired.ctrl2]
    rfl
  ping := by rw [copies.others _ (by decide) (by decide), wired.ping]
  pong := by rw [copies.others _ (by decide) (by decide), wired.pong]

end Wired

theorem initial_wired : Wired State.initial.engine.channels 0 0 busyPing busyPing := by
  constructor <;> decide

theorem initial_onlyBusy : OnlyBusy State.initial.engine.channels none := by
  have reset : OnlyBusy State.reset.engine.channels none := by
    intro index
    simp [State.reset]
  -- every write of the set-up leaves the busy bit alone
  repeat' first | exact reset | refine OnlyBusy.set ?_ rfl

theorem controlConfig_fetches (control : Nat) : (controlConfig control).Fetches control := by
  constructor <;> rfl

/-- Some block from here on hands over to the second control channel. -/
def chainsLater (list : ControlList) (index : Nat) : Bool :=
  ((controlBlocks list).drop index).any (·.ctrl.chainTo == ctrl2Chan)

/-- A block that moves anything is followed by another one, writes outside the
channels, and hands over to one of the control channels, to the second at most
once. -/
theorem controlBlocks_spec (read : DataRef → Nat → U8) {list : ControlList} {index : Nat} {block : Block Object}
    (found : (controlBlocks list)[index]? = some block) (enabled : block.ctrl.en = true) :
    (bus read).registers block.writeAddr.object = none ∧ index + 1 < (controlBlocks list).length ∧
      (block.ctrl.chainTo = ctrl1Chan ∧ (chainsLater list (index + 1) → chainsLater list index) ∨
        block.ctrl.chainTo = ctrl2Chan ∧ chainsLater list index ∧ chainsLater list (index + 1) = false) := by
  obtain ⟨inside, rfl⟩ := List.getElem?_eq_some_iff.mp found
  have facts : ∀ index (inside : index < (controlBlocks list).length),
      ((controlBlocks list)[index]).ctrl.en = true →
      ((bus fun _ _ => 0).registers ((controlBlocks list)[index]).writeAddr.object = none ∧
        index + 1 < (controlBlocks list).length ∧
        (((controlBlocks list)[index]).ctrl.chainTo = ctrl1Chan ∧
            (chainsLater list (index + 1) → chainsLater list index) ∨
          ((controlBlocks list)[index]).ctrl.chainTo = ctrl2Chan ∧ chainsLater list index ∧
            chainsLater list (index + 1) = false)) := by
    cases list <;> decide
  exact facts index inside enabled

theorem blockWord_at {blocks : List (Block Object)} {index words : Nat} {block : Block Object}
    (found : blocks[index]? = some block) (below : words < 4) :
    blockWord blocks (16 * index + 4 * words) = some (block.word words) := by
  have slot : (16 * index + 4 * words) / 16 = index := by omega
  have word : (16 * index + 4 * words) % 16 / 4 = words := by omega
  rw [blockWord, slot, word, found, Option.map_some]

def dataBlock (memory : Memory) : Block Object where
  readAddr := memory.readAddr
  writeAddr := at0 .txf
  transCount := memory.transCount
  ctrl := { dmaCtrlDataOut ctrl1Chan with sniffEn := true }

/-- What the answer on its way waits for. -/
inductive Kind where
  /-- No answer is on its way. -/
  | idle
  /-- The busy code repeats until the command is through. The list that follows
  it may be in place already. -/
  | waiting (listed : Bool)
  | answering
  deriving DecidableEq

structure Working (channels : Nat → Channel Object) (worker : Nat) (block : Block Object) : Prop where
  ctrl : (channels worker).ctrl = block.ctrl
  object : (channels worker).writeAddr.object = block.writeAddr.object

theorem Working.of_given {channels : Nat → Channel Object} {worker : Nat} {block : Block Object}
    (given : (channels worker).Given block) : Working channels worker block := by
  obtain ⟨writeAddr, _, ctrl⟩ := Program.mk.inj given.program
  exact ⟨ctrl, by rw [writeAddr]⟩

/-- Where an answer stands. -/
inductive Phase (channels : Nat → Channel Object) (memory : Memory) : Kind → Prop
  | rest {ping pong : Nat} (wired : Wired channels 0 0 ping pong) (only : OnlyBusy channels none) :
    Phase channels memory .idle
  /-- The first control channel copies block `index`. -/
  | fetch {ping pong index words : Nat} {list : ControlList} {block : Block Object}
    (wired : Wired channels words 0 ping pong) (only : OnlyBusy channels (some ctrl1Chan))
    (found : (controlBlocks list)[index]? = some block)
    (fetching : Fetching channels ctrl1Chan data1Chan (.controlList list) block index words)
    (ready : chainsLater list index → (channels ctrl2Chan).readAddr = at0 .controlBlocksDataOut) :
    Phase channels memory .answering
  | work {ping pong index : Nat} {list : ControlList} {block : Block Object}
    (wired : Wired channels 0 0 ping pong) (only : OnlyBusy channels (some data1Chan))
    (found : (controlBlocks list)[index]? = some block) (enabled : block.ctrl.en = true)
    (working : Working channels data1Chan block)
    (later : (channels ctrl1Chan).readAddr = ⟨.controlList list, 16 * (index + 1)⟩)
    (ready : chainsLater list index → (channels ctrl2Chan).readAddr = at0 .controlBlocksDataOut) :
    Phase channels memory .answering
  /-- The second control channel copies the block of the data; the first one goes
  on with block `index` afterwards. -/
  | fetchData {ping pong index words : Nat} {list : ControlList}
    (wired : Wired channels 0 words ping pong) (only : OnlyBusy channels (some ctrl2Chan))
    (fetching : Fetching channels ctrl2Chan data2Chan .controlBlocksDataOut (dataBlock memory) 0 words)
    (later : (channels ctrl1Chan).readAddr = ⟨.controlList list, 16 * index⟩)
    (inside : index < (controlBlocks list).length) (last : chainsLater list index = false) :
    Phase channels memory .answering
  | workData {ping pong index : Nat} {list : ControlList}
    (wired : Wired channels 0 0 ping pong) (only : OnlyBusy channels (some data2Chan))
    (working : Working channels data2Chan (dataBlock memory))
    (later : (channels ctrl1Chan).readAddr = ⟨.controlList list, 16 * index⟩)
    (inside : index < (controlBlocks list).length) (last : chainsLater list index = false) :
    Phase channels memory .answering
  /-- The busy code goes out, or the pointer to it is written back. -/
  | wait {active : Nat} {listed : Bool} (wired : Wired channels 0 0 busyPong busyPing)
    (two : active = busyPing ∨ active = busyPong) (only : OnlyBusy channels (some active))
    (later : listed → (channels ctrl1Chan).readAddr = at0 (.controlList .withStatusNoDataNoCrc)) :
    Phase channels memory (.waiting listed)
  /-- The last busy code, before the status code replaces it. -/
  | stopping {active : Nat} (wired : Wired channels 0 0 busyPong ctrl1Chan)
    (two : active = busyPing ∨ active = busyPong) (only : OnlyBusy channels (some active))
    (later : (channels ctrl1Chan).readAddr = at0 (.controlList .withStatusNoDataNoCrc)) :
    Phase channels memory .answering

namespace Phase

variable {engine next : Engine Object Memory} {memory : Memory} {read : DataRef → Nat → U8}

theorem trigger_fetching {control worker index : Nat} {source : Object} (block : Block Object)
    (program : (engine.channels control).program = controlProgram control worker 0) (different : control ≠ worker)
    (only : OnlyBusy engine.channels none) (later : (engine.channels control).readAddr = ⟨source, 16 * index⟩) :
    OnlyBusy (engine.trigger control).channels (some control) ∧
      Fetching (engine.trigger control).channels control worker source block index 0 := by
  obtain ⟨writeAddr, transCount, ctrl⟩ := Program.mk.inj program
  have fetches : (engine.channels control).ctrl.Fetches control := by
    rw [ctrl]
    exact controlConfig_fetches control
  exact ⟨only.trigger fetches.en, .start fetches different only.rests later (by rw [writeAddr]) transCount⟩

theorem startCtrl1 {ping pong index : Nat} {list : ControlList} (wired : Wired engine.channels 0 0 ping pong)
    (only : OnlyBusy engine.channels none)
    (later : (engine.channels ctrl1Chan).readAddr = ⟨.controlList list, 16 * index⟩)
    (inside : index < (controlBlocks list).length)
    (ready : chainsLater list index → (engine.channels ctrl2Chan).readAddr = at0 .controlBlocksDataOut) :
    Phase (engine.trigger ctrl1Chan).channels memory .answering := by
  obtain ⟨running, fetching⟩ := trigger_fetching (controlBlocks list)[index] wired.ctrl1 (by decide) only later
  refine .fetch (wired.trigger _) running (List.getElem?_eq_getElem inside) fetching ?_
  intro chains
  rw [trigger_readAddr]
  exact ready chains

theorem startCtrl2 {ping pong index : Nat} {list : ControlList} (wired : Wired engine.channels 0 0 ping pong)
    (only : OnlyBusy engine.channels none)
    (ready : (engine.channels ctrl2Chan).readAddr = at0 .controlBlocksDataOut)
    (later : (engine.channels ctrl1Chan).readAddr = ⟨.controlList list, 16 * index⟩)
    (inside : index < (controlBlocks list).length) (last : chainsLater list index = false) :
    Phase (engine.trigger ctrl2Chan).channels memory .answering := by
  have first : (engine.channels ctrl2Chan).readAddr = ⟨.controlBlocksDataOut, 16 * 0⟩ := ready
  obtain ⟨running, fetching⟩ := trigger_fetching (dataBlock memory) wired.ctrl2 (by decide) only first
  refine .fetchData (wired.trigger _) running fetching ?_ inside last
  rw [trigger_readAddr]
  exact later

theorem sniff_word (memory : Memory) (channel : Nat) (ctrl : Ctrl) (block : Block Object) (words : Nat) :
    sniff memory channel ctrl (block.word words) = memory := by
  match words with
  | 0 | 1 | 2 | _ + 3 => rfl

theorem ctrl1_target {words words2 ping pong : Nat} (wired : Wired engine.channels words words2 ping pong) :
    (bus read).registers (engine.channels ctrl1Chan).writeAddr.object = some data1Chan := by
  have writeAddr : (engine.channels ctrl1Chan).writeAddr = _ := congrArg Program.writeAddr wired.ctrl1
  rw [writeAddr]
  rfl

theorem ctrl2_target {words1 words ping pong : Nat} (wired : Wired engine.channels words1 words ping pong) :
    (bus read).registers (engine.channels ctrl2Chan).writeAddr.object = some data2Chan := by
  have writeAddr : (engine.channels ctrl2Chan).writeAddr = _ := congrArg Program.writeAddr wired.ctrl2
  rw [writeAddr]
  rfl

theorem fetch_memory {control worker index words : Nat} {source : Object} {block : Block Object}
    (fetching : Fetching engine.channels control worker source block index words)
    (target : (bus read).registers (engine.channels control).writeAddr.object = some worker)
    (loaded : (bus read).load engine.memory ⟨source, 16 * index + 4 * words⟩ = some (block.word words))
    (stepped : engine.step (bus read) control = some next) : next.memory = engine.memory := by
  rw [(fetching.step target loaded stepped).1]
  exact sniff_word _ _ _ _ _

theorem step_fetch {ping pong index words : Nat} {list : ControlList} {block : Block Object}
    (wired : Wired engine.channels words 0 ping pong) (only : OnlyBusy engine.channels (some ctrl1Chan))
    (found : (controlBlocks list)[index]? = some block)
    (fetching : Fetching engine.channels ctrl1Chan data1Chan (.controlList list) block index words)
    (ready : chainsLater list index → (engine.channels ctrl2Chan).readAddr = at0 .controlBlocksDataOut)
    (stepped : engine.step (bus read) ctrl1Chan = some next) :
    Phase next.channels memory .answering ∨ Phase next.channels memory .idle := by
  have loaded : (bus read).load engine.memory ⟨.controlList list, 16 * index + 4 * words⟩ =
      some (block.word words) := blockWord_at found fetching.inside
  rcases fetching.step_cases only (ctrl1_target wired) loaded stepped with
    ⟨_, copies, busy, further⟩ | ⟨_, copies, busy, later, given⟩
  · refine .inl (.fetch (wired.copies1 copies) busy found further ?_)
    rw [copies.others _ (by decide) (by decide)]
    exact ready
  · by_cases enabled : block.ctrl.en
    · rw [if_pos enabled] at busy
      refine .inl (.work (wired.copies1 copies) busy found enabled (.of_given given) later ?_)
      rw [copies.others _ (by decide) (by decide)]
      exact ready
    · rw [if_neg enabled] at busy
      exact .inr (.rest (wired.copies1 copies) busy)

theorem work_apart {index : Nat} {list : ControlList} {block : Block Object} (read : DataRef → Nat → U8)
    (found : (controlBlocks list)[index]? = some block) (enabled : block.ctrl.en = true)
    (working : Working engine.channels data1Chan block) :
    (bus read).registers (engine.channels data1Chan).writeAddr.object = none ∧
      (engine.channels data1Chan).ctrl.chainTo ≠ data1Chan := by
  obtain ⟨outside, _, chain⟩ := controlBlocks_spec read found enabled
  rw [working.object, working.ctrl]
  refine ⟨outside, ?_⟩
  rcases chain with ⟨first, _⟩ | ⟨second, _⟩
  · rw [first]
    decide
  · rw [second]
    decide

theorem workData_apart (read : DataRef → Nat → U8) {memory : Memory}
    (working : Working engine.channels data2Chan (dataBlock memory)) :
    (bus read).registers (engine.channels data2Chan).writeAddr.object = none ∧
      (engine.channels data2Chan).ctrl.chainTo = ctrl1Chan := by
  rw [working.object, working.ctrl]
  exact ⟨rfl, rfl⟩

theorem step_work {ping pong index : Nat} {list : ControlList} {block : Block Object}
    (wired : Wired engine.channels 0 0 ping pong) (only : OnlyBusy engine.channels (some data1Chan))
    (found : (controlBlocks list)[index]? = some block) (enabled : block.ctrl.en = true)
    (working : Working engine.channels data1Chan block)
    (later : (engine.channels ctrl1Chan).readAddr = ⟨.controlList list, 16 * (index + 1)⟩)
    (ready : chainsLater list index → (engine.channels ctrl2Chan).readAddr = at0 .controlBlocksDataOut)
    (stepped : engine.step (bus read) data1Chan = some next) : Phase next.channels memory .answering := by
  obtain ⟨_, inside, chain⟩ := controlBlocks_spec read found enabled
  obtain ⟨beyond, apart⟩ := work_apart read found enabled working
  obtain ⟨channel, ctrl, _, object, _, ⟨busy, channels⟩ | ⟨idle, channels⟩⟩ := step_worker beyond apart stepped
  · rw [channels]
    refine .work (wired.setWorker (.inl rfl)) (only.set (busy.trans only.busy.symm)) found enabled ?_ ?_ ?_
    · constructor
      · rw [set_channels_self, ctrl, working.ctrl]
      · rw [set_channels_self, object, working.object]
    · rw [set_channels_other _ _ (by decide), later]
    · rw [set_channels_other _ _ (by decide)]
      exact ready
  · rw [channels, working.ctrl]
    rcases chain with ⟨first, keeps⟩ | ⟨second, here, last⟩
    · rw [first]
      refine startCtrl1 (wired.setWorker (.inl rfl)) (only.stop idle) ?_ inside ?_
      · rw [set_channels_other _ _ (by decide), later]
      · intro chains
        rw [set_channels_other _ _ (by decide), ready (keeps chains)]
    · rw [second]
      refine startCtrl2 (wired.setWorker (.inl rfl)) (only.stop idle) ?_ ?_ inside last
      · rw [set_channels_other _ _ (by decide), ready here]
      · rw [set_channels_other _ _ (by decide), later]

theorem step_fetchData {ping pong index words : Nat} {list : ControlList}
    (wired : Wired engine.channels 0 words ping pong) (only : OnlyBusy engine.channels (some ctrl2Chan))
    (fetching : Fetching engine.channels ctrl2Chan data2Chan .controlBlocksDataOut (dataBlock engine.memory) 0 words)
    (later : (engine.channels ctrl1Chan).readAddr = ⟨.controlList list, 16 * index⟩)
    (inside : index < (controlBlocks list).length) (last : chainsLater list index = false)
    (stepped : engine.step (bus read) ctrl2Chan = some next) : Phase next.channels next.memory .answering := by
  have loaded : (bus read).load engine.memory ⟨.controlBlocksDataOut, 16 * 0 + 4 * words⟩ =
      some ((dataBlock engine.memory).word words) := blockWord_at rfl fetching.inside
  rw [fetch_memory fetching (ctrl2_target wired) loaded stepped]
  rcases fetching.step_cases only (ctrl2_target wired) loaded stepped with
    ⟨_, copies, busy, further⟩ | ⟨_, copies, busy, _, given⟩
  · refine .fetchData (wired.copies2 copies) busy further ?_ inside last
    rw [copies.others _ (by decide) (by decide), later]
  · refine .workData (wired.copies2 copies) busy (.of_given given) ?_ inside last
    rw [copies.others _ (by decide) (by decide), later]

theorem step_workData {ping pong index : Nat} {list : ControlList}
    (wired : Wired engine.channels 0 0 ping pong) (only : OnlyBusy engine.channels (some data2Chan))
    (working : Working engine.channels data2Chan (dataBlock engine.memory))
    (later : (engine.channels ctrl1Chan).readAddr = ⟨.controlList list, 16 * index⟩)
    (inside : index < (controlBlocks list).length) (last : chainsLater list index = false)
    (stepped : engine.step (bus read) data2Chan = some next) : Phase next.channels memory .answering := by
  obtain ⟨beyond, chain⟩ := workData_apart read working
  obtain ⟨channel, ctrl, _, object, _, ⟨busy, channels⟩ | ⟨idle, channels⟩⟩ :=
    step_worker beyond (by rw [chain]; decide) stepped
  · rw [channels]
    refine .workData (wired.setWorker (.inr rfl)) (only.set (busy.trans only.busy.symm)) ?_ ?_ inside last
    · constructor
      · rw [set_channels_self, ctrl, working.ctrl]
        rfl
      · rw [set_channels_self, object, working.object]
        rfl
    · rw [set_channels_other _ _ (by decide), later]
  · rw [channels, chain]
    refine startCtrl1 (wired.setWorker (.inr rfl)) (only.stop idle) ?_ inside ?_
    · rw [set_channels_other _ _ (by decide), later]
    · intro chains
      rw [last] at chains
      cases chains

/-- PING moves a byte of the busy code, or PONG resets its pointer. In the end
PONG triggers the channel it is told to. -/
theorem step_busyCode {chainTo active : Nat} (wired : Wired engine.channels 0 0 busyPong chainTo)
    (two : active = busyPing ∨ active = busyPong) (only : OnlyBusy engine.channels (some active))
    (elsewhere : chainTo ≠ busyPong) (stepped : engine.step (bus read) active = some next) :
    (∃ running, (running = busyPing ∨ running = busyPong) ∧ Wired next.channels 0 0 busyPong chainTo ∧
        OnlyBusy next.channels (some running) ∧
        (next.channels ctrl1Chan).readAddr = (engine.channels ctrl1Chan).readAddr) ∨
      ∃ stopped : Engine Object Memory, next.channels = (stopped.trigger chainTo).channels ∧
        Wired stopped.channels 0 0 busyPong chainTo ∧ OnlyBusy stopped.channels none ∧
        (stopped.channels ctrl1Chan).readAddr = (engine.channels ctrl1Chan).readAddr := by
  obtain ⟨pingAddr, _, pingCtrl⟩ := Program.mk.inj wired.ping
  obtain ⟨pongAddr, _, pongCtrl⟩ := Program.mk.inj wired.pong
  rcases two with rfl | rfl
  · have beyond : (bus read).registers (engine.channels busyPing).writeAddr.object = none := by
      rw [pingAddr]
      rfl
    have chain : (engine.channels busyPing).ctrl.chainTo = busyPong := by rw [pingCtrl]
    obtain ⟨channel, ctrl, transCount, _, writeAddr, moves⟩ := step_worker beyond (by rw [chain]; decide) stepped
    have program : channel.program = (engine.channels busyPing).program := by
      rw [Channel.program, ctrl, transCount, writeAddr (by rw [pingCtrl]; rfl)]
      rfl
    have rewired := wired.set program
    have aside : ((engine.set busyPing channel).channels ctrl1Chan).readAddr =
        (engine.channels ctrl1Chan).readAddr := by
      rw [set_channels_other _ _ (by decide)]
    rcases moves with ⟨busy, channels⟩ | ⟨idle, channels⟩
    · refine .inl ⟨busyPing, .inl rfl, ?_⟩
      rw [channels]
      exact ⟨rewired, only.set (busy.trans only.busy.symm), aside⟩
    · have enabled : ((engine.set busyPing channel).channels busyPong).ctrl.en = true := by
        rw [set_channels_other _ _ (by decide), pongCtrl]
        rfl
      refine .inl ⟨busyPong, .inr rfl, ?_⟩
      rw [channels, chain, trigger_readAddr]
      exact ⟨rewired.trigger _, (only.stop idle).trigger enabled, aside⟩
  · have there : (bus read).registers (engine.channels busyPong).writeAddr.object = some busyPing := by
      rw [pongAddr]
      rfl
    have chain : (engine.channels busyPong).ctrl.chainTo = chainTo := by rw [pongCtrl]
    obtain ⟨channel, readAddr, program, _, _, moves⟩ := step_writer there (by rw [pongAddr]; rfl)
      (by rw [pongCtrl]; rfl) (by decide) (by rw [chain]; exact elsewhere) stepped
    rw [chain] at moves
    have rewired : Wired ((engine.set busyPong channel).set busyPing
        { engine.channels busyPing with readAddr }).channels 0 0 busyPong chainTo := by
      apply (wired.set program).set
      rw [set_channels_other _ _ (by decide)]
      rfl
    have aside : (((engine.set busyPong channel).set busyPing
        { engine.channels busyPing with readAddr }).channels ctrl1Chan).readAddr =
          (engine.channels ctrl1Chan).readAddr := by
      rw [set_channels_other _ _ (by decide), set_channels_other _ _ (by decide)]
    rcases moves with ⟨busy, _, channels⟩ | ⟨idle, channels⟩
    · refine .inl ⟨busyPong, .inr rfl, ?_⟩
      rw [channels]
      refine ⟨rewired, (only.set (busy.trans only.busy.symm)).set ?_, aside⟩
      rw [set_channels_other _ _ (by decide)]
    · refine .inr ⟨_, channels, rewired, (only.stop idle).set ?_, aside⟩
      rw [set_channels_other _ _ (by decide)]

/-- One unit keeps an answer going; the null block ends it. -/
theorem step {kind : Kind} {index : Nat} (phase : Phase engine.channels engine.memory kind)
    (stepped : engine.step (bus read) index = some next) :
    Phase next.channels next.memory kind ∨ kind = .answering ∧ Phase next.channels next.memory .idle := by
  cases phase with
  | rest _ only => cases only.step stepped
  | fetch wired only found fetching ready =>
    cases only.step stepped
    rcases step_fetch wired only found fetching ready stepped with more | ended
    · exact .inl more
    · exact .inr ⟨rfl, ended⟩
  | work wired only found enabled working later ready =>
    cases only.step stepped
    exact .inl (step_work wired only found enabled working later ready stepped)
  | fetchData wired only fetching later inside last =>
    cases only.step stepped
    exact .inl (step_fetchData wired only fetching later inside last stepped)
  | workData wired only working later inside last =>
    cases only.step stepped
    exact .inl (step_workData wired only working later inside last stepped)
  | wait wired two only later =>
    cases only.step stepped
    left
    rcases step_busyCode wired two only (by decide) stepped with
      ⟨running, again, rewired, busy, aside⟩ | ⟨stopped, channels, rewired, idle, aside⟩
    · exact .wait rewired again busy fun listed => aside.trans (later listed)
    · have enabled : (stopped.channels busyPing).ctrl.en = true := by
        have ctrl : (stopped.channels busyPing).ctrl = _ := congrArg Program.ctrl rewired.ping
        rw [ctrl]
        rfl
      rw [channels]
      refine .wait (rewired.trigger _) (.inl rfl) (idle.trigger enabled) fun listed => ?_
      rw [trigger_readAddr, aside, later listed]
  | stopping wired two only later =>
    cases only.step stepped
    left
    rcases step_busyCode wired two only (by decide) stepped with
      ⟨running, again, rewired, busy, aside⟩ | ⟨stopped, channels, rewired, idle, aside⟩
    · exact .stopping rewired again busy (aside.trans later)
    · have first : (stopped.channels ctrl1Chan).readAddr = ⟨.controlList .withStatusNoDataNoCrc, 16 * 0⟩ :=
        aside.trans later
      rw [channels]
      exact startCtrl1 rewired idle first (by decide) (fun chains => by cases chains)

end Phase

def State.Stands (state : State) (kind : Kind) : Prop := Phase state.engine.channels state.engine.memory kind

variable {state : State}

theorem Wired.point {engine : Engine Object Memory} {ping pong : Nat} (list : ControlList)
    (wired : Wired engine.channels 0 0 ping pong) :
    let pointed := engine.set ctrl1Chan { engine.channels ctrl1Chan with readAddr := at0 (.controlList list) }
    Wired pointed.channels 0 0 ping pong ∧
      (pointed.channels ctrl1Chan).readAddr = ⟨.controlList list, 16 * 0⟩ ∧
      (pointed.channels ctrl2Chan).readAddr = (engine.channels ctrl2Chan).readAddr :=
  ⟨wired.set rfl, by rw [set_channels_self]; rfl, by rw [set_channels_other _ _ (by decide)]⟩

theorem arm_idle (idle : state.Stands .idle) :
    (dmaChannelSetReadAddr state ctrl2Chan (at0 .controlBlocksDataOut) false).Stands .idle ∧
      ((dmaChannelSetReadAddr state ctrl2Chan (at0 .controlBlocksDataOut) false).engine.channels
        ctrl2Chan).readAddr = at0 .controlBlocksDataOut := by
  cases idle with
  | rest wired only => exact ⟨.rest (wired.set rfl) (only.set rfl), congrArg Channel.readAddr (set_channels_self _ _ _)⟩

theorem setMemory_idle (memory : Memory) (idle : state.Stands .idle) : (state.setMemory memory).Stands .idle := by
  cases idle with
  | rest wired only => exact .rest wired only

theorem setData_idle (readAddr : Address Object) (transferCount : Nat) (idle : state.Stands .idle) :
    (bootRomDataOutSetData state readAddr transferCount).Stands .idle ∧
      ((bootRomDataOutSetData state readAddr transferCount).engine.channels ctrl2Chan).readAddr =
        at0 .controlBlocksDataOut :=
  arm_idle (setMemory_idle _ idle)

theorem startList_answering (list : ControlList) (idle : state.Stands .idle)
    (ready : chainsLater list 0 → (state.engine.channels ctrl2Chan).readAddr = at0 .controlBlocksDataOut) :
    (dmaChannelSetReadAddr state ctrl1Chan (at0 (.controlList list)) true).Stands .answering := by
  cases idle with
  | rest wired only =>
    obtain ⟨pointed, first, aside⟩ := wired.point list
    exact Phase.startCtrl1 pointed (only.set rfl) first (by cases list <;> decide)
      (fun chains => aside.trans (ready chains))

theorem startStatusCode_answering (statusCode : U32) (idle : state.Stands .idle) :
    (bootRomDataOutStartStatusCode state statusCode).Stands .answering :=
  startList_answering _ (setMemory_idle _ idle) nofun

theorem startDataWithoutStatusCode_answering (crc : Bool) (idle : state.Stands .idle)
    (ready : (state.engine.channels ctrl2Chan).readAddr = at0 .controlBlocksDataOut) :
    (bootRomDataOutStartDataWithoutStatusCode state crc).Stands .answering := by
  cases crc with
  | true => exact startList_answering _ idle fun _ => ready
  | false =>
    -- the data goes first, the list only ends the answer
    cases idle with
    | rest wired only =>
      obtain ⟨pointed, list, aside⟩ := wired.point .noStatusWithDataNoCrc
      exact Phase.startCtrl2 pointed (only.set rfl) (aside.trans ready) list (by decide) (by decide)

theorem startDataWithStatusCode_answering (statusCode : U32) (readAddr : Address Object) (transferCount : Nat)
    (crc : Bool) (idle : state.Stands .idle) :
    (bootRomDataOutStartDataWithStatusCode state statusCode readAddr transferCount crc).Stands .answering := by
  obtain ⟨set, _⟩ := setData_idle readAddr transferCount (setMemory_idle _ idle)
  obtain ⟨armed, ready⟩ := arm_idle set
  exact startList_answering _ armed fun _ => ready

theorem startBusyCode_waiting (idle : state.Stands .idle) :
    (bootRomDataOutStartBusyCode state).Stands (.waiting false) := by
  cases idle with
  | rest wired only =>
    have pong := wired.setPong (Channel.rechained wired.pong busyPing)
    have both := pong.setPing (Channel.rechained pong.ping busyPong)
    refine .wait (both.trigger _) (.inl rfl) (((only.set ?_).set ?_).trigger ?_) nofun
    · rfl
    · rfl
    · have ctrl := congrArg Program.ctrl both.ping
      exact (congrArg Ctrl.en ctrl).trans rfl

theorem setStatusCode_waiting {listed : Bool} (statusCode : U32) (waiting : state.Stands (.waiting listed)) :
    (setStatusCode state statusCode).Stands (.waiting listed) := by
  cases waiting with
  | wait wired two only later => exact .wait wired two only later

theorem setStatusList_waiting {listed : Bool} (waiting : state.Stands (.waiting listed)) :
    (dmaChannelSetReadAddr state ctrl1Chan (at0 (.controlList .withStatusNoDataNoCrc)) false).Stands
      (.waiting true) := by
  cases waiting with
  | wait wired two only _ =>
    obtain ⟨pointed, list, _⟩ := wired.point .withStatusNoDataNoCrc
    exact .wait pointed two (only.set rfl) fun _ => list

theorem chainToStatus_answering (waiting : state.Stands (.waiting true)) :
    (dmaChannelSetChainTo state busyPong ctrl1Chan false).Stands .answering := by
  cases waiting with
  | wait wired two only later =>
    refine .stopping (wired.setPong (Channel.rechained wired.pong ctrl1Chan)) two (only.set ?_) ?_
    · rfl
    · exact (congrArg Channel.readAddr (set_channels_other _ _ (by decide))).trans (later rfl)

theorem State.Stands.quiet {kind : Kind} (stands : state.Stands kind) (quiet : state.quiet) : kind = .idle := by
  have still : ∀ channel < numDmaChannels, (state.engine.channels channel).busy = false := by
    intro channel below
    simpa using List.all_eq_true.mp quiet channel (List.mem_range.mpr below)
  -- a phase with a busy channel cannot be quiet
  have moving {active : Nat} (below : active < numDmaChannels)
      (only : OnlyBusy state.engine.channels (some active)) : kind = .idle := by
    have busy := only.busy
    rw [still active below] at busy
    cases busy
  cases stands with
  | rest => rfl
  | fetch _ only => exact moving (by decide) only
  | work _ only => exact moving (by decide) only
  | fetchData _ only => exact moving (by decide) only
  | workData _ only => exact moving (by decide) only
  | wait _ two only => exact moving (by rcases two with rfl | rfl <;> decide) only
  | stopping _ two only => exact moving (by rcases two with rfl | rfl <;> decide) only

end Fruitchip.DataOut
