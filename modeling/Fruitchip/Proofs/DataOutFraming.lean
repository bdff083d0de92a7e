import Fruitchip.Proofs.DataOutLists

/-! The bytes of an answer. While it goes out, the channels have still to do what
the rest of the control list means, and each unit does one piece of it. -/

namespace Fruitchip.DataOut
open Embedded Embedded.Dma Embedded.Dma.Engine Firmware

structure Cued (channels : Nat → Channel Object) : Prop where
  ping : (channels busyPing).readAddr = at0 .busyCode
  pong : (channels busyPong).readAddr = at0 .busyCodePtr

theorem Cued.set {engine : Engine Object Memory} {index : Nat} {channel : Channel Object} (cued : Cued engine.channels)
    (apart : index < busyPing) : Cued (engine.set index channel).channels := by
  have first : busyPing ≠ index := (Nat.ne_of_lt apart).symm
  have second : busyPong ≠ index := (Nat.ne_of_lt (Nat.lt_succ_of_lt apart)).symm
  constructor
  · rw [set_channels_other _ _ first, cued.ping]
  · rw [set_channels_other _ _ second, cued.pong]

theorem Cued.trigger {engine : Engine Object Memory} (cued : Cued engine.channels) (index : Nat) :
    Cued (engine.trigger index).channels where
  ping := (engine.trigger_readAddr index _).trans cued.ping
  pong := (engine.trigger_readAddr index _).trans cued.pong

theorem Cued.copies {engine next : Engine Object Memory} {control worker words : Nat} (cued : Cued engine.channels)
    (copies : Copies engine next control worker words) (first : control < busyPing) (second : worker < busyPing) :
    Cued next.channels where
  ping := by rw [copies.others _ (Nat.ne_of_lt first).symm (Nat.ne_of_lt second).symm, cued.ping]
  pong := by
    have last1 : busyPong ≠ control := (Nat.ne_of_lt (Nat.lt_succ_of_lt first)).symm
    have last2 : busyPong ≠ worker := (Nat.ne_of_lt (Nat.lt_succ_of_lt second)).symm
    rw [copies.others _ last1 last2, cued.pong]

/-- An answer on its way: the memory after its last unit, and the units up to
there. With `armed` the data for the next answer are set. -/
inductive Sending (read : DataRef → Nat → U8) (engine : Engine Object Memory) (armed : Bool) (final : Option Memory)
    (left : Nat) : Prop
  | rest {ping pong : Nat} (wired : Wired engine.channels 0 0 ping pong) (only : OnlyBusy engine.channels none)
    (cued : Cued engine.channels) (ready : armed → (engine.channels ctrl2Chan).readAddr = at0 .controlBlocksDataOut)
    (ends : final = some engine.memory) (counted : left = 0)
  | fetch {ping pong index words : Nat} {list : ControlList} {block : Block Object}
    (wired : Wired engine.channels words 0 ping pong) (only : OnlyBusy engine.channels (some ctrl1Chan))
    (cued : Cued engine.channels) (found : (controlBlocks list)[index]? = some block)
    (fetching : Fetching engine.channels ctrl1Chan data1Chan (.controlList list) block index words)
    (ready : armed ∨ chainsLater list index → (engine.channels ctrl2Chan).readAddr = at0 .controlBlocksDataOut)
    (once : chainsLater list index → armed = false)
    (ends : final = runBlocks read ((controlBlocks list).drop index) engine.memory)
    (counted : left + words = listUnits engine.memory.transCount ((controlBlocks list).drop index))
  | work {ping pong index : Nat} {list : ControlList} {block : Block Object}
    (wired : Wired engine.channels 0 0 ping pong) (only : OnlyBusy engine.channels (some data1Chan))
    (cued : Cued engine.channels) (found : (controlBlocks list)[index]? = some block) (enabled : block.ctrl.en = true)
    (working : Working engine.channels data1Chan block)
    (later : (engine.channels ctrl1Chan).readAddr = ⟨.controlList list, 16 * (index + 1)⟩)
    (ready : armed ∨ chainsLater list index → (engine.channels ctrl2Chan).readAddr = at0 .controlBlocksDataOut)
    (once : chainsLater list index → armed = false)
    (ends : final = ((engine.channels data1Chan).through (bus read) data1Chan engine.memory).bind fun memory =>
      (if block.ctrl.chainTo = ctrl2Chan then sendData read memory else some memory).bind
        (runBlocks read ((controlBlocks list).drop (index + 1))))
    (counted : left = (engine.channels data1Chan).unitsLeft + (blockUnits engine.memory.transCount block +
      listUnits engine.memory.transCount ((controlBlocks list).drop (index + 1))))
  | fetchData {ping pong index words : Nat} {list : ControlList}
    (wired : Wired engine.channels 0 words ping pong) (only : OnlyBusy engine.channels (some ctrl2Chan))
    (cued : Cued engine.channels)
    (fetching : Fetching engine.channels ctrl2Chan data2Chan .controlBlocksDataOut (dataBlock engine.memory) 0 words)
    (later : (engine.channels ctrl1Chan).readAddr = ⟨.controlList list, 16 * index⟩)
    (inside : index < (controlBlocks list).length) (last : chainsLater list index = false) (unarmed : armed = false)
    (ends : final = (sendData read engine.memory).bind (runBlocks read ((controlBlocks list).drop index)))
    (counted : left + words = dataUnits engine.memory.transCount +
      listUnits engine.memory.transCount ((controlBlocks list).drop index))
  | workData {ping pong index : Nat} {list : ControlList}
    (wired : Wired engine.channels 0 0 ping pong) (only : OnlyBusy engine.channels (some data2Chan))
    (cued : Cued engine.channels) (working : Working engine.channels data2Chan (dataBlock engine.memory))
    (later : (engine.channels ctrl1Chan).readAddr = ⟨.controlList list, 16 * index⟩)
    (inside : index < (controlBlocks list).length) (last : chainsLater list index = false) (unarmed : armed = false)
    (ends : final = ((engine.channels data2Chan).through (bus read) data2Chan engine.memory).bind
      (runBlocks read ((controlBlocks list).drop index)))
    (counted : left = (engine.channels data2Chan).unitsLeft +
      listUnits engine.memory.transCount ((controlBlocks list).drop index))

namespace Sending

variable {engine next : Engine Object Memory} {read : DataRef → Nat → U8} {armed : Bool} {final : Option Memory}
variable {left : Nat}

theorem startCtrl1 {stopped : Engine Object Memory} {ping pong index : Nat} {list : ControlList}
    (triggered : next.channels = (stopped.trigger ctrl1Chan).channels) (wired : Wired stopped.channels 0 0 ping pong)
    (only : OnlyBusy stopped.channels none) (cued : Cued stopped.channels)
    (later : (stopped.channels ctrl1Chan).readAddr = ⟨.controlList list, 16 * index⟩)
    (inside : index < (controlBlocks list).length)
    (ready : armed ∨ chainsLater list index → (stopped.channels ctrl2Chan).readAddr = at0 .controlBlocksDataOut)
    (once : chainsLater list index → armed = false) :
    Sending read next armed (runBlocks read ((controlBlocks list).drop index) next.memory)
      (listUnits next.memory.transCount ((controlBlocks list).drop index)) := by
  obtain ⟨running, fetching⟩ := Phase.trigger_fetching (controlBlocks list)[index] wired.ctrl1 (by decide) only later
  have rewired := wired.trigger ctrl1Chan
  have recued := cued.trigger ctrl1Chan
  have aside := trigger_readAddr stopped ctrl1Chan ctrl2Chan
  rw [← triggered] at fetching rewired running recued aside
  exact .fetch rewired running recued (List.getElem?_eq_getElem inside) fetching
    (fun needed => aside.trans (ready needed)) once rfl rfl

theorem startCtrl2 {stopped : Engine Object Memory} {ping pong index : Nat} {list : ControlList}
    (triggered : next.channels = (stopped.trigger ctrl2Chan).channels) (wired : Wired stopped.channels 0 0 ping pong)
    (only : OnlyBusy stopped.channels none) (cued : Cued stopped.channels)
    (ready : (stopped.channels ctrl2Chan).readAddr = at0 .controlBlocksDataOut)
    (later : (stopped.channels ctrl1Chan).readAddr = ⟨.controlList list, 16 * index⟩)
    (inside : index < (controlBlocks list).length) (last : chainsLater list index = false) :
    Sending read next false ((sendData read next.memory).bind (runBlocks read ((controlBlocks list).drop index)))
      (dataUnits next.memory.transCount + listUnits next.memory.transCount ((controlBlocks list).drop index)) := by
  have first : (stopped.channels ctrl2Chan).readAddr = ⟨.controlBlocksDataOut, 16 * 0⟩ := ready
  obtain ⟨running, fetching⟩ := Phase.trigger_fetching (dataBlock next.memory) wired.ctrl2 (by decide) only first
  have rewired := wired.trigger ctrl2Chan
  have recued := cued.trigger ctrl2Chan
  have aside := trigger_readAddr stopped ctrl2Chan ctrl1Chan
  rw [← triggered] at fetching rewired running recued aside
  exact .fetchData rewired running recued fetching (aside.trans later) inside last rfl rfl rfl

theorem drop_found {list : ControlList} {index : Nat} {block : Block Object}
    (found : (controlBlocks list)[index]? = some block) :
    (controlBlocks list).drop index = block :: (controlBlocks list).drop (index + 1) := by
  obtain ⟨inside, rfl⟩ := List.getElem?_eq_some_iff.mp found
  exact List.drop_eq_getElem_cons inside

theorem step_pointer {index : Nat} (stepped : engine.step (bus read) index = some next) :
    (next.memory.readAddr, next.memory.transCount) = (engine.memory.readAddr, engine.memory.transCount) := by
  apply step_keeps (fun memory : Memory => (memory.readAddr, memory.transCount)) ?_ ?_ stepped
  · intro memory channel ctrl word
    cases word with
    | bits value =>
      have sniffed : (bus read).sniff memory channel ctrl (.bits value) =
          if memory.sniffEnabled ∧ memory.sniffChannel = channel ∧ ctrl.sniffEn then
            { memory with sniffData := Crc.shiftByte memory.sniffData (value.setWidth 8) }
          else memory := rfl
      rw [sniffed]
      split
      · rfl
      · rfl
    | address value => rfl
    | count value => rfl
    | ctrl value => rfl
  · intro memory address word after stored
    have stored : store memory address word = some after := stored
    unfold store at stored
    split at stored
    all_goals cases stored
    all_goals rfl

theorem step_readAddr {index : Nat} (stepped : engine.step (bus read) index = some next) :
    next.memory.readAddr = engine.memory.readAddr := congrArg Prod.fst (step_pointer stepped)

theorem step_transCount {index : Nat} (stepped : engine.step (bus read) index = some next) :
    next.memory.transCount = engine.memory.transCount := congrArg Prod.snd (step_pointer stepped)

theorem step_fetch {ping pong index words : Nat} {list : ControlList} {block : Block Object}
    (wired : Wired engine.channels words 0 ping pong) (only : OnlyBusy engine.channels (some ctrl1Chan))
    (cued : Cued engine.channels) (found : (controlBlocks list)[index]? = some block)
    (fetching : Fetching engine.channels ctrl1Chan data1Chan (.controlList list) block index words)
    (ready : armed ∨ chainsLater list index → (engine.channels ctrl2Chan).readAddr = at0 .controlBlocksDataOut)
    (once : chainsLater list index → armed = false)
    (ends : final = runBlocks read ((controlBlocks list).drop index) engine.memory)
    (counted : left + words = listUnits engine.memory.transCount ((controlBlocks list).drop index))
    (stepped : engine.step (bus read) ctrl1Chan = some next) :
    ∃ fewer, left = fewer + 1 ∧ Sending read next armed final fewer := by
  have loaded : (bus read).load engine.memory ⟨.controlList list, 16 * index + 4 * words⟩ =
      some (block.word words) := blockWord_at found fetching.inside
  have memory := Phase.fetch_memory fetching (Phase.ctrl1_target wired) loaded stepped
  rcases fetching.step_cases only (Phase.ctrl1_target wired) loaded stepped with
    ⟨more, copies, busy, further⟩ | ⟨full, copies, busy, later, given⟩
  · have units : 4 ≤ listUnits engine.memory.transCount ((controlBlocks list).drop index) := by
      rw [drop_found found, listUnits]
      split
      · exact Nat.le_add_right 4 _
      · exact Nat.le_refl 4
    refine ⟨left - 1, by omega,
      .fetch (wired.copies1 copies) busy (cued.copies copies (by decide) (by decide)) found further ?_ once ?_ ?_⟩
    · rw [copies.others _ (by decide) (by decide)]
      exact ready
    · rw [memory]
      exact ends
    · rw [memory]
      omega
  · rw [drop_found found] at ends counted
    have rewired := wired.copies1 copies
    have recued : Cued next.channels := cued.copies copies (by decide) (by decide)
    have aside := copies.others ctrl2Chan (by decide) (by decide)
    by_cases enabled : block.ctrl.en
    · rw [if_pos enabled] at busy
      rw [listUnits, if_pos enabled] at counted
      rw [runBlocks, if_pos enabled] at ends
      refine ⟨_, ?_, .work rewired busy recued found enabled (.of_given given) later ?_ once ?_ rfl⟩
      · rw [memory, Channel.unitsLeft, given.started enabled]
        omega
      · rw [aside]
        exact ready
      · rw [given.through enabled, memory]
        exact ends
    · rw [if_neg enabled] at busy
      rw [listUnits, if_neg enabled] at counted
      rw [runBlocks, if_neg enabled] at ends
      refine ⟨0, by omega, .rest rewired busy recued ?_ ?_ rfl⟩
      · intro armed
        rw [aside]
        exact ready (.inl armed)
      · rw [memory]
        exact ends

theorem step_work {ping pong index : Nat} {list : ControlList} {block : Block Object}
    (wired : Wired engine.channels 0 0 ping pong) (only : OnlyBusy engine.channels (some data1Chan))
    (cued : Cued engine.channels) (found : (controlBlocks list)[index]? = some block) (enabled : block.ctrl.en = true)
    (working : Working engine.channels data1Chan block)
    (later : (engine.channels ctrl1Chan).readAddr = ⟨.controlList list, 16 * (index + 1)⟩)
    (ready : armed ∨ chainsLater list index → (engine.channels ctrl2Chan).readAddr = at0 .controlBlocksDataOut)
    (once : chainsLater list index → armed = false)
    (ends : final = ((engine.channels data1Chan).through (bus read) data1Chan engine.memory).bind fun memory =>
      (if block.ctrl.chainTo = ctrl2Chan then sendData read memory else some memory).bind
        (runBlocks read ((controlBlocks list).drop (index + 1))))
    (counted : left = (engine.channels data1Chan).unitsLeft + (blockUnits engine.memory.transCount block +
      listUnits engine.memory.transCount ((controlBlocks list).drop (index + 1))))
    (stepped : engine.step (bus read) data1Chan = some next) :
    ∃ fewer, left = fewer + 1 ∧ Sending read next armed final fewer := by
  obtain ⟨_, inside, chain⟩ := controlBlocks_spec read found enabled
  obtain ⟨beyond, apart⟩ := Phase.work_apart read found enabled working
  have kept := step_transCount stepped
  obtain ⟨channel, ctrl, object, ⟨busy, channels, through, units⟩ | ⟨idle, channels, through, units⟩⟩ :=
    step_unit beyond apart stepped
  · have here : next.channels data1Chan = channel := by rw [channels, set_channels_self]
    have rewired : Wired next.channels 0 0 ping pong := by
      rw [channels]
      exact wired.setWorker (.inl rfl)
    have running : OnlyBusy next.channels (some data1Chan) := by
      rw [channels]
      exact only.set (busy.trans only.busy.symm)
    have recued : Cued next.channels := by
      rw [channels]
      exact cued.set (by decide)
    rw [← here] at ctrl object through units
    refine ⟨_, ?_, .work rewired running recued found enabled
      ⟨ctrl.trans working.ctrl, object.trans working.object⟩ ?_ ?_ once ?_ rfl⟩
    · rw [kept]
      omega
    · rw [channels, set_channels_other _ _ (by decide), later]
    · rw [channels, set_channels_other _ _ (by decide)]
      exact ready
    · rw [through]
      exact ends
  · rw [through, Option.bind_some] at ends
    rw [working.ctrl] at channels
    have stopped : OnlyBusy (engine.set data1Chan channel).channels none := only.stop idle
    have rewired : Wired (engine.set data1Chan channel).channels 0 0 ping pong := wired.setWorker (.inl rfl)
    have recued : Cued (engine.set data1Chan channel).channels := cued.set (by decide)
    have list1 : ((engine.set data1Chan channel).channels ctrl1Chan).readAddr =
        ⟨.controlList list, 16 * (index + 1)⟩ := by
      rw [set_channels_other _ _ (by decide), later]
    have list2 : (engine.set data1Chan channel).channels ctrl2Chan = engine.channels ctrl2Chan :=
      set_channels_other _ _ (by decide)
    rw [← kept] at counted
    rcases chain with ⟨first, keeps⟩ | ⟨second, chains, last⟩
    · have single : block.ctrl.chainTo ≠ ctrl2Chan := by
        rw [first]
        decide
      rw [if_neg single, Option.bind_some] at ends
      rw [blockUnits, if_neg single, units, Nat.zero_add] at counted
      refine ⟨_, counted.trans (Nat.add_comm 1 _), ?_⟩
      rw [ends]
      rw [first] at channels
      apply startCtrl1 channels rewired stopped recued list1 inside
      · intro needed
        rw [list2]
        exact ready (needed.imp id keeps)
      · exact fun chains => once (keeps chains)
    · rw [if_pos second] at ends
      rw [blockUnits, if_pos second, units] at counted
      obtain rfl := once chains
      refine ⟨_, counted.trans (Nat.add_comm 1 _), ?_⟩
      rw [ends]
      rw [second] at channels
      apply startCtrl2 channels rewired stopped recued ?_ list1 inside last
      rw [list2]
      exact ready (.inr chains)

theorem step_fetchData {ping pong index words : Nat} {list : ControlList}
    (wired : Wired engine.channels 0 words ping pong) (only : OnlyBusy engine.channels (some ctrl2Chan))
    (cued : Cued engine.channels)
    (fetching : Fetching engine.channels ctrl2Chan data2Chan .controlBlocksDataOut (dataBlock engine.memory) 0 words)
    (later : (engine.channels ctrl1Chan).readAddr = ⟨.controlList list, 16 * index⟩)
    (inside : index < (controlBlocks list).length) (last : chainsLater list index = false) (unarmed : armed = false)
    (ends : final = (sendData read engine.memory).bind (runBlocks read ((controlBlocks list).drop index)))
    (counted : left + words = dataUnits engine.memory.transCount +
      listUnits engine.memory.transCount ((controlBlocks list).drop index))
    (stepped : engine.step (bus read) ctrl2Chan = some next) :
    ∃ fewer, left = fewer + 1 ∧ Sending read next armed final fewer := by
  have loaded : (bus read).load engine.memory ⟨.controlBlocksDataOut, 16 * 0 + 4 * words⟩ =
      some ((dataBlock engine.memory).word words) := blockWord_at rfl fetching.inside
  have memory := Phase.fetch_memory fetching (Phase.ctrl2_target wired) loaded stepped
  unfold dataUnits at counted
  rw [← memory] at ends counted
  rcases fetching.step_cases only (Phase.ctrl2_target wired) loaded stepped with
    ⟨more, copies, busy, further⟩ | ⟨full, copies, busy, _, given⟩
  all_goals
    have rewired := wired.copies2 copies
    have recued : Cued next.channels := cued.copies copies (by decide) (by decide)
    have still : (next.channels ctrl1Chan).readAddr = ⟨.controlList list, 16 * index⟩ := by
      rw [copies.others _ (by decide) (by decide), later]
  · rw [← memory] at further
    refine ⟨left - 1, by omega, .fetchData rewired busy recued further still inside last unarmed ends ?_⟩
    unfold dataUnits
    omega
  · rw [← memory] at given
    have remaining : (next.channels data2Chan).remaining = next.memory.transCount := given.started rfl
    refine ⟨_, ?_, .workData rewired busy recued (.of_given given) still inside last unarmed ?_ rfl⟩
    · rw [Channel.unitsLeft, remaining]
      omega
    · rw [given.through rfl]
      exact ends

theorem step_workData {ping pong index : Nat} {list : ControlList}
    (wired : Wired engine.channels 0 0 ping pong) (only : OnlyBusy engine.channels (some data2Chan))
    (cued : Cued engine.channels) (working : Working engine.channels data2Chan (dataBlock engine.memory))
    (later : (engine.channels ctrl1Chan).readAddr = ⟨.controlList list, 16 * index⟩)
    (inside : index < (controlBlocks list).length) (last : chainsLater list index = false) (unarmed : armed = false)
    (ends : final = ((engine.channels data2Chan).through (bus read) data2Chan engine.memory).bind
      (runBlocks read ((controlBlocks list).drop index)))
    (counted : left = (engine.channels data2Chan).unitsLeft +
      listUnits engine.memory.transCount ((controlBlocks list).drop index))
    (stepped : engine.step (bus read) data2Chan = some next) :
    ∃ fewer, left = fewer + 1 ∧ Sending read next armed final fewer := by
  obtain ⟨beyond, chain⟩ := Phase.workData_apart read working
  have apart : (engine.channels data2Chan).ctrl.chainTo ≠ data2Chan := by
    rw [chain]
    decide
  have kept := step_transCount stepped
  obtain ⟨channel, ctrl, object, ⟨busy, channels, through, units⟩ | ⟨idle, channels, through, units⟩⟩ :=
    step_unit beyond apart stepped
  · have here : next.channels data2Chan = channel := by rw [channels, set_channels_self]
    have rewired : Wired next.channels 0 0 ping pong := by
      rw [channels]
      exact wired.setWorker (.inr rfl)
    have running : OnlyBusy next.channels (some data2Chan) := by
      rw [channels]
      exact only.set (busy.trans only.busy.symm)
    have recued : Cued next.channels := by
      rw [channels]
      exact cued.set (by decide)
    rw [← here] at ctrl object through units
    refine ⟨_, ?_, .workData rewired running recued
      ⟨ctrl.trans working.ctrl, object.trans working.object⟩ ?_ inside last unarmed ?_ rfl⟩
    · rw [kept]
      omega
    · rw [channels, set_channels_other _ _ (by decide), later]
    · rw [through]
      exact ends
  · rw [through, Option.bind_some] at ends
    rw [chain] at channels
    rw [units, ← kept] at counted
    refine ⟨_, counted.trans (Nat.add_comm 1 _), ?_⟩
    rw [ends]
    apply startCtrl1 channels (wired.setWorker (.inr rfl)) (only.stop idle) (cued.set (by decide)) ?_ inside
    · intro needed
      rcases needed with set | chains
      · rw [unarmed] at set
        cases set
      · rw [last] at chains
        cases chains
    · intro chains
      rw [last] at chains
      cases chains
    · exact (congrArg Channel.readAddr (set_channels_other _ _ (by decide))).trans later

/-- Each unit is one of those that are left. -/
theorem step {index : Nat} (sending : Sending read engine armed final left)
    (stepped : engine.step (bus read) index = some next) :
    ∃ fewer, left = fewer + 1 ∧ Sending read next armed final fewer := by
  cases sending with
  | rest _ only => cases only.step stepped
  | fetch wired only cued found fetching ready once ends counted =>
    cases only.step stepped
    exact step_fetch wired only cued found fetching ready once ends counted stepped
  | work wired only cued found enabled working later ready once ends counted =>
    cases only.step stepped
    exact step_work wired only cued found enabled working later ready once ends counted stepped
  | fetchData wired only cued fetching later inside last unarmed ends counted =>
    cases only.step stepped
    exact step_fetchData wired only cued fetching later inside last unarmed ends counted stepped
  | workData wired only cued working later inside last unarmed ends counted =>
    cases only.step stepped
    exact step_workData wired only cued working later inside last unarmed ends counted stepped

/-- An answer that can come to an end does not get stuck. -/
theorem moves {memory : Memory} (sending : Sending read engine armed (some memory) left) :
    OnlyBusy engine.channels none ∨ ∃ index < numDmaChannels, (engine.channels index).busy = true ∧
      ∃ next, engine.step (bus read) index = some next := by
  cases sending with
  | rest _ only => exact .inl only
  | fetch wired only cued found fetching =>
    exact .inr ⟨ctrl1Chan, by decide, only.busy,
      fetching.step_copies only (Phase.ctrl1_target wired) (blockWord_at found fetching.inside)⟩
  | work wired only cued found enabled working later ready once ends =>
    obtain ⟨outside, _, _⟩ := controlBlocks_spec read found enabled
    obtain ⟨between, through, _⟩ := Option.bind_eq_some_iff.mp ends.symm
    exact .inr ⟨data1Chan, by decide, only.busy, step_moves only.busy (by rw [working.object]; exact outside) through⟩
  | fetchData wired only cued fetching =>
    exact .inr ⟨ctrl2Chan, by decide, only.busy,
      fetching.step_copies only (Phase.ctrl2_target wired) (blockWord_at rfl fetching.inside)⟩
  | workData wired only cued working later inside last unarmed ends =>
    obtain ⟨between, through, _⟩ := Option.bind_eq_some_iff.mp ends.symm
    exact .inr ⟨data2Chan, by decide, only.busy, step_moves only.busy (by rw [working.object]; rfl) through⟩

theorem startList {state : State} {ping pong : Nat} (list : ControlList)
    (wired : Wired state.engine.channels 0 0 ping pong) (only : OnlyBusy state.engine.channels none)
    (cued : Cued state.engine.channels)
    (ready : armed ∨ chainsLater list 0 → (state.engine.channels ctrl2Chan).readAddr = at0 .controlBlocksDataOut)
    (once : chainsLater list 0 → armed = false) :
    ∃ left, Sending read (dmaChannelSetReadAddr state ctrl1Chan (at0 (.controlList list)) true).engine armed
      (runBlocks read (controlBlocks list) state.engine.memory) left := by
  obtain ⟨pointed, first, aside⟩ := wired.point list
  have nonempty : 0 < (controlBlocks list).length := by cases list <;> decide
  exact ⟨_, startCtrl1 rfl pointed (only.set rfl) (cued.set (by decide)) first nonempty
    (fun needed => aside.trans (ready needed)) once⟩

end Sending

end Fruitchip.DataOut
