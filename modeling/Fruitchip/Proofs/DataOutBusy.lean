import Fruitchip.Proofs.DataOutFraming

/-! The busy code. PING pushes its four bytes, PONG resets the pointer and starts
the channel it is told to, which is PING until the core wants the status code. -/

namespace Fruitchip.DataOut
open Embedded Embedded.Dma Embedded.Dma.Engine Firmware

def busyWords (count : Nat) : List U8 := (List.replicate count (bytes32 modchipCmdResultBusy)).flatten

theorem busyWords_succ (count : Nat) : busyWords (count + 1) = busyWords count ++ bytes32 modchipCmdResultBusy := by
  rw [busyWords, List.replicate_succ', List.flatten_append, List.flatten_singleton, busyWords]

/-- PING is about to push byte `sent` of a copy, or PONG comes next. Where PONG
leads to is `chainTo`, and `left` are the units up to there. -/
inductive Busy (channels : Nat → Channel Object) (chainTo : Nat) (pushed : List U8) (left : Nat) : Prop
  | ping {sent count : Nat} (wired : Wired channels 0 0 busyPong chainTo) (only : OnlyBusy channels (some busyPing))
    (pong : (channels busyPong).readAddr = at0 .busyCodePtr)
    (readAddr : (channels busyPing).readAddr = ⟨.busyCode, sent⟩) (more : sent < 4)
    (remaining : (channels busyPing).remaining = 4 - sent)
    (sends : pushed = busyWords count ++ (bytes32 modchipCmdResultBusy).take sent) (counted : left = 5 - sent)
  | pong {count : Nat} (wired : Wired channels 0 0 busyPong chainTo) (only : OnlyBusy channels (some busyPong))
    (pong : (channels busyPong).readAddr = at0 .busyCodePtr) (remaining : (channels busyPong).remaining = 1)
    (sends : pushed = busyWords (count + 1)) (counted : left = 1)

/-- A unit pushes these bytes and does nothing else that matters to an answer. -/
structure Pushes (engine next : Engine Object Memory) (bytes : List U8) : Prop where
  memory : next.memory = { engine.memory with pushed := engine.memory.pushed ++ bytes }
  ctrl1 : (next.channels ctrl1Chan).readAddr = (engine.channels ctrl1Chan).readAddr
  ctrl2 : (next.channels ctrl2Chan).readAddr = (engine.channels ctrl2Chan).readAddr

/-- PONG has triggered the next channel, after whole copies. -/
structure Passed (stopped next : Engine Object Memory) (chainTo : Nat) (pushed : List U8) : Prop where
  triggered : next.channels = (stopped.trigger chainTo).channels
  wired : Wired stopped.channels 0 0 busyPong chainTo
  only : OnlyBusy stopped.channels none
  cued : Cued stopped.channels
  ctrl1 : (stopped.channels ctrl1Chan).readAddr = (next.channels ctrl1Chan).readAddr
  ctrl2 : (stopped.channels ctrl2Chan).readAddr = (next.channels ctrl2Chan).readAddr
  sends : ∃ count, pushed = busyWords (count + 1)

namespace Busy

variable {engine next : Engine Object Memory} {read : DataRef → Nat → U8} {chainTo left : Nat} {pushed : List U8}

theorem take_next (v : U32) {sent : Nat} (more : sent < 4) :
    (bytes32 v).take (sent + 1) = (bytes32 v).take sent ++ [byteAt v sent] := by
  match sent, more with
  | 0, _ | 1, _ | 2, _ | 3, _ => rfl

theorem ping_moved {sent : Nat} (wired : Wired engine.channels 0 0 busyPong chainTo)
    (readAddr : (engine.channels busyPing).readAddr = ⟨.busyCode, sent⟩) :
    (engine.channels busyPing).moved.program = pingProgram busyPong ∧
      (engine.channels busyPing).moved.readAddr = ⟨.busyCode, sent + 1⟩ := by
  obtain ⟨writeAddr, transCount, ctrl⟩ := Program.mk.inj wired.ping
  constructor
  · simp [Channel.program, Channel.moved, writeAddr, transCount, ctrl, advance, busyPingConfig, defaultConfig,
      Ctrl.null, pingProgram, Program.chained, at0]
  · simp [Channel.moved, readAddr, ctrl, advance, busyPingConfig, defaultConfig, Ctrl.null]

theorem step_ping {sent count : Nat} (wired : Wired engine.channels 0 0 busyPong chainTo)
    (only : OnlyBusy engine.channels (some busyPing)) (pong : (engine.channels busyPong).readAddr = at0 .busyCodePtr)
    (readAddr : (engine.channels busyPing).readAddr = ⟨.busyCode, sent⟩) (more : sent < 4)
    (remaining : (engine.channels busyPing).remaining = 4 - sent)
    (sends : pushed = busyWords count ++ (bytes32 modchipCmdResultBusy).take sent) (counted : left = 5 - sent)
    (stepped : engine.step (bus read) busyPing = some next) :
    ∃ byte fewer, left = fewer + 1 ∧ Pushes engine next [byte] ∧ Busy next.channels chainTo (pushed ++ [byte]) fewer := by
  obtain ⟨writeAddr, transCount, ctrl⟩ := Program.mk.inj wired.ping
  obtain ⟨program, address⟩ := ping_moved wired readAddr
  obtain ⟨_, ⟨done, _⟩ | ⟨_, word, delivered, loaded, arrived, rfl⟩⟩ := step_cases stepped
  · omega
  have found : (bus read).load engine.memory (engine.channels busyPing).readAddr =
      some (byteWord (byteAt modchipCmdResultBusy sent)) := by
    rw [readAddr]
    rfl
  obtain rfl : byteWord (byteAt modchipCmdResultBusy sent) = word := Option.some.inj (found.symm.trans loaded)
  have plain : (engine.channels busyPing).ctrl.sniffEn = false := by
    rw [ctrl]
    rfl
  rw [sniff_unseen plain, writeAddr, deliver_outside rfl] at arrived
  obtain ⟨memory, stored, rfl⟩ := Option.map_eq_some_iff.mp arrived
  have stored : store engine.memory (at0 .txf) (byteWord (byteAt modchipCmdResultBusy sent)) = some memory := stored
  have pushing : memory =
      { engine.memory with pushed := engine.memory.pushed ++ [byteAt modchipCmdResultBusy sent] } := by
    simpa [store, byteWord, at0] using stored.symm
  have fewer : (engine.channels busyPing).moved.remaining = 3 - sent := by
    show (engine.channels busyPing).remaining - 1 = _
    omega
  have taken : pushed ++ [byteAt modchipCmdResultBusy sent] =
      busyWords count ++ (bytes32 modchipCmdResultBusy).take (sent + 1) := by
    rw [sends, List.append_assoc, take_next _ more]
  refine ⟨byteAt modchipCmdResultBusy sent, 4 - sent, by omega, ?_⟩
  split
  next last =>
    obtain rfl : sent = 3 := by omega
    have chained : busyPing ≠ busyPong := by decide
    have chain : (engine.channels busyPing).moved.ctrl.chainTo = busyPong := by
      show (engine.channels busyPing).ctrl.chainTo = _
      rw [ctrl]
    have channels : (Engine.finish { engine.set busyPing (engine.channels busyPing).moved with memory } busyPing).channels =
        ((engine.set busyPing { (engine.channels busyPing).moved with busy := false }).trigger busyPong).channels := by
      rw [finish_chain]
      · rw [set_channels_self, chain]
        apply trigger_congr
        have again := congrArg Engine.channels (set_set engine busyPing (engine.channels busyPing).moved
          { (engine.channels busyPing).moved with busy := false })
        exact again
      · rw [set_channels_self, chain]
        exact chained.symm
    have stopped : OnlyBusy (engine.set busyPing { (engine.channels busyPing).moved with busy := false }).channels none :=
      only.stop rfl
    have rewired : Wired (engine.set busyPing { (engine.channels busyPing).moved with busy := false }).channels 0 0
        busyPong chainTo := wired.set (program.trans wired.ping.symm)
    have pongCtrl : ((engine.set busyPing { (engine.channels busyPing).moved with busy := false }).channels
        busyPong).program = pongProgram chainTo := rewired.pong
    obtain ⟨_, pongCount, pongCtrl⟩ := Program.mk.inj pongCtrl
    have enabled : ((engine.set busyPing { (engine.channels busyPing).moved with busy := false }).channels
        busyPong).ctrl.en = true := by
      rw [pongCtrl]
      rfl
    refine ⟨⟨?_, ?_, ?_⟩, ?_⟩
    · rw [finish_memory]
      exact pushing
    · rw [channels, trigger_readAddr, set_channels_other _ _ (by decide)]
    · rw [channels, trigger_readAddr, set_channels_other _ _ (by decide)]
    · rw [channels]
      refine .pong (rewired.trigger _) (stopped.trigger enabled) ?_ ?_ (taken.trans (busyWords_succ count).symm) rfl
      · rw [trigger_readAddr, set_channels_other _ _ (by decide), pong]
      · rw [trigger, set_channels_self, Channel.triggered_enabled enabled stopped.rests]
        exact pongCount
  next others =>
    have aside (index : Nat) (apart : index ≠ busyPing) :
        (engine.set busyPing (engine.channels busyPing).moved).channels index = engine.channels index :=
      set_channels_other _ _ apart
    have here : (engine.set busyPing (engine.channels busyPing).moved).channels busyPing =
        (engine.channels busyPing).moved := set_channels_self _ _ _
    refine ⟨⟨pushing, ?_, ?_⟩, ?_⟩
    · exact congrArg Channel.readAddr (aside ctrl1Chan (by decide))
    · exact congrArg Channel.readAddr (aside ctrl2Chan (by decide))
    · refine .ping (wired.set (program.trans wired.ping.symm)) (only.set rfl) ?_ ?_ (by omega) ?_ taken (by omega)
      · exact (congrArg Channel.readAddr (aside busyPong (by decide))).trans pong
      · exact (congrArg Channel.readAddr here).trans address
      · exact (congrArg Channel.remaining here).trans (by omega)

theorem step_pong {count : Nat} (wired : Wired engine.channels 0 0 busyPong chainTo)
    (only : OnlyBusy engine.channels (some busyPong)) (pong : (engine.channels busyPong).readAddr = at0 .busyCodePtr)
    (remaining : (engine.channels busyPong).remaining = 1) (sends : pushed = busyWords (count + 1))
    (elsewhere : chainTo ≠ busyPong) (stepped : engine.step (bus read) busyPong = some next) :
    next.memory = engine.memory ∧ (next.channels ctrl1Chan).readAddr = (engine.channels ctrl1Chan).readAddr ∧
      (next.channels ctrl2Chan).readAddr = (engine.channels ctrl2Chan).readAddr ∧
      ∃ stopped, Passed stopped next chainTo pushed := by
  obtain ⟨pongAddr, _, pongCtrl⟩ := Program.mk.inj wired.pong
  have there : (bus read).registers (engine.channels busyPong).writeAddr.object = some busyPing := by
    rw [pongAddr]
    rfl
  have chain : (engine.channels busyPong).ctrl.chainTo = chainTo := by rw [pongCtrl]
  obtain ⟨channel, readAddr, program, still, carried, moves⟩ := step_writer there (by rw [pongAddr]; rfl)
    (by rw [pongCtrl]; rfl) (by decide) (by rw [chain]; exact elsewhere) stepped
  obtain ⟨loaded, memory⟩ := carried (by rw [remaining]; decide)
  rw [pong] at loaded
  obtain rfl : at0 .busyCode = readAddr := Word.address.inj (Option.some.inj loaded)
  have kept : channel.readAddr = at0 .busyCodePtr := (still (by rw [pongCtrl]; rfl)).trans pong
  rcases moves with ⟨_, several, _⟩ | ⟨idle, channels⟩
  · exact absurd remaining several
  rw [chain] at channels
  have aside (index : Nat) (apart : index < busyPing) :
      (((engine.set busyPong channel).set busyPing { engine.channels busyPing with readAddr := at0 .busyCode }).channels
        index).readAddr = (engine.channels index).readAddr := by
    have first : index ≠ busyPing := Nat.ne_of_lt apart
    have second : index ≠ busyPong := Nat.ne_of_lt (Nat.lt_succ_of_lt apart)
    rw [set_channels_other _ _ first, set_channels_other _ _ second]
  refine ⟨memory, ?_, ?_, _, ⟨channels, ?_, ?_, ⟨?_, ?_⟩, ?_, ?_, count, sends⟩⟩
  · rw [channels, trigger_readAddr, aside _ (by decide)]
  · rw [channels, trigger_readAddr, aside _ (by decide)]
  · apply (wired.set program).set
    rw [set_channels_other _ _ (by decide)]
    rfl
  · apply (only.stop idle).set
    rw [set_channels_other _ _ (by decide)]
  · rw [set_channels_self]
  · rw [set_channels_other _ _ (by decide), set_channels_self, kept]
  · rw [channels, trigger_readAddr]
  · rw [channels, trigger_readAddr]

theorem start {stopped : Engine Object Memory} (triggered : next.channels = (stopped.trigger busyPing).channels)
    (wired : Wired stopped.channels 0 0 busyPong chainTo) (only : OnlyBusy stopped.channels none)
    (cued : Cued stopped.channels) (count : Nat) : Busy next.channels chainTo (busyWords count) 5 := by
  obtain ⟨_, transCount, ctrl⟩ := Program.mk.inj wired.ping
  have enabled : (stopped.channels busyPing).ctrl.en = true := by
    rw [ctrl]
    rfl
  rw [triggered]
  refine @Busy.ping _ _ _ _ 0 count (wired.trigger _) (only.trigger enabled) ?_ ?_ (by decide) ?_ ?_ rfl
  · rw [trigger_readAddr, cued.pong]
  · rw [trigger_readAddr, cued.ping]
    rfl
  · rw [trigger, set_channels_self, Channel.triggered_enabled enabled only.rests]
    exact transCount
  · rw [List.take_zero, List.append_nil]

theorem point {channel : Channel Object} (busy : Busy engine.channels chainTo pushed left)
    (program : channel.program = (engine.channels ctrl1Chan).program)
    (still : channel.busy = (engine.channels ctrl1Chan).busy) :
    Busy (engine.set ctrl1Chan channel).channels chainTo pushed left := by
  have ping : (engine.set ctrl1Chan channel).channels busyPing = engine.channels busyPing :=
    set_channels_other _ _ (by decide)
  have pong : (engine.set ctrl1Chan channel).channels busyPong = engine.channels busyPong :=
    set_channels_other _ _ (by decide)
  cases busy with
  | ping wired only pongAddr readAddr more remaining sends counted =>
    refine .ping (wired.set program) (only.set still) ?_ ?_ more ?_ sends counted
    · rw [pong, pongAddr]
    · rw [ping, readAddr]
    · rw [ping, remaining]
  | pong wired only pongAddr remaining sends counted =>
    refine .pong (wired.set program) (only.set still) ?_ ?_ sends counted
    · rw [pong, pongAddr]
    · rw [pong, remaining]

theorem rechain (busy : Busy engine.channels chainTo pushed left) (target : Nat) :
    Busy (engine.set busyPong { engine.channels busyPong with ctrl.chainTo := target }).channels target pushed left := by
  have ping : (engine.set busyPong { engine.channels busyPong with ctrl.chainTo := target }).channels busyPing =
      engine.channels busyPing := set_channels_other _ _ (by decide)
  have pong : (engine.set busyPong { engine.channels busyPong with ctrl.chainTo := target }).channels busyPong =
      { engine.channels busyPong with ctrl.chainTo := target } := set_channels_self _ _ _
  cases busy with
  | ping wired only pongAddr readAddr more remaining sends counted =>
    refine .ping (wired.setPong (Channel.rechained wired.pong target)) (only.set rfl) ?_ ?_ more ?_ sends counted
    · rw [pong]
      exact pongAddr
    · rw [ping, readAddr]
    · rw [ping, remaining]
  | pong wired only pongAddr remaining sends counted =>
    refine .pong (wired.setPong (Channel.rechained wired.pong target)) (only.set rfl) ?_ ?_ sends counted
    · rw [pong]
      exact pongAddr
    · rw [pong]
      exact remaining

theorem step {index : Nat} (busy : Busy engine.channels chainTo pushed left) (elsewhere : chainTo ≠ busyPong)
    (stepped : engine.step (bus read) index = some next) :
    ∃ bytes fewer, left = fewer + 1 ∧ Pushes engine next bytes ∧
      (Busy next.channels chainTo (pushed ++ bytes) fewer ∨
        fewer = 0 ∧ ∃ stopped, Passed stopped next chainTo (pushed ++ bytes)) := by
  cases busy with
  | ping wired only pong readAddr more remaining sends counted =>
    cases only.step stepped
    obtain ⟨byte, fewer, units, pushes, busy⟩ :=
      step_ping wired only pong readAddr more remaining sends counted stepped
    exact ⟨[byte], fewer, units, pushes, .inl busy⟩
  | pong wired only pong remaining sends counted =>
    cases only.step stepped
    obtain ⟨memory, ctrl1, ctrl2, stopped, passed⟩ := step_pong wired only pong remaining sends elsewhere stepped
    refine ⟨[], 0, counted, ⟨?_, ctrl1, ctrl2⟩, .inr ⟨rfl, stopped, ?_⟩⟩
    · rw [memory, List.append_nil]
    · rw [List.append_nil]
      exact passed

/-- The busy code does not get stuck. -/
theorem moves (busy : Busy engine.channels chainTo pushed left) :
    ∃ index < numDmaChannels, (engine.channels index).busy = true ∧ ∃ next, engine.step (bus read) index = some next := by
  cases busy with
  | ping wired only pong readAddr =>
    obtain ⟨writeAddr, _, ctrl⟩ := Program.mk.inj wired.ping
    have bytewise : Bytewise (engine.channels busyPing).ctrl := by
      rw [ctrl]
      exact ⟨rfl, rfl, rfl, rfl⟩
    have through : ∃ memory, (engine.channels busyPing).through (bus read) busyPing engine.memory = some memory := by
      rw [Channel.through, readAddr, writeAddr]
      exact ⟨_, @transfer_bytes read engine.memory busyPing _ bytewise .busyCode (byteAt modchipCmdResultBusy)
        (fun _ => True) (fun _ _ _ => trivial) (fun _ _ _ => rfl) _ _ trivial⟩
    obtain ⟨memory, through⟩ := through
    exact ⟨busyPing, by decide, only.busy, step_moves only.busy (by rw [writeAddr]; rfl) through⟩
  | pong wired only pong remaining =>
    obtain ⟨writeAddr, _, _⟩ := Program.mk.inj wired.pong
    refine ⟨busyPong, by decide, only.busy, ?_⟩
    simp only [Engine.step, only.busy, ite_true, remaining, pong, writeAddr]
    exact ⟨_, rfl⟩

end Busy

end Fruitchip.DataOut
