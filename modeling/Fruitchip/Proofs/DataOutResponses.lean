import Fruitchip.Proofs.DataOutBusy
import Fruitchip.Proofs.Session

/-! The responses of `data_out.c`, after any number of others: what goes out is
the layout that the client reads, and the busy code is never torn. -/

namespace Fruitchip.DataOut
open Embedded Embedded.Dma Embedded.Dma.Engine Firmware Client

/-- What the core has still to do, and the DMA. -/
structure Sender where
  pending : List Task
  state : State

inductive Move where
  | task
  | unit (channel : Nat)

def Sender.step (read : DataRef → Nat → U8) (sender : Sender) : Move → Option Sender
  | .task =>
    match sender.pending with
    | [] => none
    | task :: pending => (task.perform sender.state).map fun state => ⟨pending, state⟩
  | .unit channel => (sender.state.engine.step (bus read) channel).map fun engine =>
      { sender with state.engine := engine }

def Sender.run (read : DataRef → Nat → U8) : Sender → List Move → Option Sender
  | sender, [] => some sender
  | sender, move :: rest => (sender.step read move).bind (Sender.run read · rest)

def Sender.Done (sender : Sender) : Prop := sender.pending = [] ∧ sender.state.quiet

def Sender.pushed (sender : Sender) : List U8 := sender.state.engine.memory.pushed

/-- The responses of `data_out.c`. -/
inductive Response where
  | status (statusCode : U32)
  | dataWithStatus (statusCode : U32) (readAddr : DataRef) (transferCount : U32) (crc : Bool)
  /-- The data are those of a `boot_rom_data_out_set_data` before. -/
  | dataWithoutStatus (crc : Bool)
  | busy (statusCode : U32)

def Response.events : Response → List Event
  | .status statusCode => [.startStatusCode statusCode]
  | .dataWithStatus statusCode readAddr transferCount crc =>
    [.startDataWithStatusCode statusCode readAddr transferCount crc]
  | .dataWithoutStatus crc => [.startDataWithoutStatusCode crc]
  | .busy statusCode => [.startBusyCode, .stopBusyCode statusCode]

def Response.tasks (response : Response) : List Task := response.events.flatMap DataOut.tasks

def Response.leaves (set : Option (DataRef × U32)) : Response → Option (DataRef × U32)
  | .status _ | .busy _ => set
  | .dataWithStatus .. | .dataWithoutStatus _ => none

/-- A response without status code needs data. -/
def Response.Allowed (set : Option (DataRef × U32)) : Response → Prop
  | .dataWithoutStatus _ => set.isSome
  | _ => True

/-- No response is on its way, after any number of them. -/
inductive Rests : State → Option (DataRef × U32) → Prop
  | initial : Rests .initial none
  | setData {state : State} {set : Option (DataRef × U32)} (rests : Rests state set) (readAddr : DataRef)
    (transferCount : U32) :
    Rests (bootRomDataOutSetData state (at0 (.data readAddr)) transferCount.toNat) (some (readAddr, transferCount))
  | completed {state : State} {set : Option (DataRef × U32)} {response : Response} {read : DataRef → Nat → U8}
    {moves : List Move} {last : Sender} (rests : Rests state set) (allowed : response.Allowed set)
    (ran : Sender.run read ⟨response.tasks, state⟩ moves = some last) (done : last.Done) :
    Rests last.state (response.leaves set)

/-- A response comes to an end, and what it has pushed by then. -/
structure Sends (read : DataRef → Nat → U8) (sender : Sender) (stream : List U8 → Prop) : Prop where
  /-- It does not get stuck. -/
  goesOn : ∀ moves next, sender.run read moves = some next → ¬ next.Done → ∃ move after, next.step read move = some after
  /-- Once the core has done its part, so many units are left. -/
  bounded : ∀ moves next, sender.run read moves = some next → next.pending = [] →
    ∃ bound, ∀ more last, next.run read more = some last → more.length ≤ bound
  exact : ∀ moves next, sender.run read moves = some next → next.Done →
    ∃ bytes, next.pushed = sender.pushed ++ bytes ∧ stream bytes

def Response.Streams (read : DataRef → Nat → U8) (set : Option (DataRef × U32)) : Response → List U8 → Prop
  | .status statusCode, bytes => bytes = bytes32 statusCode ++ [0]
  | .dataWithStatus statusCode readAddr transferCount crc, bytes =>
    bytes = bytes32 statusCode ++ dataOut (dataBytes read readAddr transferCount.toNat) crc ++ [0]
  | .dataWithoutStatus crc, bytes =>
    ∃ data, set = some data ∧ bytes = dataOut (dataBytes read data.1 data.2.toNat) crc ++ [0]
  | .busy statusCode, bytes => ∃ count, bytes = busyWords (count + 1) ++ bytes32 statusCode ++ [0]

structure Set (engine : Engine Object Memory) (data : DataRef × U32) : Prop where
  ctrl2 : (engine.channels ctrl2Chan).readAddr = at0 .controlBlocksDataOut
  readAddr : engine.memory.readAddr = at0 (.data data.1)
  transCount : engine.memory.transCount = data.2.toNat

structure AtRest (engine : Engine Object Memory) (set : Option (DataRef × U32)) : Prop where
  wired : ∃ ping pong, Wired engine.channels 0 0 ping pong
  only : OnlyBusy engine.channels none
  cued : Cued engine.channels
  ready : ∀ data, set = some data → Set engine data

/-- An answer on its way, the bytes that will have been pushed in the end, and
the data that will be set. -/
structure Responding (read : DataRef → Nat → U8) (engine : Engine Object Memory) (set : Option (DataRef × U32))
    (pushed : List U8) (left : Nat) : Prop where
  sending : ∃ final, Sending read engine set.isSome (some final) left ∧ final.pushed = pushed
  readAddr : ∀ data, set = some data →
    engine.memory.readAddr = at0 (.data data.1) ∧ engine.memory.transCount = data.2.toNat

variable {read : DataRef → Nat → U8} {state : State} {engine next : Engine Object Memory}
variable {set : Option (DataRef × U32)} {pushed : List U8} {left : Nat}

theorem quiet_of_only (only : OnlyBusy state.engine.channels none) : state.quiet := by
  rw [State.quiet, List.all_eq_true]
  intro channel _
  rw [only.rests]
  rfl

theorem busy_not_quiet {index : Nat} (below : index < numDmaChannels) (busy : (state.engine.channels index).busy = true) :
    ¬ state.quiet := by
  intro quiet
  have still := List.all_eq_true.mp quiet index (List.mem_range.mpr below)
  rw [busy] at still
  cases still

theorem Responding.step {index : Nat} (responding : Responding read engine set pushed left)
    (stepped : engine.step (bus read) index = some next) :
    ∃ fewer, left = fewer + 1 ∧ Responding read next set pushed fewer := by
  obtain ⟨final, sending, sends⟩ := responding.sending
  obtain ⟨fewer, units, later⟩ := sending.step stepped
  refine ⟨fewer, units, ⟨final, later, sends⟩, ?_⟩
  intro data named
  obtain ⟨readAddr, transCount⟩ := responding.readAddr data named
  exact ⟨(Sending.step_readAddr stepped).trans readAddr, (Sending.step_transCount stepped).trans transCount⟩

theorem Responding.moves (responding : Responding read state.engine set pushed left) (moving : ¬ state.quiet) :
    ∃ index next, state.engine.step (bus read) index = some next := by
  obtain ⟨final, sending, _⟩ := responding.sending
  rcases sending.moves with only | ⟨index, _, _, next, stepped⟩
  · exact absurd (quiet_of_only only) moving
  · exact ⟨index, next, stepped⟩

/-- When no channel is busy, the answer is out. -/
theorem Responding.rests (responding : Responding read state.engine set pushed left) (quiet : state.quiet) :
    AtRest state.engine set ∧ state.engine.memory.pushed = pushed := by
  obtain ⟨final, sending, sends⟩ := responding.sending
  cases sending with
  | rest wired only cued ready ends =>
    cases ends
    refine ⟨⟨⟨_, _, wired⟩, only, cued, ?_⟩, sends⟩
    intro data named
    obtain ⟨readAddr, transCount⟩ := responding.readAddr data named
    exact ⟨ready (by rw [named]; rfl), readAddr, transCount⟩
  | fetch _ only => exact absurd quiet (busy_not_quiet (by decide) only.busy)
  | work _ only => exact absurd quiet (busy_not_quiet (by decide) only.busy)
  | fetchData _ only => exact absurd quiet (busy_not_quiet (by decide) only.busy)
  | workData _ only => exact absurd quiet (busy_not_quiet (by decide) only.busy)

theorem AtRest.setStatus (atRest : AtRest state.engine set) (statusCode : U32) :
    AtRest (setStatusCode state statusCode).engine set := by
  refine ⟨atRest.wired, atRest.only, atRest.cued, ?_⟩
  intro data named
  have ready := atRest.ready data named
  exact ⟨ready.ctrl2, ready.readAddr, ready.transCount⟩

theorem AtRest.setData (atRest : AtRest state.engine set) (readAddr : DataRef) (transferCount : U32) :
    AtRest (bootRomDataOutSetData state (at0 (.data readAddr)) transferCount.toNat).engine
      (some (readAddr, transferCount)) := by
  obtain ⟨ping, pong, wired⟩ := atRest.wired
  refine ⟨⟨ping, pong, wired.set rfl⟩, atRest.only.set rfl, atRest.cued.set (by decide), ?_⟩
  intro data named
  cases named
  exact ⟨congrArg Channel.readAddr (set_channels_self _ _ _), rfl, rfl⟩

theorem AtRest.startStatus (atRest : AtRest state.engine set) (statusCode : U32) :
    ∃ left, Responding read (bootRomDataOutStartStatusCode state statusCode).engine set
      (state.engine.memory.pushed ++ (bytes32 statusCode ++ [0])) left := by
  have coded := atRest.setStatus statusCode
  obtain ⟨ping, pong, wired⟩ := coded.wired
  have alone : chainsLater .withStatusNoDataNoCrc 0 = false := by decide
  have ready (needed : set.isSome = true ∨ chainsLater .withStatusNoDataNoCrc 0 = true) :
      ((setStatusCode state statusCode).engine.channels ctrl2Chan).readAddr = at0 .controlBlocksDataOut := by
    rcases needed with armed | chains
    · obtain ⟨data, named⟩ := Option.isSome_iff_exists.mp armed
      exact (coded.ready data named).ctrl2
    · rw [alone] at chains
      cases chains
  obtain ⟨left, sending⟩ := @Sending.startList read _ _ _ _ .withStatusNoDataNoCrc wired coded.only coded.cued ready
    (fun chains => absurd chains (by rw [alone]; decide))
  rw [runBlocks_status] at sending
  refine ⟨left, ⟨_, sending, List.append_assoc _ _ _⟩, ?_⟩
  intro data named
  have set := coded.ready data named
  exact ⟨set.readAddr, set.transCount⟩

theorem AtRest.startDataWithStatus (atRest : AtRest state.engine set) (statusCode : U32) (readAddr : DataRef)
    (transferCount : U32) (crc : Bool) :
    ∃ left, Responding read (bootRomDataOutStartDataWithStatusCode state statusCode (at0 (.data readAddr))
        transferCount.toNat crc).engine none
      (state.engine.memory.pushed ++
        (bytes32 statusCode ++ dataOut (dataBytes read readAddr transferCount.toNat) crc ++ [0])) left := by
  have coded := (atRest.setStatus statusCode).setData readAddr transferCount
  obtain ⟨final, ends, sends⟩ := @runBlocks_withStatus read
    (bootRomDataOutSetData (setStatusCode state statusCode) (at0 (.data readAddr)) transferCount.toNat).engine.memory
    readAddr rfl crc
  -- the pointer of the second control channel is set twice
  have again := coded.setData readAddr transferCount
  obtain ⟨ping, pong, wired⟩ := again.wired
  have ready := (again.ready _ rfl).ctrl2
  obtain ⟨left, sending⟩ := @Sending.startList read false _ _ _ (withStatus crc) wired again.only again.cued
    (fun _ => ready) (fun _ => rfl)
  refine ⟨left, ⟨final, ?_, sends⟩, nofun⟩
  rw [← ends]
  exact sending

theorem AtRest.startDataWithoutStatus {data : DataRef × U32} (atRest : AtRest state.engine (some data)) (crc : Bool) :
    ∃ left, Responding read (bootRomDataOutStartDataWithoutStatusCode state crc).engine none
      (state.engine.memory.pushed ++ (dataOut (dataBytes read data.1 data.2.toNat) crc ++ [0])) left := by
  obtain ⟨ping, pong, wired⟩ := atRest.wired
  obtain ⟨ready, readAddr, transCount⟩ := atRest.ready data rfl
  rw [← transCount]
  cases crc with
  | true =>
    obtain ⟨final, ends, sends⟩ := @runBlocks_withCrc read _ _ readAddr
    obtain ⟨left, sending⟩ := @Sending.startList read false _ _ _ .noStatusWithDataWithCrc wired atRest.only
      atRest.cued (fun _ => ready) (fun _ => rfl)
    rw [ends] at sending
    exact ⟨left, ⟨final, sending, sends⟩, nofun⟩
  | false =>
    obtain ⟨final, ends, sends⟩ := @sendData_withoutCrc read _ _ readAddr
    obtain ⟨pointed, list, aside⟩ := wired.point .noStatusWithDataNoCrc
    have sending := @Sending.startCtrl2 (bootRomDataOutStartDataWithoutStatusCode state false).engine read _ _ _ _ _ rfl
      pointed (atRest.only.set rfl) (atRest.cued.set (by decide)) (aside.trans ready) list (by decide) (by decide)
    have ends : (sendData read state.engine.memory).bind
        (runBlocks read ((controlBlocks .noStatusWithDataNoCrc).drop 0)) = some final := ends
    exact ⟨_, ⟨final, ends ▸ sending, sends⟩, nofun⟩

theorem AtRest.startBusy (atRest : AtRest state.engine set) :
    Busy (bootRomDataOutStartBusyCode state).engine.channels busyPing (busyWords 0) 5 := by
  obtain ⟨ping, pong, wired⟩ := atRest.wired
  have both := (wired.setPong (Channel.rechained wired.pong busyPing)).setPing
    (Channel.rechained (wired.setPong (Channel.rechained wired.pong busyPing)).ping busyPong)
  refine Busy.start rfl both ((atRest.only.set ?_).set ?_) ⟨?_, ?_⟩ 0
  · rfl
  · rfl
  · exact atRest.cued.ping
  · exact atRest.cued.pong

/-- What the core still does while the busy code goes out, once `done` of its
stores are done. -/
def stores (statusCode : U32) (done : Nat) : List Task :=
  [Task.setStatusCode statusCode, .setStatusList, .chainToStatus].drop done

/-- Where a response is, after so many bytes. -/
inductive Underway (read : DataRef → Nat → U8) (sender : Sender) (set : Option (DataRef × U32)) (before : List U8)
    (left : Nat) : Response → Prop
  | begins {response : Response} (pending : sender.pending = response.tasks) (allowed : response.Allowed set)
    (atRest : AtRest sender.state.engine set) (pushed : sender.pushed = before) :
    Underway read sender set before left response
  | waiting {statusCode : U32} {done units : Nat} {sent : List U8} (pending : sender.pending = stores statusCode done)
    (few : done ≤ 3)
    (busy : Busy sender.state.engine.channels (if done = 3 then ctrl1Chan else busyPing) sent units)
    (coded : 1 ≤ done → sender.state.engine.memory.dataOutStatusCode = statusCode)
    (listed : 2 ≤ done → (sender.state.engine.channels ctrl1Chan).readAddr = at0 (.controlList .withStatusNoDataNoCrc))
    (ready : ∀ data, set = some data → Set sender.state.engine data) (pushed : sender.pushed = before ++ sent)
    (counted : done = 3 → left = units + listUnits sender.state.engine.memory.transCount (controlBlocks .withStatusNoDataNoCrc)) :
    Underway read sender set before left (.busy statusCode)
  | sending {response : Response} {bytes : List U8} (pending : sender.pending = [])
    (responding : Responding read sender.state.engine (response.leaves set) (before ++ bytes) left)
    (streams : response.Streams read set bytes) : Underway read sender set before left response

namespace Underway

variable {sender after : Sender} {response : Response} {before : List U8} {move : Move}

theorem start (pending : sender.pending = response.tasks) (allowed : response.Allowed set)
    (atRest : AtRest sender.state.engine set) (pushed : sender.pushed = before)
    (stepped : sender.step read .task = some after) : ∃ left, Underway read after set before left response := by
  rw [Sender.step, pending] at stepped
  cases response with
  | status statusCode =>
    cases stepped
    obtain ⟨left, responding⟩ := atRest.startStatus statusCode
    rw [← pushed]
    exact ⟨left, .sending rfl responding rfl⟩
  | dataWithStatus statusCode readAddr transferCount crc =>
    cases stepped
    obtain ⟨left, responding⟩ := atRest.startDataWithStatus statusCode readAddr transferCount crc
    rw [← pushed]
    exact ⟨left, .sending rfl responding rfl⟩
  | dataWithoutStatus crc =>
    cases stepped
    obtain ⟨data, rfl⟩ := Option.isSome_iff_exists.mp allowed
    obtain ⟨left, responding⟩ := atRest.startDataWithoutStatus crc
    rw [← pushed]
    exact ⟨left, .sending rfl responding ⟨data, rfl, rfl⟩⟩
  | busy statusCode =>
    cases stepped
    refine ⟨0, @Underway.waiting _ _ _ _ _ statusCode 0 5 (busyWords 0) rfl (by decide) atRest.startBusy nofun nofun ?_ ?_
      nofun⟩
    · intro data named
      have ready := atRest.ready data named
      exact ⟨ready.ctrl2, ready.readAddr, ready.transCount⟩
    · exact pushed.trans (List.append_nil before).symm

theorem store {statusCode : U32} {done units : Nat} {sent : List U8} (pending : sender.pending = stores statusCode done)
    (few : done ≤ 3)
    (busy : Busy sender.state.engine.channels (if done = 3 then ctrl1Chan else busyPing) sent units)
    (coded : 1 ≤ done → sender.state.engine.memory.dataOutStatusCode = statusCode)
    (listed : 2 ≤ done → (sender.state.engine.channels ctrl1Chan).readAddr = at0 (.controlList .withStatusNoDataNoCrc))
    (ready : ∀ data, set = some data → Set sender.state.engine data) (pushed : sender.pushed = before ++ sent)
    (stepped : sender.step read .task = some after) :
    ∃ left, Underway read after set before left (.busy statusCode) := by
  rw [Sender.step, pending] at stepped
  match done, few with
  | 0, _ =>
    cases stepped
    refine ⟨0, @Underway.waiting _ _ _ _ _ statusCode 1 units sent rfl (by decide) busy (fun _ => rfl) ?_ ?_ pushed ?_⟩
    · intro impossible
      omega
    · intro data named
      have set := ready data named
      exact ⟨set.ctrl2, set.readAddr, set.transCount⟩
    · intro impossible
      cases impossible
  | 1, _ =>
    cases stepped
    have code := coded (Nat.le_refl 1)
    refine ⟨0, @Underway.waiting _ _ _ _ _ statusCode 2 units sent rfl (by decide) (busy.point rfl rfl) (fun _ => code) ?_
      ?_ pushed ?_⟩
    · intro _
      exact congrArg Channel.readAddr (set_channels_self _ _ _)
    · intro data named
      have set := ready data named
      exact ⟨set.ctrl2, set.readAddr, set.transCount⟩
    · intro impossible
      cases impossible
  | 2, _ =>
    cases stepped
    have code := coded (by decide)
    have list := listed (Nat.le_refl 2)
    refine ⟨_, @Underway.waiting _ _ _ _ _ statusCode 3 units sent rfl (Nat.le_refl 3) (busy.rechain ctrl1Chan)
      (fun _ => code) (fun _ => list) ?_ pushed fun _ => rfl⟩
    intro data named
    have set := ready data named
    exact ⟨set.ctrl2, set.readAddr, set.transCount⟩
  | 3, _ => cases stepped

private theorem stores_done {statusCode : U32} {done : Nat} (few : done ≤ 3) (none : stores statusCode done = []) :
    done = 3 := by
  match done, few with
  | 0, _ | 1, _ | 2, _ => cases none
  | 3, _ => rfl

theorem unit {statusCode : U32} {done units index : Nat} {sent : List U8}
    (pending : sender.pending = stores statusCode done) (few : done ≤ 3)
    (busy : Busy sender.state.engine.channels (if done = 3 then ctrl1Chan else busyPing) sent units)
    (coded : 1 ≤ done → sender.state.engine.memory.dataOutStatusCode = statusCode)
    (listed : 2 ≤ done → (sender.state.engine.channels ctrl1Chan).readAddr = at0 (.controlList .withStatusNoDataNoCrc))
    (ready : ∀ data, set = some data → Set sender.state.engine data) (pushed : sender.pushed = before ++ sent)
    (counted : done = 3 → left = units + listUnits sender.state.engine.memory.transCount (controlBlocks .withStatusNoDataNoCrc))
    (stepped : sender.state.engine.step (bus read) index = some next) :
    ∃ fewer, Underway read { sender with state.engine := next } set before fewer (.busy statusCode) ∧
      (sender.pending = [] → left = fewer + 1) := by
  have elsewhere : (if done = 3 then ctrl1Chan else busyPing) ≠ busyPong := by split <;> decide
  obtain ⟨bytes, fewer, less, pushes, later⟩ := busy.step elsewhere stepped
  have ended (none : sender.pending = []) : done = 3 := stores_done few (pending.symm.trans none)
  have recoded (some : 1 ≤ done) : next.memory.dataOutStatusCode = statusCode := by
    rw [pushes.memory]
    exact coded some
  have relisted (some : 2 ≤ done) : (next.channels ctrl1Chan).readAddr = at0 (.controlList .withStatusNoDataNoCrc) :=
    pushes.ctrl1.trans (listed some)
  have reready (data : DataRef × U32) (named : set = some data) : Set next data := by
    have set := ready data named
    refine ⟨pushes.ctrl2.trans set.ctrl2, ?_, ?_⟩
    · rw [pushes.memory]
      exact set.readAddr
    · rw [pushes.memory]
      exact set.transCount
  have repushed : next.memory.pushed = before ++ (sent ++ bytes) := by
    rw [pushes.memory, ← List.append_assoc, ← pushed]
    rfl
  have count : next.memory.transCount = sender.state.engine.memory.transCount := by rw [pushes.memory]
  rcases later with again | ⟨none, stopped, passed⟩
  · refine ⟨fewer + listUnits next.memory.transCount (controlBlocks .withStatusNoDataNoCrc),
      @Underway.waiting _ _ _ _ _ statusCode done fewer (sent ++ bytes) pending few again recoded relisted reready repushed
        fun _ => rfl, ?_⟩
    intro none
    rw [counted (ended none), count, less]
    omega
  · obtain ⟨copies, whole⟩ := passed.sends
    by_cases last : done = 3
    · subst last
      rw [if_pos rfl] at passed
      have alone : chainsLater .withStatusNoDataNoCrc 0 = false := by decide
      have armed (needed : set.isSome = true ∨ chainsLater .withStatusNoDataNoCrc 0 = true) :
          (stopped.channels ctrl2Chan).readAddr = at0 .controlBlocksDataOut := by
        rcases needed with armed | chains
        · obtain ⟨data, named⟩ := Option.isSome_iff_exists.mp armed
          exact passed.ctrl2.trans (reready data named).ctrl2
        · rw [alone] at chains
          cases chains
      have sending := @Sending.startCtrl1 next read set.isSome stopped _ _ 0 .withStatusNoDataNoCrc passed.triggered
        passed.wired passed.only passed.cued (passed.ctrl1.trans (relisted (by decide))) (by decide) armed
        (fun chains => absurd chains (by rw [alone]; decide))
      rw [List.drop_zero, runBlocks_status] at sending
      refine ⟨_, @Underway.sending _ _ _ _ _ (.busy statusCode) _ pending ⟨⟨_, sending, ?_⟩, ?_⟩ ⟨copies, rfl⟩, ?_⟩
      · show next.memory.pushed ++ bytes32 next.memory.dataOutStatusCode ++ [0] = _
        rw [repushed, recoded (by decide), whole]
        simp only [List.append_assoc]
      · intro data named
        have set := reready data named
        exact ⟨set.readAddr, set.transCount⟩
      · intro _
        rw [counted rfl, count, less, none, Nat.zero_add]
        exact Nat.add_comm 1 _
    · rw [if_neg last] at passed
      have again := Busy.start passed.triggered passed.wired passed.only passed.cued (copies + 1)
      rw [← whole] at again
      refine ⟨0, @Underway.waiting _ _ _ _ _ statusCode done 5 (sent ++ bytes) pending few ?_ recoded relisted reready
        repushed (fun ended => absurd ended last), ?_⟩
      · rw [if_neg last]
        exact again
      · exact fun none => absurd (ended none) last

theorem step (underway : Underway read sender set before left response) (stepped : sender.step read move = some after) :
    ∃ fewer, Underway read after set before fewer response ∧ (sender.pending = [] → left = fewer + 1) := by
  have none (pending : sender.pending = []) (asked : sender.step read .task = some after) : False := by
    rw [Sender.step, pending] at asked
    cases asked
  cases move with
  | task =>
    cases underway with
    | begins pending allowed atRest pushed =>
      obtain ⟨fewer, later⟩ := start pending allowed atRest pushed stepped
      exact ⟨fewer, later, fun empty => False.elim (none empty stepped)⟩
    | waiting pending few busy coded listed ready pushed =>
      obtain ⟨fewer, later⟩ := store pending few busy coded listed ready pushed stepped
      exact ⟨fewer, later, fun empty => False.elim (none empty stepped)⟩
    | sending pending => exact False.elim (none pending stepped)
  | unit index =>
    obtain ⟨engine, moved, rfl⟩ := Option.map_eq_some_iff.mp stepped
    cases underway with
    | begins pending allowed atRest => cases atRest.only.step moved
    | waiting pending few busy coded listed ready pushed counted =>
      exact unit pending few busy coded listed ready pushed counted moved
    | sending pending responding streams =>
      obtain ⟨fewer, units, later⟩ := responding.step moved
      exact ⟨fewer, .sending pending later streams, fun _ => units⟩

/-- Nothing more comes for the core to do. -/
theorem step_pending (empty : sender.pending = []) (stepped : sender.step read move = some after) :
    after.pending = [] := by
  cases move with
  | task =>
    rw [Sender.step, empty] at stepped
    cases stepped
  | unit index =>
    obtain ⟨engine, _, rfl⟩ := Option.map_eq_some_iff.mp stepped
    exact empty

theorem run {moves : List Move} (underway : Underway read sender set before left response)
    (ran : sender.run read moves = some after) :
    ∃ fewer, Underway read after set before fewer response ∧ (sender.pending = [] → left = fewer + moves.length) := by
  induction moves generalizing sender left with
  | nil =>
    cases ran
    exact ⟨left, underway, fun _ => rfl⟩
  | cons move rest ih =>
    obtain ⟨next, stepped, later⟩ := Option.bind_eq_some_iff.mp ran
    obtain ⟨between, now, units⟩ := underway.step stepped
    obtain ⟨fewer, reached, more⟩ := ih now later
    refine ⟨fewer, reached, ?_⟩
    intro empty
    rw [units empty, more (step_pending empty stepped), List.length_cons, Nat.add_assoc]

theorem task_moves {task : Task} {pending : List Task} (underway : Underway read sender set before left response)
    (some : sender.pending = task :: pending) : ∃ after, sender.step read .task = .some after := by
  have performs : ∃ state, task.perform sender.state = .some state := by
    cases underway with
    | begins waiting =>
      rw [waiting] at some
      cases response <;> cases some <;> exact ⟨_, rfl⟩
    | @waiting statusCode done units sent waiting few =>
      rw [waiting] at some
      match done, few with
      | 0, _ | 1, _ | 2, _ =>
        cases some
        exact ⟨_, rfl⟩
      | 3, _ => cases some
    | sending waiting =>
      rw [waiting] at some
      cases some
  obtain ⟨state, performed⟩ := performs
  refine ⟨⟨pending, state⟩, ?_⟩
  rw [Sender.step, some]
  exact congrArg (Option.map _) performed

theorem moves (underway : Underway read sender set before left response) (going : ¬ sender.Done) :
    ∃ move after, sender.step read move = some after := by
  cases rest : sender.pending with
  | cons task pending =>
    obtain ⟨after, stepped⟩ := underway.task_moves rest
    exact ⟨.task, after, stepped⟩
  | nil =>
    have moves : ∃ index next, sender.state.engine.step (bus read) index = some next := by
      cases underway with
      | begins pending =>
        rw [pending] at rest
        cases response <;> cases rest
      | waiting pending few busy =>
        obtain ⟨index, _, _, next, stepped⟩ := busy.moves
        exact ⟨index, next, stepped⟩
      | sending pending responding => exact responding.moves fun quiet => going ⟨rest, quiet⟩
    obtain ⟨index, next, stepped⟩ := moves
    exact ⟨.unit index, _, congrArg (Option.map _) stepped⟩

theorem ends (underway : Underway read sender set before left response) (done : sender.Done) :
    AtRest sender.state.engine (response.leaves set) ∧
      ∃ bytes, sender.pushed = before ++ bytes ∧ response.Streams read set bytes := by
  obtain ⟨empty, quiet⟩ := done
  cases underway with
  | begins pending =>
    rw [pending] at empty
    cases response <;> cases empty
  | waiting _ _ busy =>
    obtain ⟨index, below, moving, _⟩ := @Busy.moves _ read _ _ _ busy
    exact absurd quiet (busy_not_quiet below moving)
  | sending _ responding streams =>
    obtain ⟨atRest, pushed⟩ := responding.rests quiet
    exact ⟨atRest, _, pushed, streams⟩

theorem sends (underway : Underway read sender set before left response) (before : sender.pushed = before) :
    Sends read sender (response.Streams read set) := by
  constructor
  · intro moves next ran going
    obtain ⟨fewer, reached, _⟩ := underway.run ran
    exact reached.moves going
  · intro moves next ran empty
    obtain ⟨fewer, reached, _⟩ := underway.run ran
    refine ⟨fewer, ?_⟩
    intro more last later
    obtain ⟨units, _, counted⟩ := reached.run later
    rw [counted empty]
    exact Nat.le_add_left _ _
  · intro moves next ran done
    obtain ⟨fewer, reached, _⟩ := underway.run ran
    rw [before]
    exact (reached.ends done).2

end Underway

theorem Rests.atRest (rests : Rests state set) : AtRest state.engine set := by
  induction rests with
  | initial =>
    exact ⟨⟨busyPing, busyPing, initial_wired⟩, initial_onlyBusy, ⟨rfl, rfl⟩, nofun⟩
  | setData _ readAddr transferCount ih => exact ih.setData readAddr transferCount
  | @completed before set response read moves last _ allowed ran done ih =>
    have begins : Underway read ⟨response.tasks, before⟩ set before.engine.memory.pushed 0 response :=
      .begins rfl allowed ih rfl
    obtain ⟨_, reached, _⟩ := begins.run ran
    exact (reached.ends done).1

/-- Whatever went before, a response pushes its own bytes. -/
theorem Rests.sends (rests : Rests state set) (read : DataRef → Nat → U8) {response : Response}
    (allowed : response.Allowed set) : Sends read ⟨response.tasks, state⟩ (response.Streams read set) := by
  have begins : Underway read ⟨response.tasks, state⟩ set state.engine.memory.pushed 0 response :=
    .begins rfl allowed rests.atRest rfl
  exact begins.sends rfl

/-- What each start function sends. -/
structure Framed (read : DataRef → Nat → U8) (state : State) (set : Option (DataRef × U32)) : Prop where
  status : ∀ statusCode, Sends read ⟨tasks (.startStatusCode statusCode), state⟩ (· = bytes32 statusCode ++ [0])
  dataWithStatus : ∀ statusCode readAddr transferCount crc,
    Sends read ⟨tasks (.startDataWithStatusCode statusCode readAddr transferCount crc), state⟩
      (· = bytes32 statusCode ++ dataOut (dataBytes read readAddr transferCount.toNat) crc ++ [0])
  /-- The data given by a `boot_rom_data_out_set_data` before. -/
  dataWithoutStatus : ∀ readAddr transferCount crc, set = some (readAddr, transferCount) →
    Sends read ⟨tasks (.startDataWithoutStatusCode crc), state⟩
      (· = dataOut (dataBytes read readAddr transferCount.toNat) crc ++ [0])

theorem Sends.mono {sender : Sender} {stream wanted : List U8 → Prop} (sends : Sends read sender stream)
    (implies : ∀ bytes, stream bytes → wanted bytes) : Sends read sender wanted := by
  refine ⟨sends.goesOn, sends.bounded, ?_⟩
  intro moves next ran done
  obtain ⟨bytes, pushed, streams⟩ := sends.exact moves next ran done
  exact ⟨bytes, pushed, implies bytes streams⟩

/-- Status, data, checksum and a dummy byte, after any sequence of responses. -/
theorem responses_framed (rests : Rests state set) (read : DataRef → Nat → U8) : Framed read state set := by
  constructor
  · intro statusCode
    exact @Rests.sends _ _ rests read (.status statusCode) trivial
  · intro statusCode readAddr transferCount crc
    exact @Rests.sends _ _ rests read (.dataWithStatus statusCode readAddr transferCount crc) trivial
  · intro readAddr transferCount crc named
    have allowed : (Response.dataWithoutStatus crc).Allowed set := by
      rw [named]
      rfl
    apply (rests.sends read allowed).mono
    intro bytes streams
    obtain ⟨data, again, rfl⟩ := streams
    cases named.symm.trans again
    rfl

/-- The first response after reset, with data of two bytes. -/
theorem responses_framed_first :
    Framed (fun _ place => BitVec.ofNat 8 (place + 7)) (bootRomDataOutSetData .initial (at0 (.data .gitRev)) 2)
      (some (.gitRev, 2)) := responses_framed (.setData .initial .gitRev 2) _

/-- Whole busy words and one whole status code go out, wherever the three stores
fall between the units of the channels. -/
theorem busy_never_torn (rests : Rests state set) (read : DataRef → Nat → U8) (statusCode : U32) :
    Sends read ⟨tasks .startBusyCode ++ tasks (.stopBusyCode statusCode), state⟩ fun bytes =>
      (∃ count, bytes = busyWords (count + 1) ++ bytes32 statusCode ++ [0]) ∧
      (statusCode ≠ modchipCmdResultBusy →
        peekWhileBusy bytes = some (decide (statusCode = modchipCmdResultOk), [0])) := by
  have sends := @Rests.sends _ _ rests read (.busy statusCode) trivial
  apply sends.mono
  intro bytes streams
  refine ⟨streams, ?_⟩
  intro final
  obtain ⟨count, rfl⟩ := streams
  rw [List.append_assoc]
  exact peekWhileBusy_words (count + 1) final [0]

theorem busy_never_torn_first :
    Sends (fun _ place => BitVec.ofNat 8 place) ⟨tasks .startBusyCode ++ tasks (.stopBusyCode modchipCmdResultOk), .initial⟩
      fun bytes => (∃ count, bytes = busyWords (count + 1) ++ bytes32 modchipCmdResultOk ++ [0]) ∧
        (modchipCmdResultOk ≠ modchipCmdResultBusy →
          peekWhileBusy bytes = some (decide (modchipCmdResultOk = modchipCmdResultOk), [0])) :=
  busy_never_torn .initial _ modchipCmdResultOk

end Fruitchip.DataOut
