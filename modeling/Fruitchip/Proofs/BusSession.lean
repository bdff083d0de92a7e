import Fruitchip.Firmware.BusSession
import Fruitchip.Proofs.DataOutProgram
import Fruitchip.Proofs.Session
import Fruitchip.Proofs.Sniffers

/-! Calls of the client, from its first store to the bus to the last byte of the
answer, through the state machines and the main loop. -/

namespace Fruitchip.BootRom
open Embedded Embedded.Pio Firmware Client

variable {config : Config} {led : Option Nat}

/-- Between two calls. -/
structure Board.Ready (board : Board) : Prop where
  between : board.block.Between
  empty : board.block.waiting = []
  silent : board.block.Silent
  idle : board.loop.firmware.writeHandler = .idle

theorem ready_powerUp (latch : Latch) (flash : Flash) (settings : SettingsState) :
    (⟨.init latch, .powerUp flash settings⟩ : Board).Ready :=
  ⟨between_init latch, rfl, ⟨rfl, rfl, rfl, rfl⟩, rfl⟩

/-- Every call of a session is understood, and answered with what it reads. -/
def SessionDelivered (config : Config) (led : Option Nat) : Board → List (Call × Nat × Exchange) → Prop
  | _, [] => True
  | board, (call, busy, exchange) :: rest =>
    let answer := board.answered config led busy exchange
    (board.ask config led exchange).1.loop.firmware.world = (runCall config call board.loop.firmware.world).1 ∧
      (board.ask config led exchange).2 = (runCall config call board.loop.firmware.world).2 ∧
      exchange.reception.bytes config led (board.answering config led busy exchange) = answer.map some ∧
      (∃ reply, call.peek answer = some (reply, [])) ∧
      ((board.after config led busy exchange).loop.firmware.world.rebooting = false →
        SessionDelivered config led (board.after config led busy exchange) rest)

theorem run_writes (loop : Loop) (bytes : List U8) :
    (mainLoop config).run loop (bytes.map .write) =
      ({ loop with firmware := ((machine config).run loop.firmware bytes).1 },
        ((machine config).run loop.firmware bytes).2) := by
  induction bytes generalizing loop with
  | nil => rfl
  | cons byte bytes ih =>
    rw [List.map_cons, Mealy.run_cons, Mealy.run_cons, ih]
    rfl

theorem peekU32_long {bus : List U8} (short : bus.length < 2) : peekU32 bus = none := by
  match bus with
  | [] | [_] => rfl
  | _ :: _ :: bus =>
    simp only [List.length_cons] at short
    omega

theorem peek_long (call : Call) {bus : List U8} {reply : Reply} (read : call.peek bus = some (reply, [])) :
    2 ≤ bus.length := by
  apply Classical.byContradiction
  intro short
  have nothing : peekU32 bus = none := peekU32_long (by omega)
  have busy : peekWhileBusy bus = none := by
    match bus with
    | [] | [_] => rfl
    | _ :: _ :: bus =>
      simp only [List.length_cons] at short
      omega
  have bind {α β : Type} {peek : Peek α} (next : α → Peek β) (empty : peek bus = none) : (peek >>= next) bus = none := by
    show (peek bus).bind _ = none
    rw [empty]
    rfl
  have none : call.peek bus = none := by
    cases call <;> first | exact bind _ nothing | exact bind _ busy
  rw [none] at read
  cases read

theorem ask_delivers {board : Board} (ready : board.Ready) {call : Call} {busy : Nat} {exchange : Exchange}
    (punctual : exchange.Punctual config led board call busy) :
    ((bus config led).run board.block exchange.actions).2 = call.poked.map .write ∧
      ((bus config led).run board.block exchange.actions).1.Silent ∧
      ∀ which, ((bus config led).run board.block exchange.actions).1.left which = [] := by
  have whole : exchange.actions =
      exchange.request.flatMap BusCycle.actions ++ exchange.tail.flatMap Tick.actions := by
    simp only [Exchange.actions, Exchange.ticks, List.flatMap_append, List.flatMap_assoc]
    rfl
  obtain ⟨roomRequest, roomTail⟩ := roomyTicks_append.mp punctual.room
  have taken := punctual.taken
  have same : (exchange.request.flatMap BusCycle.ticks).flatMap Tick.actions =
      exchange.request.flatMap BusCycle.actions := by
    rw [List.flatMap_assoc]
    rfl
  rw [same] at roomTail
  obtain ⟨between, log⟩ := deliver_run ready.between punctual.request roomRequest punctual.drained
  obtain ⟨_, _, tail⟩ := deliver_gap between punctual.tail.1 punctual.tail.2 roomTail
  obtain ⟨dataOut, dma⟩ := run_keeps config led exchange.ticks ready.between.listening
  have silent : ((bus config led).run board.block exchange.actions).1.Silent := by
    rw [Exchange.actions]
    exact ⟨by rw [dataOut]; exact ready.silent.pc, by rw [dataOut]; exact ready.silent.delay,
      by rw [dataOut]; exact ready.silent.tx, by rw [dma]; exact ready.silent.dma⟩
  refine ⟨?_, silent, ?_⟩
  · rw [whole, Mealy.run_append] at taken ⊢
    rw [taken, List.append_nil] at tail
    rw [tail, log, ready.empty, punctual.carries]
    rfl
  · intro which
    rw [waiting_eq, List.append_eq_nil_iff, List.map_eq_nil_iff, List.map_eq_nil_iff] at taken
    cases which
    · exact taken.1
    · exact taken.2

theorem left_eq_nil {block : Block} {which : Sniffer} (empty : block.left which = []) : (block.core which).rx = [] :=
  List.map_eq_nil_iff.mp empty

/-- After an answer the sniffers start again, and nothing waits for the main loop. -/
theorem resumed_between {asked block : Block} (empty : ∀ which, asked.left which = [])
    (resumed : block.Resumed (asked.readSniffer.restart.exec 0, asked.writeSniffer.restart.exec 0)) :
    block.Between ∧ block.waiting = [] := by
  obtain ⟨read, write⟩ := Prod.mk.inj resumed.sniffers
  have readEmpty := left_eq_nil (empty .read)
  have writeEmpty := left_eq_nil (empty .write)
  have noRead : block.left .read = [] := by
    rw [Block.left, Block.core, read]
    exact List.map_eq_nil_iff.mpr readEmpty
  have noWrite : block.left .write = [] := by
    rw [Block.left, Block.core, write]
    exact List.map_eq_nil_iff.mpr writeEmpty
  refine ⟨⟨resumed.listening, ?_, .inl noRead⟩, ?_⟩
  · intro which
    cases which with
    | read =>
      refine ⟨block.latch, .inl ?_⟩
      rw [Block.core, read]
      exact ⟨rfl, rfl, rfl, rfl⟩
    | write =>
      refine ⟨block.latch, .inr (.inr ?_)⟩
      rw [Block.core, write]
      exact ⟨rfl, rfl, rfl, rfl⟩
  · rw [waiting_eq, noRead, noWrite]
    rfl

theorem call_delivered {board : Board} (ready : board.Ready) {call : Call} {busy : Nat} {exchange : Exchange}
    (punctual : exchange.Punctual config led board call busy) :
    let asked := (board.ask config led exchange).1
    let events := (board.ask config led exchange).2
    let answer := asked.answer config busy events
    asked.loop.firmware.world = (runCall config call board.loop.firmware.world).1 ∧
      events = (runCall config call board.loop.firmware.world).2 ∧
      exchange.reception.bytes config led (asked.start config led answer) = answer.map some ∧
      (∃ reply, call.peek answer = some (reply, [])) ∧ (board.after config led busy exchange).Ready := by
  intro asked events answer
  obtain ⟨bytes, silent, empty⟩ := ask_delivers ready punctual
  obtain ⟨idle, world, sent⟩ := run_call config ready.idle call
  have loop : (asked.loop, events) =
      ({ board.loop with firmware := ((machine config).run board.loop.firmware call.poked).1 },
        ((machine config).run board.loop.firmware call.poked).2) := by
    rw [← run_writes, ← bytes]
    rfl
  obtain ⟨firmware, emitted⟩ := Prod.mk.inj loop
  rw [firmware, emitted]
  have reads : ∃ reply, call.peek answer = some (reply, []) := by
    obtain ⟨reply, read⟩ := 
      @call_reads_all config asked.loop.firmware.world.flash busy (.placeholder, 0) call board.loop.firmware.world
    refine ⟨reply, ?_⟩
    rw [← sent, ← emitted] at read
    exact read
  obtain ⟨reply, read⟩ := reads
  have long := peek_long call read
  have several : 2 ≤ (answer.map (BitVec.setWidth 32)).length := by rwa [List.length_map]
  have count : exchange.reception.all.length = (answer.map (BitVec.setWidth 32)).length := by
    rw [List.length_map]
    exact punctual.count
  obtain ⟨received, resumed⟩ := answer_delivered config led silent several punctual.reception count punctual.fed
  obtain ⟨between, nothing⟩ := resumed_between empty resumed
  refine ⟨world, sent, ?_, ⟨reply, read⟩, ⟨between, nothing, resumed.silent, ?_⟩⟩
  · refine received.trans ?_
    rw [List.map_map]
    apply List.map_congr_left
    intro byte _
    simp
  · show asked.loop.firmware.writeHandler = .idle
    rw [firmware]
    exact idle

/-- A session on the wires delivers every call and every answer, however the
accesses are timed, as long as they are punctual. -/
theorem bus_session_delivered (config : Config) (led : Option Nat) {board : Board} (ready : board.Ready)
    {session : List (Call × Nat × Exchange)} (punctual : SessionPunctual config led board session) :
    SessionDelivered config led board session := by
  induction session generalizing board with
  | nil => trivial
  | cons first rest ih =>
    obtain ⟨call, busy, exchange⟩ := first
    obtain ⟨one, later⟩ := punctual
    obtain ⟨world, events, bytes, reads, next⟩ := call_delivered ready one
    exact ⟨world, events, bytes, reads, fun running => ih next (later running)⟩

/-- A call in quick accesses, with an answer of `count` bytes and one more. The
handler runs while `CE` is still low. -/
def quick (call : Call) (count : Nat) : Exchange :=
  let taken : List Tick := List.replicate 7 ⟨0x300, some .write⟩
  let poked (byte : U8) : BusCycle := ⟨taken, .writes (List.replicate 13 ⟨0x100 ||| byte.setWidth 32, none⟩)⟩
  let fetch : Fetch := ⟨[⟨0x100, true, true⟩], List.replicate 6 ⟨0, true, false⟩, []⟩
  ⟨call.poked.map poked, taken,
    ⟨⟨0, true, false⟩, ⟨0, true, true⟩, List.replicate count fetch, fetch, [], ⟨0x100, true, true⟩⟩⟩

def powerUpBoard : Board := ⟨.init ⟨0, 0, 0⟩, .powerUp (fun _ => 0xFF) ⟨.defaults, WearLeveling.clearCache⟩⟩

def unlock : Exchange := quick (.setWriteLock false) 3

def unlockedBoard : Board := powerUpBoard.after (waveshareRp2040Tiny default) none 0 unlock

theorem unlock_punctual : unlock.Punctual (waveshareRp2040Tiny default) none powerUpBoard (.setWriteLock false) 0 where
  request := by decide +kernel
  carries := by decide +kernel
  room := by decide +kernel
  drained := by decide +kernel
  tail := by decide +kernel
  taken := by decide +kernel
  reception := ⟨by decide +kernel, rfl, by decide, rfl⟩
  count := by decide +kernel
  fed := by decide +kernel

theorem sectorSize_punctual :
    (quick .getFlashSectorSize 11).Punctual (waveshareRp2040Tiny default) none unlockedBoard .getFlashSectorSize 0 where
  request := by decide +kernel
  carries := by decide +kernel
  room := by decide +kernel
  drained := by decide +kernel
  tail := by decide +kernel
  taken := by decide +kernel
  reception := ⟨by decide +kernel, rfl, by decide, rfl⟩
  count := by decide +kernel
  fed := by decide +kernel

/-- The write lock is taken off, and the sector size read after it. -/
theorem bus_session_delivered_two_calls :
    SessionDelivered (waveshareRp2040Tiny default) none powerUpBoard
      [(.setWriteLock false, 0, unlock), (.getFlashSectorSize, 0, quick .getFlashSectorSize 11)] :=
  bus_session_delivered (waveshareRp2040Tiny default) none (ready_powerUp _ _ _)
    ⟨unlock_punctual, fun _ => ⟨sectorSize_punctual, fun _ => trivial⟩⟩

end Fruitchip.BootRom
