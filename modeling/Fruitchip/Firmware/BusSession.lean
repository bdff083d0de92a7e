import Fruitchip.Client
import Fruitchip.Firmware.Answers
import Fruitchip.Firmware.BusBlock

/-! Calls of the client on the wires: the accesses that carry the request, what
the main loop makes of them, and the cycles in which the console takes the
answer. -/

namespace Fruitchip.BootRom
open Embedded Embedded.Pio Firmware Client

/-- There is room in both receive FIFOs at the start of every tick. -/
def RoomyTicks (config : Config) (led : Option Nat) : Block → List Tick → Prop
  | _, [] => True
  | block, tick :: rest =>
    block.readSniffer.rx.length < joinedDepth ∧ block.writeSniffer.rx.length < joinedDepth ∧
      RoomyTicks config led ((bus config led).run block tick.actions).1 rest

instance RoomyTicks.decide (config : Config) (led : Option Nat) :
    ∀ block ticks, Decidable (RoomyTicks config led block ticks)
  | _, [] => .isTrue trivial
  | _, _ :: rest =>
    @instDecidableAnd _ _ inferInstance
      (@instDecidableAnd _ _ inferInstance (RoomyTicks.decide config led _ rest))

/-- When an access starts, the main loop has taken everything. -/
def Drained (config : Config) (led : Option Nat) : Block → List BusCycle → Prop
  | _, [] => True
  | block, cycle :: rest =>
    let ready := ((bus config led).run block (cycle.gap.flatMap Tick.actions)).1
    ready.waiting = [] ∧
      Drained config led ((bus config led).run ready (cycle.access.ticks.flatMap Tick.actions)).1 rest

instance Drained.decide (config : Config) (led : Option Nat) :
    ∀ block trace, Decidable (Drained config led block trace)
  | _, [] => .isTrue trivial
  | _, _ :: rest => @instDecidableAnd _ _ inferInstance (Drained.decide config led _ rest)

/-- A call on the wires: the accesses of the request, the time in which the main
loop takes the last byte, and the answer. -/
structure Exchange where
  request : List BusCycle
  tail : List Tick
  reception : Reception
  deriving DecidableEq, Repr

def Exchange.ticks (exchange : Exchange) : List Tick := exchange.request.flatMap BusCycle.ticks ++ exchange.tail

def Exchange.actions (exchange : Exchange) : List Action := exchange.ticks.flatMap Tick.actions

/-- The state machines next to the main loop. -/
structure Board where
  block : Block
  loop : Loop

namespace Board

variable (config : Config) (led : Option Nat)

/-- The request, and what the handlers do with its bytes. -/
def ask (board : Board) (exchange : Exchange) : Board × List Event :=
  let (block, bytes) := (bus config led).run board.block exchange.actions
  let (loop, events) := (mainLoop config).run board.loop bytes
  (⟨block, loop⟩, events)

/-- The bytes that the events send, with `busy` busy words. -/
def answer (board : Board) (busy : Nat) (events : List Event) : List U8 :=
  emit config board.loop.firmware.world.flash busy (.placeholder, 0) events

/-- The answer starts, with the dummy byte behind it. -/
def start (board : Board) (answer : List U8) : Block :=
  ((bus config led).run board.block (startAnswer (answer.map (BitVec.setWidth 32) ++ [0]))).1

/-- The bytes of the answer to a request. -/
def answered (board : Board) (busy : Nat) (exchange : Exchange) : List U8 :=
  (board.ask config led exchange).1.answer config busy (board.ask config led exchange).2

/-- The state machines when it starts. -/
def answering (board : Board) (busy : Nat) (exchange : Exchange) : Block :=
  (board.ask config led exchange).1.start config led (board.answered config led busy exchange)

/-- The board after it. -/
def after (board : Board) (busy : Nat) (exchange : Exchange) : Board :=
  ⟨(board.answering config led busy exchange).beats config led exchange.reception.beats,
    (board.ask config led exchange).1.loop⟩

end Board

/-- The request is timed as the sniffers need it, the main loop keeps up with it,
and the answer is taken as the data-out program needs it. -/
structure Exchange.Punctual (config : Config) (led : Option Nat) (board : Board) (call : Call) (busy : Nat)
    (exchange : Exchange) : Prop where
  request : ∀ cycle ∈ exchange.request, cycle.Timed config
  carries : exchange.request.flatMap (fun cycle => cycle.access.bytes config) = call.poked.map .write
  room : RoomyTicks config led board.block exchange.ticks
  drained : Drained config led board.block exchange.request
  tail : Levels config true true exchange.tail ∧ 7 ≤ exchange.tail.length
  taken : ((bus config led).run board.block exchange.actions).1.waiting = []
  reception : exchange.reception.Timed config
  count : exchange.reception.all.length = (board.answered config led busy exchange).length
  fed : exchange.reception.Fed config led (board.answering config led busy exchange)

/-- All calls of a session are punctual. A reboot ends it. -/
def SessionPunctual (config : Config) (led : Option Nat) : Board → List (Call × Nat × Exchange) → Prop
  | _, [] => True
  | board, (call, busy, exchange) :: rest =>
    exchange.Punctual config led board call busy ∧
      ((board.after config led busy exchange).loop.firmware.world.rebooting = false →
        SessionPunctual config led (board.after config led busy exchange) rest)

end Fruitchip.BootRom
