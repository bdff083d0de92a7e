import Fruitchip.Firmware.BusAccess

/-! The three state machines on one bus, the functions of `data_out.h` that start,
stop and reset them, and the interrupt handler of `data_out.c`. -/

namespace Fruitchip.BootRom
open Embedded Embedded.Pio Firmware

structure Block where
  readSniffer : Core
  writeSniffer : Core
  dataOut : Core
  latch : Latch
  sniffersEnabled : Bool
  dataOutEnabled : Bool
  /-- What the DMA has still to store in the transmit FIFO. -/
  dma : List Word
  deriving DecidableEq, Repr

/-- Everything that happens at the state machines, in order. -/
inductive Action where
  | cycle (gpio : Word)
  /-- The main loop looks into a receive FIFO. -/
  | get (sniffer : Sniffer)
  /-- The DMA gets answers to send. -/
  | dmaStart (words : List Word)
  /-- The DMA stores a byte, if the transmit FIFO asks for one. -/
  | dmaTransfer
  | sniffersStart
  | sniffersStop
  | sniffersReset
  | dataOutStart
  | dataOutStop
  | dataOutReset
  | interruptClear
  deriving DecidableEq, Repr

namespace Block

def stepSniffers (config : Config) (led : Option Nat) (block : Block) (gpio : Word) : Block :=
  if block.sniffersEnabled then
    let read := Pio.step (BootRom.readSniffer config led) gpio ⟨block.readSniffer, block.latch⟩
    let write := Pio.step (BootRom.writeSniffer config) gpio ⟨block.writeSniffer, read.latch⟩
    { block with readSniffer := read.toCore, writeSniffer := write.toCore, latch := write.latch }
  else block

def stepDataOut (config : Config) (led : Option Nat) (block : Block) (gpio : Word) : Block :=
  if block.dataOutEnabled then
    let out := Pio.step (BootRom.dataOut config led) gpio ⟨block.dataOut, block.latch⟩
    { block with dataOut := out.toCore, latch := out.latch }
  else block

def core (block : Block) : Sniffer → Core
  | .read => block.readSniffer
  | .write => block.writeSniffer

/-- `pio_sm_get`, where the FIFO is not empty, and the conversion to `uint8_t`. -/
def get (block : Block) : Sniffer → Block × List BusByte
  | .read =>
    let (readSniffer, words) := block.readSniffer.get
    ({ block with readSniffer }, words.map (busByte · .read))
  | .write =>
    let (writeSniffer, words) := block.writeSniffer.get
    ({ block with writeSniffer }, words.map (busByte · .write))

def dmaTransfer (config : Config) (led : Option Nat) (block : Block) : Block :=
  match block.dma with
  | [] => block
  | word :: dma =>
    if block.dataOut.tx.length < joinedDepth then
      { block with dataOut := block.dataOut.put (BootRom.dataOut config led) word, dma }
    else block

/-- `boot_rom_sniffers_reset`. -/
def sniffersReset (block : Block) : Block :=
  { block with
    readSniffer := block.readSniffer.restart.exec 0
    writeSniffer := block.writeSniffer.restart.exec 0 }

/-- `boot_rom_data_out_reset`. -/
def dataOutReset (block : Block) : Block := { block with dataOut := block.dataOut.restart.exec 0 }

def interruptClear (block : Block) : Block :=
  { block with latch.irq := block.latch.irq &&& ~~~((1 : Word) <<< bootRomByteOutIrq) }

def step (config : Config) (led : Option Nat) (block : Block) : Action → Block × List BusByte
  | .cycle gpio => ((block.stepSniffers config led gpio).stepDataOut config led gpio, [])
  | .get sniffer => block.get sniffer
  | .dmaStart words => ({ block with dma := block.dma ++ words }, [])
  | .dmaTransfer => (block.dmaTransfer config led, [])
  | .sniffersStart => ({ block with sniffersEnabled := true }, [])
  | .sniffersStop => ({ block with sniffersEnabled := false }, [])
  | .sniffersReset => (block.sniffersReset, [])
  | .dataOutStart => ({ block with dataOutEnabled := true }, [])
  | .dataOutStop => ({ block with dataOutEnabled := false }, [])
  | .dataOutReset => (block.dataOutReset, [])
  | .interruptClear => (block.interruptClear, [])

/-- What `byte_out_irq_handler` does once it has looked at the FIFO. -/
def byteOutIrqHandler (block : Block) : List Action :=
  if block.dataOut.tx.isEmpty then [.dataOutStop, .sniffersStart, .dataOutReset, .interruptClear]
  else [.interruptClear]

/-- The words that wait in the receive FIFOs. -/
def waiting (block : Block) : List BusByte :=
  block.readSniffer.rx.map (busByte · .read) ++ block.writeSniffer.rx.map (busByte · .write)

/-- After `boot_rom_data_out_init`. -/
def init (latch : Latch) : Block := ⟨.init, .init, .init, latch, true, false, []⟩

end Block

def bus (config : Config) (led : Option Nat) : Mealy Block Action BusByte := ⟨Block.step config led⟩

/-- The cycle of a tick, and what the main loop does after it. -/
def Tick.actions (tick : Tick) : List Action := .cycle tick.gpio :: (tick.get.map Action.get).toList

def BusCycle.actions (cycle : BusCycle) : List Action := cycle.ticks.flatMap Tick.actions

/-- The functions of `data_out.c` that start an answer. -/
def startAnswer (words : List Word) : List Action := [.sniffersStop, .dmaStart words, .dataOutStart, .sniffersReset]

/-- A cycle while an answer goes out: whether the DMA gets to store a byte in it,
and whether the processor gets to run the handler of a raised interrupt. -/
structure Beat where
  gpio : Word
  transfer : Bool
  interrupt : Bool
  deriving DecidableEq, Repr, Inhabited

namespace Block

variable (config : Config) (led : Option Nat)

/-- The state machines and the DMA. -/
def exchange (block : Block) (beat : Beat) : Block :=
  ((bus config led).run block (.cycle beat.gpio :: if beat.transfer then [.dmaTransfer] else [])).1

def interrupted (block : Block) : Bool := block.latch.irq.getLsbD bootRomByteOutIrq

def beat (block : Block) (beat : Beat) : Block :=
  let block := block.exchange config led beat
  if beat.interrupt && block.interrupted then ((bus config led).run block block.byteOutIrqHandler).1 else block

def beats (block : Block) (list : List Beat) : Block := list.foldl (Block.beat config led) block

/-- The DMA has more to send, but the FIFO is empty. -/
def Underrun (block : Block) : Prop := block.dataOut.tx = [] ∧ block.dma ≠ []

instance (block : Block) : Decidable block.Underrun := inferInstanceAs (Decidable (_ ∧ _))

/-- The handler never finds the FIFO empty in the middle of an answer. -/
def KeepsUp : Block → List Beat → Prop
  | _, [] => True
  | block, beat :: rest =>
    (beat.interrupt → ¬ (block.exchange config led beat).Underrun) ∧ KeepsUp (block.beat config led beat) rest

instance KeepsUp.decide : ∀ block list, Decidable (KeepsUp config led block list)
  | _, [] => .isTrue trivial
  | _, _ :: rest => @instDecidableAnd _ _ inferInstance (KeepsUp.decide _ rest)

/-- What the pins are driven to, and which of them are outputs. -/
def levels (block : Block) : Word × Word := (block.latch.pins, block.latch.pindirs)

/-- What the pins `Q0` to `Q7` are driven to, if they are outputs. -/
def shown (block : Block) : Option U8 :=
  if readPins block.latch.pindirs config.bootRomQ0Pin 8 = lowBits 8 then some (q config block.latch.pins) else none

end Block

/-- A byte that the console reads: what is on the pins before it, `CE` and `OE` low
until the console takes the byte, and `OE` low for a while longer. -/
structure Fetch where
  lead : List Beat
  settle : List Beat
  hold : List Beat
  deriving DecidableEq, Repr

/-- Whatever is read from other devices before, `CE` is high in the cycle after one
with `OE` low, and `OE` is high in the last cycle. The byte is taken six cycles after
both pins have fallen, or later, and the interrupt is handled after that. -/
def Fetch.Timed (config : Config) (fetch : Fetch) : Prop :=
  fetch.lead.IsChain (fun before next => oe config before.gpio = false → ce config next.gpio = true) ∧
    (fetch.lead.getLast?.map fun beat => oe config beat.gpio) = some true ∧
    (∀ beat ∈ fetch.settle,
      ce config beat.gpio = false ∧ oe config beat.gpio = false ∧ beat.interrupt = false) ∧
    6 ≤ fetch.settle.length ∧ ∀ beat ∈ fetch.hold, oe config beat.gpio = false

instance (config : Config) (fetch : Fetch) : Decidable (fetch.Timed config) := inferInstanceAs (Decidable (_ ∧ _))

def Fetch.beats (fetch : Fetch) : List Beat := fetch.lead ++ fetch.settle ++ fetch.hold

/-- What the console gets in a row of fetches. -/
def fetched (config : Config) (led : Option Nat) : Block → List Fetch → List (Option U8)
  | _, [] => []
  | block, fetch :: rest =>
    (block.beats config led (fetch.lead ++ fetch.settle)).shown config ::
      fetched config led (block.beats config led fetch.beats) rest

/-- The DMA has stored enough bytes whenever `OE` falls, and at the latest when the
handler looks at the FIFO. -/
def Fed (config : Config) (led : Option Nat) : Nat → Block → List Fetch → Prop
  | _, _, [] => True
  | supply, block, fetch :: rest =>
    supply ≤ (block.beats config led fetch.lead).dataOut.tx.length ∧ block.KeepsUp config led fetch.beats ∧
      Fed config led 1 (block.beats config led fetch.beats) rest

instance Fed.decide (config : Config) (led : Option Nat) :
    ∀ supply block list, Decidable (Fed config led supply block list)
  | _, _, [] => .isTrue trivial
  | _, _, _ :: rest =>
    @instDecidableAnd _ _ inferInstance (@instDecidableAnd _ _ inferInstance (Fed.decide config led 1 _ rest))

/-- How the console takes an answer: two cycles in which the program starts, one
fetch for each byte, and cycles up to the one in which the handler of the last
interrupt runs. -/
structure Reception where
  first : Beat
  second : Beat
  fetches : List Fetch
  last : Fetch
  linger : List Beat
  stop : Beat
  deriving DecidableEq, Repr

def Reception.all (reception : Reception) : List Fetch := reception.fetches ++ [reception.last]

/-- Once the console has the last byte, the handler may run in any cycle, whatever
is on the pins. -/
structure Reception.Timed (config : Config) (reception : Reception) : Prop where
  fetches : ∀ fetch ∈ reception.all, fetch.Timed config
  last : reception.last.hold = []
  quiet : ∀ beat ∈ reception.linger, beat.interrupt = false
  stop : reception.stop.interrupt = true

def Reception.start (reception : Reception) : List Beat := [reception.first, reception.second]

def Reception.beats (reception : Reception) : List Beat :=
  reception.start ++ reception.all.flatMap Fetch.beats ++ reception.linger ++ [reception.stop]

def Reception.Fed (config : Config) (led : Option Nat) (block : Block) (reception : Reception) : Prop :=
  block.KeepsUp config led reception.start ∧
    BootRom.Fed config led 2 (block.beats config led reception.start) reception.all

instance (config : Config) (led : Option Nat) (block : Block) (reception : Reception) :
    Decidable (reception.Fed config led block) := inferInstanceAs (Decidable (_ ∧ _))

/-- What the console gets. -/
def Reception.bytes (config : Config) (led : Option Nat) (block : Block) (reception : Reception) : List (Option U8) :=
  fetched config led (block.beats config led reception.start) reception.all

/-- Nothing is left of an answer. -/
structure Block.Silent (block : Block) : Prop where
  pc : block.dataOut.pc = 0
  delay : block.dataOut.delay = 0
  tx : block.dataOut.tx = []
  dma : block.dma = []

/-- The answer is over: the sniffers run again, and the program is ready for the
next answer. -/
structure Block.Resumed (cores : Core × Core) (block : Block) : Prop where
  listening : block.sniffersEnabled = true ∧ block.dataOutEnabled = false
  silent : block.Silent
  cleared : block.interrupted = false
  sniffers : (block.readSniffer, block.writeSniffer) = cores

end Fruitchip.BootRom
