import Fruitchip.Firmware.BusBlock
import Mathlib.Data.List.Chain

/-! The program that puts an answer on the bus: each fetch of the console finds
the next byte, and the interrupt of the last one ends the answer. -/

namespace Fruitchip.BootRom
open Embedded Embedded.Pio Firmware

variable {config : Config} {led : Option Nat}

namespace DataOutProgram

section Instructions

variable {gpio : Word} {state : State}

theorem fetch (config : Config) (led : Option Nat) (pc : Nat) (later : 0 < pc) :
    (dataOut config led).program[pc]? = (bootRomDataOut config)[pc]? := by
  unfold dataOut bootRomDataOutWithLed bootRomDataOut
  match pc, later with
  | pc + 1, _ => split <;> rfl

theorem step_first (pc : state.pc = 0) (delay : state.delay = 0) :
    (step (dataOut config led) gpio state).toCore =
      { state.toCore with pc := 1, osr := BitVec.allOnes 32, osrCount := 0 } ∧
    (step (dataOut config led) gpio state).latch.irq = state.latch.irq := by
  have fetched : (dataOut config led).program[state.pc]? =
      some ⟨.movOsrNull true, if led.isSome then some true else none, 0⟩ := by
    rw [pc]
    unfold dataOut
    dsimp only
    split <;> rfl
  rw [step_execute rfl delay fetched]
  cases led <;> simp [Pio.execute, advance, State.drive, pc, delay, dataOut]

theorem step_discard (pc : state.pc = 1) (delay : state.delay = 0) :
    step (dataOut config led) gpio state =
      { state with pc := 2, osr := state.osr >>> 24, osrCount := min 32 (state.osrCount + 24) } := by
  have fetched : (dataOut config led).program[state.pc]? = some ⟨.out .null 24, none, 0⟩ := by
    rw [fetch config led _ (by omega), pc]
    rfl
  rw [step_execute rfl delay fetched]
  simp [Pio.execute, advance, State.drive, State.shiftOut, State.write, State.refill, pc, delay, dataOut]

theorem step_wait (pc : state.pc = 2 ∨ state.pc = 9) (delay : state.delay = 0) :
    step (dataOut config led) gpio state = if oe config gpio then state else { state with pc := state.pc + 1 } := by
  have fetched : (dataOut config led).program[state.pc]? = some ⟨.wait false config.bootRomOePin, none, 0⟩ := by
    rw [fetch config led _ (by omega)]
    rcases pc with pc | pc <;> rw [pc] <;> rfl
  rw [step_execute rfl delay fetched]
  have inside : state.pc ≠ 11 := by omega
  unfold oe
  cases level : gpio.getLsbD config.bootRomOePin <;>
    simp [Pio.execute, advance, State.drive, level, delay, inside, dataOut]

theorem step_test (pc : state.pc = 3 ∨ state.pc = 10) (delay : state.delay = 0) :
    step (dataOut config led) gpio state =
      { state with pc := if ce config gpio then state.pc - 1 else state.pc + 1 } := by
  have fetched : (dataOut config led).program[state.pc]? = some ⟨.jmp .pin (state.pc - 1), none, 0⟩ := by
    rw [fetch config led _ (by omega)]
    rcases pc with pc | pc <;> rw [pc] <;> rfl
  rw [step_execute rfl delay fetched]
  have inside : state.pc ≠ 11 := by omega
  unfold ce
  cases level : gpio.getLsbD config.bootRomCePin <;>
    simp [Pio.execute, advance, State.drive, Condition.holds, level, delay, inside, dataOut]

theorem step_dirs (pc : state.pc = 4) (delay : state.delay = 0) :
    step (dataOut config led) gpio state =
      { state with
        pc := 5
        osr := state.osr >>> 8
        osrCount := min 32 (state.osrCount + 8)
        latch.pindirs := setPins state.latch.pindirs config.bootRomQ0Pin 8 (state.osr &&& lowBits 8) } := by
  have fetched : (dataOut config led).program[state.pc]? = some ⟨.out .pindirs 8, none, 0⟩ := by
    rw [fetch config led _ (by omega), pc]
    rfl
  rw [step_execute rfl delay fetched]
  simp [Pio.execute, advance, State.drive, State.shiftOut, State.shiftedOut, State.write, State.refill, pc, delay, dataOut]

theorem step_pull {word : Word} {tx : List Word} (pc : state.pc = 5 ∨ state.pc = 7) (delay : state.delay = 0)
    (used : 8 ≤ state.osrCount) (supplied : state.tx = word :: tx) :
    step (dataOut config led) gpio state = { state with pc := state.pc + 1, osr := word, osrCount := 0, tx } := by
  have fetched : (dataOut config led).program[state.pc]? = some ⟨.pull true, none, 0⟩ := by
    rw [fetch config led _ (by omega)]
    rcases pc with pc | pc <;> rw [pc] <;> rfl
  rw [step_execute rfl delay fetched]
  have inside : state.pc ≠ 11 := by omega
  have unfilled : ¬ state.osrCount < 8 := by omega
  simp [Pio.execute, advance, State.drive, supplied, delay, inside, unfilled, dataOut]

theorem step_out (pc : state.pc = 6) (delay : state.delay = 0) :
    step (dataOut config led) gpio state =
      { state with
        pc := 7
        osr := state.osr >>> 8
        osrCount := min 32 (state.osrCount + 8)
        latch.pins := setPins state.latch.pins config.bootRomQ0Pin 8 (state.osr &&& lowBits 8) } := by
  have fetched : (dataOut config led).program[state.pc]? = some ⟨.out .pins 8, none, 0⟩ := by
    rw [fetch config led _ (by omega), pc]
    rfl
  rw [step_execute rfl delay fetched]
  simp [Pio.execute, advance, State.drive, State.shiftOut, State.shiftedOut, State.write, State.refill, pc, delay, dataOut]

theorem step_release (pc : state.pc = 8) (delay : state.delay = 0) :
    step (dataOut config led) gpio state = if oe config gpio then { state with pc := 9 } else state := by
  have fetched : (dataOut config led).program[state.pc]? = some ⟨.wait true config.bootRomOePin, none, 0⟩ := by
    rw [fetch config led _ (by omega), pc]
    rfl
  rw [step_execute rfl delay fetched]
  unfold oe
  cases level : gpio.getLsbD config.bootRomOePin <;> simp [Pio.execute, advance, State.drive, level, pc, delay, dataOut]

theorem step_irq (pc : state.pc = 11) (delay : state.delay = 0) :
    step (dataOut config led) gpio state =
      { state with pc := 6, latch.irq := state.latch.irq ||| ((1 : Word) <<< bootRomByteOutIrq) } := by
  have fetched : (dataOut config led).program[state.pc]? = some ⟨.irq bootRomByteOutIrq, none, 0⟩ := by
    rw [fetch config led _ (by omega), pc]
    rfl
  rw [step_execute rfl delay fetched]
  simp [Pio.execute, advance, State.drive, pc, delay, dataOut]

end Instructions

/-- Where the program stands: the OSR, how many bytes the FIFO holds at least, and
everything that is not in the OSR yet. -/
structure Place (cores : Core × Core) (pc : Nat) (osr : Word) (osrCount supply : Nat) (unsent : List Word)
    (block : Block) : Prop where
  off : block.sniffersEnabled = false
  on : block.dataOutEnabled = true
  pc : block.dataOut.pc = pc
  delay : block.dataOut.delay = 0
  osr : block.dataOut.osr = osr
  osrCount : block.dataOut.osrCount = osrCount
  supply : supply ≤ block.dataOut.tx.length
  unsent : block.dataOut.tx ++ block.dma = unsent
  sniffers : (block.readSniffer, block.writeSniffer) = cores

variable {cores : Core × Core} {pc osrCount supply : Nat} {osr : Word} {unsent : List Word} {block : Block} {beat : Beat}

/-- The state machine steps, then the DMA may fill the FIFO. -/
theorem exchange_step (off : block.sniffersEnabled = false) (on : block.dataOutEnabled = true) {state : State}
    (stepped : step (dataOut config led) beat.gpio ⟨block.dataOut, block.latch⟩ = state) :
    ∃ tx dma, block.exchange config led beat =
        { block with dataOut := { state.toCore with tx }, latch := state.latch, dma } ∧
      tx ++ dma = state.tx ++ block.dma ∧ state.tx.length ≤ tx.length := by
  have cycled : ((block.stepSniffers config led beat.gpio).stepDataOut config led beat.gpio) =
      { block with dataOut := state.toCore, latch := state.latch } := by
    rw [Block.stepSniffers, if_neg (by simp [off]), Block.stepDataOut, if_pos on, stepped]
  simp only [Block.exchange, Mealy.run_cons, bus, Block.step, cycled]
  cases beat.transfer with
  | false => exact ⟨state.tx, block.dma, rfl, rfl, Nat.le_refl _⟩
  | true =>
    simp only [if_true, Mealy.run_cons, Mealy.run_nil, Block.step, Block.dmaTransfer]
    cases upcoming : block.dma with
    | nil => exact ⟨state.tx, [], by simp, rfl, Nat.le_refl _⟩
    | cons word dma =>
      by_cases room : state.tx.length < joinedDepth
      · refine ⟨state.tx ++ [word], dma, ?_, by simp, by simp⟩
        simp [room, Core.put, dataOut]
      · refine ⟨state.tx, word :: dma, ?_, rfl, Nat.le_refl _⟩
        simp [room]

theorem Place.exchange {state : State} (place : Place cores pc osr osrCount supply unsent block)
    (stepped : step (dataOut config led) beat.gpio ⟨block.dataOut, block.latch⟩ = state)
    (delay : state.delay = 0) (tx : state.tx = block.dataOut.tx) :
    Place cores state.pc state.osr state.osrCount supply unsent (block.exchange config led beat) ∧
      (block.exchange config led beat).latch = state.latch := by
  obtain ⟨tx', dma, result, kept, more⟩ := exchange_step place.off place.on stepped
  rw [result]
  have enough := place.supply
  refine ⟨⟨place.off, place.on, rfl, delay, rfl, rfl, ?_, ?_, place.sniffers⟩, rfl⟩
  · rw [tx] at more
    exact Nat.le_trans enough more
  · exact kept.trans (by rw [tx]; exact place.unsent)

theorem Place.wait (place : Place cores pc osr osrCount supply unsent block) (config : Config) (led : Option Nat)
    (beat : Beat) (position : pc = 2 ∨ pc = 9) :
    Place cores (if oe config beat.gpio then pc else pc + 1) osr osrCount supply unsent (block.exchange config led beat) ∧
      (block.exchange config led beat).latch = block.latch := by
  have stepped := @step_wait config led beat.gpio ⟨block.dataOut, block.latch⟩ (by rw [place.pc]; exact position)
    place.delay
  cases level : oe config beat.gpio with
  | true =>
    rw [level] at stepped
    have next := place.exchange stepped place.delay rfl
    simpa [place.pc, place.osr, place.osrCount] using next
  | false =>
    rw [level] at stepped
    have next := place.exchange stepped place.delay rfl
    simpa [place.pc, place.osr, place.osrCount] using next

theorem Place.test (place : Place cores pc osr osrCount supply unsent block) (config : Config) (led : Option Nat)
    (beat : Beat) (position : pc = 3 ∨ pc = 10) :
    Place cores (if ce config beat.gpio then pc - 1 else pc + 1) osr osrCount supply unsent
        (block.exchange config led beat) ∧
      (block.exchange config led beat).latch = block.latch := by
  have stepped := @step_test config led beat.gpio ⟨block.dataOut, block.latch⟩ (by rw [place.pc]; exact position)
    place.delay
  have next := place.exchange stepped place.delay rfl
  simpa [place.pc, place.osr, place.osrCount] using next

theorem Place.release (place : Place cores 8 osr osrCount supply unsent block) (config : Config) (led : Option Nat)
    (beat : Beat) :
    Place cores (if oe config beat.gpio then 9 else 8) osr osrCount supply unsent (block.exchange config led beat) ∧
      (block.exchange config led beat).latch = block.latch := by
  have stepped := @step_release config led beat.gpio ⟨block.dataOut, block.latch⟩ place.pc place.delay
  cases level : oe config beat.gpio with
  | true =>
    rw [level] at stepped
    have next := place.exchange stepped place.delay rfl
    simpa [place.osr, place.osrCount] using next
  | false =>
    rw [level] at stepped
    have next := place.exchange stepped place.delay rfl
    simpa [place.pc, place.osr, place.osrCount] using next

theorem Place.dirs (place : Place cores 4 osr osrCount supply unsent block) (config : Config) (led : Option Nat)
    (beat : Beat) :
    Place cores 5 (osr >>> 8) (min 32 (osrCount + 8)) supply unsent (block.exchange config led beat) ∧
      (block.exchange config led beat).latch =
        { block.latch with
          pindirs := setPins block.latch.pindirs config.bootRomQ0Pin 8 (osr &&& lowBits 8) } := by
  have stepped := @step_dirs config led beat.gpio ⟨block.dataOut, block.latch⟩ place.pc place.delay
  have next := place.exchange stepped place.delay rfl
  simpa [place.osr, place.osrCount] using next

theorem Place.out (place : Place cores 6 osr osrCount supply unsent block) (config : Config) (led : Option Nat)
    (beat : Beat) :
    Place cores 7 (osr >>> 8) (min 32 (osrCount + 8)) supply unsent (block.exchange config led beat) ∧
      (block.exchange config led beat).latch =
        { block.latch with pins := setPins block.latch.pins config.bootRomQ0Pin 8 (osr &&& lowBits 8) } := by
  have stepped := @step_out config led beat.gpio ⟨block.dataOut, block.latch⟩ place.pc place.delay
  have next := place.exchange stepped place.delay rfl
  simpa [place.osr, place.osrCount] using next

theorem Place.irq (place : Place cores 11 osr osrCount supply unsent block) (config : Config) (led : Option Nat)
    (beat : Beat) :
    Place cores 6 osr osrCount supply unsent (block.exchange config led beat) ∧
      (block.exchange config led beat).latch =
        { block.latch with irq := block.latch.irq ||| ((1 : Word) <<< bootRomByteOutIrq) } := by
  have stepped := @step_irq config led beat.gpio ⟨block.dataOut, block.latch⟩ place.pc place.delay
  have next := place.exchange stepped place.delay rfl
  simpa [place.osr, place.osrCount] using next

theorem Place.pull {word : Word} (place : Place cores pc osr osrCount (supply + 1) (word :: unsent) block)
    (config : Config) (led : Option Nat) (beat : Beat) (position : pc = 5 ∨ pc = 7) (used : 8 ≤ osrCount) :
    Place cores (pc + 1) word 0 supply unsent (block.exchange config led beat) ∧
      (block.exchange config led beat).latch = block.latch := by
  have enough := place.supply
  have whole := place.unsent
  cases stored : block.dataOut.tx with
  | nil => simp [stored] at enough
  | cons first tx =>
    rw [stored, List.cons_append, List.cons.injEq] at whole
    obtain ⟨rfl, rest⟩ := whole
    have stepped := @step_pull config led beat.gpio ⟨block.dataOut, block.latch⟩ first tx
      (by rw [place.pc]; exact position) place.delay (by rw [place.osrCount]; exact used) stored
    obtain ⟨tx', dma, result, kept, more⟩ := exchange_step place.off place.on stepped
    rw [result]
    rw [stored, List.length_cons] at enough
    refine ⟨⟨place.off, place.on, ?_, place.delay, rfl, rfl, ?_, kept.trans rest, place.sniffers⟩, rfl⟩
    · exact congrArg (· + 1) place.pc
    · exact Nat.le_trans (Nat.le_of_succ_le_succ enough) more

theorem keepsUp_append {first rest : List Beat} :
    block.KeepsUp config led (first ++ rest) ↔
      block.KeepsUp config led first ∧ (block.beats config led first).KeepsUp config led rest := by
  induction first generalizing block with
  | nil => simp [Block.KeepsUp, Block.beats]
  | cons beat first ih =>
    simp only [List.cons_append, Block.KeepsUp, ih, and_assoc]
    rfl

theorem beats_append (first rest : List Beat) :
    block.beats config led (first ++ rest) = (block.beats config led first).beats config led rest :=
  List.foldl_append

theorem beat_quiet (quiet : beat.interrupt = false) : block.beat config led beat = block.exchange config led beat := by
  simp [Block.beat, quiet]

/-- In the middle of an answer the handler only clears the interrupt. -/
theorem Place.handled (place : Place cores pc osr osrCount supply unsent (block.exchange config led beat))
    (more : unsent ≠ []) (keepsUp : beat.interrupt → ¬ (block.exchange config led beat).Underrun) :
    Place cores pc osr osrCount supply unsent (block.beat config led beat) ∧
      (block.beat config led beat).levels = (block.exchange config led beat).levels := by
  simp only [Block.beat]
  generalize block.exchange config led beat = next at place keepsUp ⊢
  by_cases ran : (beat.interrupt && next.interrupted) = true
  · have filled : next.dataOut.tx.isEmpty = false := by
      rw [Bool.and_eq_true] at ran
      have running := keepsUp ran.1
      have whole := place.unsent
      cases stored : next.dataOut.tx with
      | cons word tx => rfl
      | nil =>
        rw [stored, List.nil_append] at whole
        exact absurd ⟨stored, by rw [whole]; exact more⟩ running
    rw [if_pos ran]
    simp only [Block.byteOutIrqHandler, filled, Bool.false_eq_true, if_false, Mealy.run_cons, Mealy.run_nil, bus,
      Block.step, Block.interruptClear]
    exact ⟨⟨place.off, place.on, place.pc, place.delay, place.osr, place.osrCount, place.supply, place.unsent,
      place.sniffers⟩, rfl⟩
  · rw [if_neg ran]
    exact ⟨place, rfl⟩

/-- The positions of a loop that waits for `OE`, and the one before it. -/
def Loops (base pc : Nat) : Prop := (base = 2 ∨ base = 9) ∧ (pc = base ∨ pc = base + 1 ∨ base = 9 ∧ pc = 8)

/-- One cycle of such a loop. It is only left where `CE` is low in the cycle after one
with `OE` low. -/
theorem Place.turn {base : Nat} (place : Place cores pc osr osrCount supply unsent block) (led : Option Nat)
    (loops : Loops base pc) (tested : pc = base + 1 → ce config beat.gpio = true) :
    ∃ next, Loops base next ∧ Place cores next osr osrCount supply unsent (block.exchange config led beat) ∧
      (block.exchange config led beat).latch = block.latch ∧ (oe config beat.gpio = true → next = base) ∧
      (next = base + 1 → oe config beat.gpio = false) := by
  obtain ⟨known, rfl | rfl | ⟨rfl, rfl⟩⟩ := loops
  · obtain ⟨next, latch⟩ := place.wait config led beat known
    refine ⟨_, ⟨known, ?_⟩, next, latch, fun high => if_pos high, fun left => ?_⟩
    · split
      · exact .inl rfl
      · exact .inr (.inl rfl)
    · rw [Bool.eq_false_iff]
      intro high
      rw [if_pos high] at left
      omega
  · obtain ⟨next, latch⟩ := place.test config led beat (by omega)
    rw [if_pos (tested rfl)] at next
    exact ⟨base, ⟨known, .inl rfl⟩, next, latch, fun _ => rfl, fun left => by omega⟩
  · obtain ⟨next, latch⟩ := place.release config led beat
    refine ⟨_, ⟨known, ?_⟩, next, latch, fun high => if_pos high, fun left => ?_⟩
    · split
      · exact .inl rfl
      · exact .inr (.inr ⟨rfl, rfl⟩)
    · split at left <;> omega

theorem levels_eq {other : Block} (latch : other.latch = block.latch) : other.levels = block.levels := by
  rw [Block.levels, latch, Block.levels]

theorem Place.turns {base : Nat} {list : List Beat} (place : Place cores pc osr osrCount supply unsent block)
    (loops : Loops base pc) (more : unsent ≠ [])
    (tested : pc = base + 1 → ∀ beat ∈ list.head?, ce config beat.gpio = true)
    (after : list.IsChain fun before next => oe config before.gpio = false → ce config next.gpio = true)
    (keepsUp : block.KeepsUp config led list) :
    ∃ next, Place cores next osr osrCount supply unsent (block.beats config led list) ∧
      (block.beats config led list).levels = block.levels ∧
      ((list.getLast?.map fun beat => oe config beat.gpio) = some true → next = base) := by
  induction list generalizing block pc with
  | nil => exact ⟨pc, place, rfl, fun last => by cases last⟩
  | cons beat list ih =>
    obtain ⟨runs, later⟩ := keepsUp
    obtain ⟨deselected, rest⟩ := List.isChain_cons.mp after
    obtain ⟨next, still, one, latch, high, low⟩ := place.turn led loops fun behind => tested behind beat rfl
    obtain ⟨handled, levels⟩ := one.handled more runs
    have upcoming : next = base + 1 → ∀ beat ∈ list.head?, ce config beat.gpio = true :=
      fun behind other first => deselected other first (low behind)
    obtain ⟨last, final, same, risen⟩ := ih handled still upcoming rest later
    refine ⟨last, final, same.trans (levels.trans (levels_eq latch)), ?_⟩
    cases list with
    | nil =>
      intro alone
      have reached := handled.pc.symm.trans final.pc
      rw [← reached]
      exact high (Option.some.inj alone)
    | cons other list => exact risen

theorem Place.lead {base : Nat} {fetch : Fetch} (place : Place cores pc osr osrCount supply unsent block)
    (start : pc = base ∨ base = 9 ∧ pc = 8) (known : base = 2 ∨ base = 9) (more : unsent ≠ [])
    (timed : fetch.Timed config) (keepsUp : block.KeepsUp config led fetch.lead) :
    Place cores base osr osrCount supply unsent (block.beats config led fetch.lead) ∧
      (block.beats config led fetch.lead).levels = block.levels := by
  obtain ⟨next, final, same, risen⟩ := place.turns ⟨known, by omega⟩ more (by omega) timed.1 keepsUp
  obtain rfl := risen timed.2.1
  exact ⟨final, same⟩

theorem shown_eq {old word : Word} (driven : readPins block.latch.pindirs config.bootRomQ0Pin 8 = lowBits 8)
    (pins : block.latch.pins = setPins old config.bootRomQ0Pin 8 (word &&& lowBits 8)) :
    block.shown config = some (word.setWidth 8) := by
  have low : (word &&& lowBits 8 &&& lowBits 8).setWidth 8 = word.setWidth 8 := by
    ext index inside
    have bit : (lowBits 8).getLsbD index = true := by
      rw [lowBits, BitVec.getLsbD_ushiftRight, BitVec.getLsbD_allOnes]
      exact decide_eq_true (by omega)
    simp [bit]
  rw [Block.shown, if_pos driven, q, pins, readPins_setPins, low]

theorem beats_cons_quiet {list : List Beat} (quiet : beat.interrupt = false) :
    block.beats config led (beat :: list) = (block.exchange config led beat).beats config led list := by
  rw [Block.beats, List.foldl_cons, beat_quiet quiet]
  rfl

theorem Place.stays {list : List Beat} (place : Place cores 8 osr osrCount supply unsent block) (led : Option Nat)
    (low : ∀ beat ∈ list, oe config beat.gpio = false ∧ beat.interrupt = false) :
    Place cores 8 osr osrCount supply unsent (block.beats config led list) ∧
      (block.beats config led list).latch = block.latch := by
  induction list generalizing block with
  | nil => exact ⟨place, rfl⟩
  | cons beat list ih =>
    obtain ⟨down, quiet⟩ := low beat List.mem_cons_self
    obtain ⟨one, latch⟩ := place.release config led beat
    rw [if_neg (by simp [down])] at one
    obtain ⟨rest, same⟩ := ih one fun other member => low other (List.mem_cons_of_mem _ member)
    rw [beats_cons_quiet quiet]
    exact ⟨rest, same.trans latch⟩

/-- A fetch, from the cycle in which `OE` falls: the byte in the OSR comes out, the
interrupt is raised, and the next byte is pulled. -/
theorem Place.settle {word next : Word} {list : List Beat}
    (place : Place cores 9 word 0 (supply + 1) (next :: unsent) block) (led : Option Nat)
    (driven : readPins block.latch.pindirs config.bootRomQ0Pin 8 = lowBits 8)
    (low : ∀ beat ∈ list, ce config beat.gpio = false ∧ oe config beat.gpio = false ∧ beat.interrupt = false)
    (long : 6 ≤ list.length) :
    Place cores 8 next 0 supply unsent (block.beats config led list) ∧
      (block.beats config led list).shown config = some (word.setWidth 8) ∧
      (block.beats config led list).latch.pindirs = block.latch.pindirs ∧
      (block.beats config led list).interrupted = true := by
  match list, long with
  | b0 :: b1 :: b2 :: b3 :: b4 :: rest, _ =>
    have quiet beat member := (low beat member).2.2
    rw [beats_cons_quiet (quiet b0 (by simp)), beats_cons_quiet (quiet b1 (by simp)),
      beats_cons_quiet (quiet b2 (by simp)), beats_cons_quiet (quiet b3 (by simp)),
      beats_cons_quiet (quiet b4 (by simp))]
    obtain ⟨place, latch0⟩ := place.wait config led b0 (.inr rfl)
    rw [if_neg (by simp [(low b0 (by simp)).2.1])] at place
    generalize block.exchange config led b0 = block0 at *
    obtain ⟨place, latch1⟩ := place.test config led b1 (.inr rfl)
    rw [if_neg (by simp [(low b1 (by simp)).1])] at place
    generalize block0.exchange config led b1 = block1 at *
    obtain ⟨place, latch2⟩ := place.irq config led b2
    generalize block1.exchange config led b2 = block2 at *
    obtain ⟨place, latch3⟩ := place.out config led b3
    generalize block2.exchange config led b3 = block3 at *
    obtain ⟨place, latch4⟩ := place.pull config led b4 (.inr rfl) (by decide)
    generalize block3.exchange config led b4 = block4 at *
    have held : ∀ beat ∈ rest, oe config beat.gpio = false ∧ beat.interrupt = false :=
      fun beat member => (low beat (by simp [member])).2
    obtain ⟨place, latch5⟩ := place.stays led held
    have latch := latch5.trans (latch4.trans latch3)
    rw [latch2, latch1, latch0] at latch
    refine ⟨place, shown_eq (by rw [latch]; exact driven) (by rw [latch]), by rw [latch], ?_⟩
    rw [Block.interrupted, latch]
    simp [bootRomByteOutIrq]

theorem Place.settle_first {word next : Word} {list : List Beat}
    (place : Place cores 2 osr 24 (supply + 2) (word :: next :: unsent) block) (led : Option Nat)
    (full : osr &&& lowBits 8 = lowBits 8)
    (low : ∀ beat ∈ list, ce config beat.gpio = false ∧ oe config beat.gpio = false ∧ beat.interrupt = false)
    (long : 6 ≤ list.length) :
    Place cores 8 next 0 supply unsent (block.beats config led list) ∧
      (block.beats config led list).shown config = some (word.setWidth 8) ∧
      readPins (block.beats config led list).latch.pindirs config.bootRomQ0Pin 8 = lowBits 8 := by
  match list, long with
  | b0 :: b1 :: b2 :: b3 :: b4 :: b5 :: rest, _ =>
    have quiet beat member := (low beat member).2.2
    rw [beats_cons_quiet (quiet b0 (by simp)), beats_cons_quiet (quiet b1 (by simp)),
      beats_cons_quiet (quiet b2 (by simp)), beats_cons_quiet (quiet b3 (by simp)),
      beats_cons_quiet (quiet b4 (by simp)), beats_cons_quiet (quiet b5 (by simp))]
    obtain ⟨place, _⟩ := place.wait config led b0 (.inl rfl)
    rw [if_neg (by simp [(low b0 (by simp)).2.1])] at place
    generalize block.exchange config led b0 = block0 at *
    obtain ⟨place, _⟩ := place.test config led b1 (.inl rfl)
    rw [if_neg (by simp [(low b1 (by simp)).1])] at place
    generalize block0.exchange config led b1 = block1 at *
    obtain ⟨place, latch2⟩ := place.dirs config led b2
    generalize block1.exchange config led b2 = block2 at *
    obtain ⟨place, latch3⟩ := place.pull config led b3 (.inl rfl) (by decide)
    generalize block2.exchange config led b3 = block3 at *
    obtain ⟨place, latch4⟩ := place.out config led b4
    generalize block3.exchange config led b4 = block4 at *
    obtain ⟨place, latch5⟩ := place.pull config led b5 (.inr rfl) (by decide)
    generalize block4.exchange config led b5 = block5 at *
    have held : ∀ beat ∈ rest, oe config beat.gpio = false ∧ beat.interrupt = false :=
      fun beat member => (low beat (by simp [member])).2
    obtain ⟨place, latch6⟩ := place.stays led held
    have latch := latch6.trans (latch5.trans latch4)
    rw [latch3, latch2, full] at latch
    have driven : readPins (block5.beats config led rest).latch.pindirs config.bootRomQ0Pin 8 = lowBits 8 := by
      rw [latch, readPins_setPins, BitVec.and_self]
    exact ⟨place, shown_eq driven (by rw [latch]), driven⟩

theorem Place.holds {list : List Beat} (place : Place cores 8 osr osrCount supply unsent block) (more : unsent ≠ [])
    (low : ∀ beat ∈ list, oe config beat.gpio = false) (keepsUp : block.KeepsUp config led list) :
    Place cores 8 osr osrCount supply unsent (block.beats config led list) ∧
      (block.beats config led list).levels = block.levels := by
  induction list generalizing block with
  | nil => exact ⟨place, rfl⟩
  | cons beat list ih =>
    obtain ⟨runs, later⟩ := keepsUp
    obtain ⟨one, latch⟩ := place.release config led beat
    rw [if_neg (by simp [low beat List.mem_cons_self])] at one
    obtain ⟨handled, levels⟩ := one.handled more runs
    obtain ⟨rest, same⟩ := ih handled (fun other member => low other (List.mem_cons_of_mem _ member)) later
    exact ⟨rest, same.trans (levels.trans (levels_eq latch))⟩

structure Loaded (config : Config) (cores : Core × Core) (word : Word) (unsent : List Word) (block : Block) :
    Prop where
  place : Place cores 8 word 0 0 unsent block
  driven : readPins block.latch.pindirs config.bootRomQ0Pin 8 = lowBits 8

theorem Place.supplied (place : Place cores pc osr osrCount supply unsent block) (more : Nat)
    (filled : more ≤ block.dataOut.tx.length) : Place cores pc osr osrCount more unsent block :=
  ⟨place.off, place.on, place.pc, place.delay, place.osr, place.osrCount, filled, place.unsent, place.sniffers⟩

/-- A fetch gets the byte in the OSR. If that was not the last one, the next is
ready after it. -/
theorem Loaded.fetch {word next : Word} {fetch : Fetch} (loaded : Loaded config cores word (next :: unsent) block)
    (timed : fetch.Timed config) (supplied : 1 ≤ (block.beats config led fetch.lead).dataOut.tx.length)
    (keepsUp : block.KeepsUp config led fetch.beats) :
    (block.beats config led (fetch.lead ++ fetch.settle)).shown config = some (word.setWidth 8) ∧
      (block.beats config led (fetch.lead ++ fetch.settle)).interrupted = true ∧
      Loaded config cores next unsent (block.beats config led (fetch.lead ++ fetch.settle)) ∧
      (unsent ≠ [] → Loaded config cores next unsent (block.beats config led fetch.beats)) := by
  obtain ⟨runs, runsHold⟩ := keepsUp_append.mp keepsUp
  obtain ⟨runsLead, _⟩ := keepsUp_append.mp runs
  obtain ⟨armed, levels⟩ := loaded.place.lead (.inr ⟨rfl, rfl⟩) (.inr rfl) (List.cons_ne_nil _ _) timed runsLead
  have driven : readPins (block.beats config led fetch.lead).latch.pindirs config.bootRomQ0Pin 8 = lowBits 8 := by
    have same := congrArg Prod.snd levels
    simp only [Block.levels] at same
    rw [same, loaded.driven]
  obtain ⟨settled, shown, dirs, interrupted⟩ :=
    (armed.supplied (0 + 1) supplied).settle led driven timed.2.2.1 timed.2.2.2.1
  rw [← beats_append] at settled shown dirs interrupted
  have drivenAfter := (congrArg (readPins · config.bootRomQ0Pin 8) dirs).trans driven
  refine ⟨shown, interrupted, ⟨settled, drivenAfter⟩, ?_⟩
  intro more
  obtain ⟨held, same⟩ := settled.holds more timed.2.2.2.2 runsHold
  rw [← beats_append] at held same
  refine ⟨held, ?_⟩
  have kept := congrArg Prod.snd same
  simp only [Block.levels] at kept
  rw [Fetch.beats, kept]
  exact drivenAfter

theorem Place.fetch_first {word next : Word} {fetch : Fetch}
    (place : Place cores 2 osr 24 0 (word :: next :: unsent) block) (full : osr &&& lowBits 8 = lowBits 8)
    (more : unsent ≠ []) (timed : fetch.Timed config)
    (supplied : 2 ≤ (block.beats config led fetch.lead).dataOut.tx.length)
    (keepsUp : block.KeepsUp config led fetch.beats) :
    (block.beats config led (fetch.lead ++ fetch.settle)).shown config = some (word.setWidth 8) ∧
      Loaded config cores next unsent (block.beats config led fetch.beats) := by
  obtain ⟨runs, runsHold⟩ := keepsUp_append.mp keepsUp
  obtain ⟨runsLead, _⟩ := keepsUp_append.mp runs
  obtain ⟨armed, _⟩ := place.lead (.inl rfl) (.inl rfl) (List.cons_ne_nil _ _) timed runsLead
  obtain ⟨settled, shown, driven⟩ :=
    Place.settle_first (armed.supplied (0 + 2) supplied) led full timed.2.2.1 timed.2.2.2.1
  rw [← beats_append] at settled shown driven
  obtain ⟨held, same⟩ := settled.holds more timed.2.2.2.2 runsHold
  rw [← beats_append] at held same
  refine ⟨shown, held, ?_⟩
  have kept := congrArg Prod.snd same
  simp only [Block.levels] at kept
  rw [Fetch.beats, kept]
  exact driven

/-- All bytes but the first, and what is left after the last. -/
theorem Loaded.all {word eot : Word} {words : List Word} {fetches : List Fetch} {last : Fetch}
    (loaded : Loaded config cores word (words ++ [eot]) block) (count : fetches.length = words.length)
    (timed : ∀ fetch ∈ fetches ++ [last], fetch.Timed config) (brief : last.hold = [])
    (fed : Fed config led 1 block (fetches ++ [last])) :
    fetched config led block (fetches ++ [last]) = (word :: words).map (fun word => some (word.setWidth 8)) ∧
      Loaded config cores eot [] (block.beats config led ((fetches ++ [last]).flatMap Fetch.beats)) ∧
      (block.beats config led ((fetches ++ [last]).flatMap Fetch.beats)).interrupted = true := by
  induction fetches generalizing block word words with
  | nil =>
    obtain rfl := List.eq_nil_of_length_eq_zero count.symm
    obtain ⟨supplied, keepsUp, _⟩ := fed
    obtain ⟨shown, interrupted, after, _⟩ := loaded.fetch (timed last (by simp)) supplied keepsUp
    have whole : ([] ++ [last]).flatMap Fetch.beats = last.lead ++ last.settle := by
      simp [Fetch.beats, brief]
    rw [whole]
    exact ⟨by simp [fetched, shown], after, interrupted⟩
  | cons fetch fetches ih =>
    cases words with
    | nil => simp at count
    | cons next words =>
      obtain ⟨supplied, keepsUp, later⟩ := fed
      obtain ⟨shown, _, _, after⟩ := loaded.fetch (timed fetch (by simp)) supplied keepsUp
      have rest := after (by simp)
      obtain ⟨bytes, final, interrupted⟩ := ih rest (Nat.succ.inj count)
        (fun other member => timed other (List.mem_cons_of_mem _ member)) later
      rw [List.cons_append, List.flatMap_cons, beats_append]
      refine ⟨?_, final, interrupted⟩
      rw [fetched, shown, bytes]
      rfl

/-- The console has everything, and the interrupt of the last byte is raised. -/
structure Over (cores : Core × Core) (block : Block) : Prop where
  off : block.sniffersEnabled = false
  on : block.dataOutEnabled = true
  spent : Spent bootRomByteOutIrq ⟨block.dataOut, block.latch⟩
  dma : block.dma = []
  sniffers : (block.readSniffer, block.writeSniffer) = cores

theorem Place.ended (place : Place cores pc osr osrCount supply [] block) (interrupted : block.interrupted = true) :
    Over cores block := by
  obtain ⟨stored, upcoming⟩ := List.append_eq_nil_iff.mp place.unsent
  exact ⟨place.off, place.on, ⟨stored, interrupted⟩, upcoming, place.sniffers⟩

/-- Without another byte the program does no harm, wherever it gets to. -/
theorem Over.exchange (ended : Over cores block) (config : Config) (led : Option Nat) (beat : Beat) :
    Over cores (block.exchange config led beat) := by
  have spent := ended.spent.step (dataOut config led) beat.gpio
  obtain ⟨tx, dma, result, kept, _⟩ := exchange_step ended.off ended.on (rfl :
    step (dataOut config led) beat.gpio ⟨block.dataOut, block.latch⟩ = _)
  rw [spent.tx, ended.dma, List.append_nil] at kept
  obtain ⟨rfl, rfl⟩ := List.append_eq_nil_iff.mp kept
  rw [result]
  exact ⟨ended.off, ended.on, ⟨rfl, spent.raised⟩, rfl, ended.sniffers⟩

theorem Over.beats {list : List Beat} (ended : Over cores block) (config : Config) (led : Option Nat)
    (quiet : ∀ beat ∈ list, beat.interrupt = false) : Over cores (block.beats config led list) := by
  induction list generalizing block with
  | nil => exact ended
  | cons beat list ih =>
    rw [beats_cons_quiet (quiet beat List.mem_cons_self)]
    exact ih (ended.exchange config led beat) fun other member => quiet other (List.mem_cons_of_mem _ member)

/-- The handler finds the FIFO empty. -/
theorem Over.stopped (ended : Over cores block) (config : Config) (led : Option Nat) (handles : beat.interrupt = true) :
    (block.beat config led beat).Resumed cores := by
  have next := ended.exchange config led beat
  simp only [Block.beat]
  generalize block.exchange config led beat = block at next ⊢
  have raised : block.interrupted = true := next.spent.raised
  have stored : block.dataOut.tx = [] := next.spent.tx
  rw [handles, raised, Bool.and_self, if_pos rfl]
  simp only [Block.byteOutIrqHandler, stored, List.isEmpty_nil, if_true, Mealy.run_cons, Mealy.run_nil, bus, Block.step,
    Block.dataOutReset, Block.interruptClear]
  refine ⟨⟨rfl, rfl⟩, ⟨rfl, rfl, stored, next.dma⟩, ?_, next.sniffers⟩
  simp [Block.interrupted, bootRomByteOutIrq]

theorem Place.first (place : Place cores 0 osr osrCount supply unsent block) (config : Config) (led : Option Nat)
    (beat : Beat) : Place cores 1 (BitVec.allOnes 32) 0 supply unsent (block.exchange config led beat) := by
  obtain ⟨core, _⟩ := @step_first config led beat.gpio ⟨block.dataOut, block.latch⟩ place.pc place.delay
  generalize stepped : step (dataOut config led) beat.gpio ⟨block.dataOut, block.latch⟩ = state at core
  have next := (place.exchange stepped (by rw [core]; exact place.delay) (by rw [core])).1
  rw [core] at next
  exact next

theorem Place.discard (place : Place cores 1 osr osrCount supply unsent block) (config : Config) (led : Option Nat)
    (beat : Beat) :
    Place cores 2 (osr >>> 24) (min 32 (osrCount + 24)) supply unsent (block.exchange config led beat) := by
  have stepped := @step_discard config led beat.gpio ⟨block.dataOut, block.latch⟩ place.pc place.delay
  have next := (place.exchange stepped place.delay rfl).1
  simpa [place.osr, place.osrCount] using next

theorem Place.start {reception : Reception} (place : Place cores 0 osr osrCount supply unsent block)
    (more : unsent ≠ []) (keepsUp : block.KeepsUp config led reception.start) :
    Place cores 2 0xFF 24 supply unsent (block.beats config led reception.start) := by
  obtain ⟨runsFirst, runsSecond, _⟩ := keepsUp
  have first := ((place.first config led reception.first).handled more runsFirst).1
  exact ((first.discard config led reception.second).handled more runsSecond).1

end DataOutProgram

open DataOutProgram in
/-- The console takes an answer as it was given to the DMA, and the handler of the
last interrupt ends it, if the DMA keeps up and the handler does not come before
the console has the last byte. -/
theorem answer_delivered (config : Config) (led : Option Nat) {block : Block} (silent : block.Silent)
    {words : List Word} (several : 2 ≤ words.length) {reception : Reception} (timed : reception.Timed config)
    (count : reception.all.length = words.length)
    (fed : reception.Fed config led ((bus config led).run block (startAnswer (words ++ [0]))).1) :
    reception.bytes config led ((bus config led).run block (startAnswer (words ++ [0]))).1 =
        words.map (fun word => some (word.setWidth 8)) ∧
      (((bus config led).run block (startAnswer (words ++ [0]))).1.beats config led reception.beats).Resumed
        (block.readSniffer.restart.exec 0, block.writeSniffer.restart.exec 0) := by
  have place : Place (block.readSniffer.restart.exec 0, block.writeSniffer.restart.exec 0) 0 block.dataOut.osr
      block.dataOut.osrCount 0 (words ++ [0]) ((bus config led).run block (startAnswer (words ++ [0]))).1 := by
    refine ⟨rfl, rfl, silent.pc, silent.delay, rfl, rfl, Nat.zero_le _, ?_, rfl⟩
    show block.dataOut.tx ++ (block.dma ++ (words ++ [0])) = words ++ [0]
    rw [silent.tx, silent.dma]
    rfl
  generalize ((bus config led).run block (startAnswer (words ++ [0]))).1 = started at *
  obtain ⟨keepsUp, fed⟩ := fed
  have atFirst := place.start (by simp) keepsUp
  have bytes : reception.bytes config led started = words.map (fun word => some (word.setWidth 8)) ∧
      Loaded config (block.readSniffer.restart.exec 0, block.writeSniffer.restart.exec 0) 0 []
        (started.beats config led (reception.start ++ reception.all.flatMap Fetch.beats)) ∧
      (started.beats config led (reception.start ++ reception.all.flatMap Fetch.beats)).interrupted = true := by
    rw [Reception.bytes, beats_append]
    generalize started.beats config led reception.start = ready at *
    have all := timed.fetches
    have brief := timed.last
    rw [Reception.all] at all fed count ⊢
    generalize reception.fetches = fetches at *
    match words, several, fetches with
    | word :: next :: words, _, [] => simp at count
    | word :: next :: words, _, fetch :: fetches =>
      obtain ⟨supplied, runs, fed⟩ := fed
      obtain ⟨shown, loaded⟩ := Place.fetch_first atFirst (by decide) (by simp) (all fetch (by simp)) supplied runs
      have rest := loaded.all (by simpa using count) (fun other member => all other (List.mem_cons_of_mem _ member))
        brief fed
      rw [List.cons_append, fetched, shown, List.flatMap_cons, beats_append, rest.1]
      exact ⟨rfl, rest.2⟩
  obtain ⟨taken, loaded, interrupted⟩ := bytes
  refine ⟨taken, ?_⟩
  have lingers := (loaded.place.ended interrupted).beats config led timed.quiet
  rw [Reception.beats, beats_append, beats_append]
  exact lingers.stopped config led timed.stop

/-- Between the first byte and the second, another device is read. -/
theorem answer_delivered_three_bytes :
    let config := waveshareRp2040Tiny default
    let block : Block := .init ⟨0, 0, 0⟩
    let answering := ((bus config none).run block (startAnswer ([0x12, 0x34, 0x56] ++ [0]))).1
    let settle : List Beat := List.replicate 6 ⟨0, true, false⟩
    let fetch : Fetch := ⟨[⟨0x100, true, true⟩], settle, []⟩
    let elsewhere : Fetch :=
      ⟨[⟨0x300, true, true⟩, ⟨0x200, true, true⟩, ⟨0x200, true, true⟩, ⟨0x300, true, true⟩, ⟨0x100, true, true⟩], settle, []⟩
    let reception : Reception := ⟨⟨0, true, false⟩, ⟨0, true, true⟩, [fetch, elsewhere], fetch, [], ⟨0x300, true, true⟩⟩
    reception.bytes config none answering = [some 0x12, some 0x34, some 0x56] ∧
      (answering.beats config none reception.beats).Resumed (Core.init.restart.exec 0, Core.init.restart.exec 0) :=
  @answer_delivered (waveshareRp2040Tiny default) none (.init ⟨0, 0, 0⟩) ⟨rfl, rfl, rfl, rfl⟩ _ (by decide) _
    ⟨by decide +kernel, rfl, by decide, rfl⟩ rfl (by decide +kernel)

end Fruitchip.BootRom
