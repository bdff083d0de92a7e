import Fruitchip.Library.Bytes

/-! A DMA controller whose channels can be programmed by other channels. A step
moves one unit of one busy channel; when a channel runs out of units it stops
and triggers the channel it chains to. What lies behind an address is left to a
`Bus`. -/

namespace Embedded

namespace Dma

/-- The control word of a channel. -/
structure Ctrl where
  en : Bool
  highPriority : Bool
  /-- Units have `2 ^ dataSize` bytes. -/
  dataSize : Nat
  incrRead : Bool
  incrWrite : Bool
  /-- Addresses wrap at `2 ^ ringSize` bytes; zero is no ring. -/
  ringSize : Nat
  /-- The ring applies to the write address. -/
  ringSel : Bool
  chainTo : Nat
  treqSel : Nat
  irqQuiet : Bool
  sniffEn : Bool
  deriving DecidableEq, Repr

/-- The word zero. It does not enable the channel it is written to. -/
def Ctrl.null : Ctrl where
  en := false
  highPriority := false
  dataSize := 0
  incrRead := false
  incrWrite := false
  ringSize := 0
  ringSel := false
  chainTo := 0
  treqSel := 0
  irqQuiet := false
  sniffEn := false

structure Address (Ω : Type) where
  object : Ω
  offset : Nat
  deriving DecidableEq, Repr

/-- What one unit carries. -/
inductive Word (Ω : Type) where
  | address (value : Address Ω)
  | count (value : Nat)
  | ctrl (value : Ctrl)
  | bits (value : U32)
  deriving DecidableEq, Repr

structure Channel (Ω : Type) where
  readAddr : Address Ω
  writeAddr : Address Ω
  transCount : Nat
  ctrl : Ctrl
  busy : Bool
  /-- Units that are left of the current transfer. -/
  remaining : Nat
  deriving DecidableEq, Repr

/-- Four words that are copied into the registers of a channel. -/
structure Block (Ω : Type) where
  readAddr : Address Ω
  writeAddr : Address Ω
  transCount : Nat
  ctrl : Ctrl
  deriving DecidableEq, Repr

def Block.word {Ω : Type} (block : Block Ω) : Nat → Word Ω
  | 0 => .address block.readAddr
  | 1 => .address block.writeAddr
  | 2 => .count block.transCount
  | _ => .ctrl block.ctrl

/-- Everything that is not a channel: memory, peripherals and the sniffer. -/
structure Bus (Ω σ : Type) where
  /-- The channel whose registers an object is. -/
  registers : Ω → Option Nat
  load : σ → Address Ω → Option (Word Ω)
  store : σ → Address Ω → Word Ω → Option σ
  /-- The sniffer sees the units of every channel. -/
  sniff : σ → Nat → Ctrl → Word Ω → σ

variable {Ω σ : Type}

def advance (ctrl : Ctrl) (incr ring : Bool) (address : Address Ω) : Address Ω :=
  if incr then
    let next := address.offset + 2 ^ ctrl.dataSize
    if ring ∧ ctrl.ringSize ≠ 0 then
      { address with offset := address.offset - address.offset % 2 ^ ctrl.ringSize + next % 2 ^ ctrl.ringSize }
    else { address with offset := next }
  else address

/-- The channel after one unit. -/
def Channel.moved (channel : Channel Ω) : Channel Ω :=
  { channel with
    readAddr := advance channel.ctrl channel.ctrl.incrRead (!channel.ctrl.ringSel) channel.readAddr
    writeAddr := advance channel.ctrl channel.ctrl.incrWrite channel.ctrl.ringSel channel.writeAddr
    remaining := channel.remaining - 1 }

/-- A trigger starts an enabled channel that is not busy. -/
def Channel.triggered (channel : Channel Ω) : Channel Ω :=
  if channel.ctrl.en ∧ ¬ channel.busy then { channel with busy := true, remaining := channel.transCount }
  else channel

/-- What a transfer does not change: where the units go, how many there are,
and the control word. -/
structure Program (Ω : Type) where
  writeAddr : Address Ω
  transCount : Nat
  ctrl : Ctrl
  deriving DecidableEq, Repr

def Channel.program (channel : Channel Ω) : Program Ω := ⟨channel.writeAddr, channel.transCount, channel.ctrl⟩

def Program.chained (program : Program Ω) (chainTo : Nat) : Program Ω := { program with ctrl.chainTo := chainTo }

/-- Only the last channel to chain to counts. -/
theorem Channel.rechained {channel : Channel Ω} {program : Program Ω} {before : Nat}
    (chained : channel.program = program.chained before) (chainTo : Nat) :
    Channel.program { channel with ctrl.chainTo := chainTo } = program.chained chainTo := by
  obtain ⟨writeAddr, transCount, ctrl⟩ := Program.mk.inj chained
  simp only [Channel.program, writeAddr, transCount, ctrl]
  rfl

structure Engine (Ω σ : Type) where
  channels : Nat → Channel Ω
  memory : σ

@[simp] theorem Channel.triggered_readAddr (channel : Channel Ω) : channel.triggered.readAddr = channel.readAddr := by
  unfold triggered
  split <;> rfl

@[simp] theorem Channel.triggered_writeAddr (channel : Channel Ω) :
    channel.triggered.writeAddr = channel.writeAddr := by
  unfold triggered
  split <;> rfl

@[simp] theorem Channel.triggered_transCount (channel : Channel Ω) :
    channel.triggered.transCount = channel.transCount := by
  unfold triggered
  split <;> rfl

@[simp] theorem Channel.triggered_ctrl (channel : Channel Ω) : channel.triggered.ctrl = channel.ctrl := by
  unfold triggered
  split <;> rfl

@[simp] theorem Channel.triggered_program (channel : Channel Ω) : channel.triggered.program = channel.program := by
  simp [program]

theorem Channel.triggered_enabled {channel : Channel Ω} (enabled : channel.ctrl.en = true)
    (idle : channel.busy = false) :
    channel.triggered = { channel with busy := true, remaining := channel.transCount } := by
  rw [triggered, if_pos ⟨enabled, by simp [idle]⟩]

namespace Engine

def set (engine : Engine Ω σ) (index : Nat) (channel : Channel Ω) : Engine Ω σ :=
  { engine with channels := fun other => if other = index then channel else engine.channels other }

@[simp] theorem set_channels_self (engine : Engine Ω σ) (index : Nat) (channel : Channel Ω) :
    (engine.set index channel).channels index = channel := if_pos rfl

theorem set_channels_other (engine : Engine Ω σ) {index other : Nat} (channel : Channel Ω)
    (different : other ≠ index) : (engine.set index channel).channels other = engine.channels other :=
  if_neg different

@[simp] theorem set_memory (engine : Engine Ω σ) (index : Nat) (channel : Channel Ω) :
    (engine.set index channel).memory = engine.memory := rfl

def trigger (engine : Engine Ω σ) (index : Nat) : Engine Ω σ :=
  engine.set index (engine.channels index).triggered

/-- A channel that chains to itself does not chain. -/
def finish (engine : Engine Ω σ) (index : Nat) : Engine Ω σ :=
  let channel := engine.channels index
  let engine := engine.set index { channel with busy := false }
  if channel.ctrl.chainTo = index then engine else engine.trigger channel.ctrl.chainTo

/-- The registers READ_ADDR, WRITE_ADDR, TRANS_COUNT and CTRL_TRIG. -/
def writeRegister (engine : Engine Ω σ) (index register : Nat) (word : Word Ω) : Option (Engine Ω σ) :=
  let channel := engine.channels index
  match register, word with
  | 0, .address value => some (engine.set index { channel with readAddr := value })
  | 1, .address value => some (engine.set index { channel with writeAddr := value })
  | 2, .count value => some (engine.set index { channel with transCount := value })
  | 3, .ctrl value => some ((engine.set index { channel with ctrl := value }).trigger index)
  | _, _ => none

/-- A unit arrives at its write address. -/
def deliver (bus : Bus Ω σ) (engine : Engine Ω σ) (address : Address Ω) (word : Word Ω) :
    Option (Engine Ω σ) :=
  match bus.registers address.object with
  | some target => engine.writeRegister target (address.offset / 4) word
  | none => (bus.store engine.memory address word).map fun memory => { engine with memory }

/-- One unit of a busy channel. `none` is a channel that does not move, or an
access that the bus does not know. -/
def step (bus : Bus Ω σ) (engine : Engine Ω σ) (index : Nat) : Option (Engine Ω σ) :=
  let channel := engine.channels index
  if channel.busy then
    if channel.remaining = 0 then some (engine.finish index)
    else
      match bus.load engine.memory channel.readAddr with
      | none => none
      | some word =>
        let moved := engine.set index channel.moved
        let sniffed := { moved with memory := bus.sniff engine.memory index channel.ctrl word }
        match sniffed.deliver bus channel.writeAddr word with
        | none => none
        | some engine => some (if channel.remaining = 1 then engine.finish index else engine)
  else none

@[simp] theorem trigger_memory (engine : Engine Ω σ) (index : Nat) :
    (engine.trigger index).memory = engine.memory := rfl

@[simp] theorem finish_memory (engine : Engine Ω σ) (index : Nat) :
    (engine.finish index).memory = engine.memory := by
  simp only [finish]
  split <;> rfl

theorem finish_self (engine : Engine Ω σ) {index : Nat} (alone : (engine.channels index).ctrl.chainTo = index) :
    engine.finish index = engine.set index { engine.channels index with busy := false } := by
  simp only [finish, alone, ite_true]

theorem finish_chain (engine : Engine Ω σ) {index : Nat} (chained : (engine.channels index).ctrl.chainTo ≠ index) :
    engine.finish index = (engine.set index { engine.channels index with busy := false }).trigger
      (engine.channels index).ctrl.chainTo := by
  simp only [finish, chained, ite_false]

theorem deliver_memory {bus : Bus Ω σ} {engine delivered : Engine Ω σ} {address : Address Ω} {word : Word Ω}
    (outside : bus.registers address.object = none) (done : engine.deliver bus address word = some delivered) :
    delivered.channels = engine.channels := by
  simp only [deliver, outside, Option.map_eq_some_iff] at done
  obtain ⟨memory, _, rfl⟩ := done
  rfl

theorem step_cases {bus : Bus Ω σ} {engine next : Engine Ω σ} {index : Nat}
    (stepped : engine.step bus index = some next) :
    (engine.channels index).busy = true ∧
      ((engine.channels index).remaining = 0 ∧ next = engine.finish index ∨
        (engine.channels index).remaining ≠ 0 ∧ ∃ word delivered,
          bus.load engine.memory (engine.channels index).readAddr = some word ∧
          deliver bus { engine.set index (engine.channels index).moved with
              memory := bus.sniff engine.memory index (engine.channels index).ctrl word }
            (engine.channels index).writeAddr word = some delivered ∧
          next = if (engine.channels index).remaining = 1 then delivered.finish index else delivered) := by
  simp only [step] at stepped
  split at stepped
  next busy =>
    refine ⟨busy, ?_⟩
    split at stepped
    next done => exact .inl ⟨done, (Option.some.inj stepped).symm⟩
    next more =>
      right
      refine ⟨more, ?_⟩
      split at stepped
      · cases stepped
      next word loaded =>
        split at stepped
        · cases stepped
        next delivered arrived => exact ⟨word, delivered, loaded, arrived, (Option.some.inj stepped).symm⟩
  · cases stepped

theorem step_idle {bus : Bus Ω σ} {engine : Engine Ω σ} {index : Nat}
    (idle : (engine.channels index).busy = false) : engine.step bus index = none := by
  simp only [step, idle, Bool.false_eq_true, ite_false]

theorem set_set (engine : Engine Ω σ) (index : Nat) (first last : Channel Ω) :
    (engine.set index first).set index last = engine.set index last := by
  simp only [set, mk.injEq, and_true]
  funext other
  split <;> rfl

theorem set_program (engine : Engine Ω σ) {index : Nat} {channel : Channel Ω}
    (same : channel.program = (engine.channels index).program) (other : Nat) :
    ((engine.set index channel).channels other).program = (engine.channels other).program := by
  by_cases here : other = index
  · rw [here, set_channels_self, same]
  · rw [set_channels_other engine channel here]

theorem trigger_program (engine : Engine Ω σ) (index other : Nat) :
    ((engine.trigger index).channels other).program = (engine.channels other).program :=
  engine.set_program (Channel.triggered_program _) other

theorem trigger_readAddr (engine : Engine Ω σ) (index other : Nat) :
    ((engine.trigger index).channels other).readAddr = (engine.channels other).readAddr := by
  by_cases here : other = index
  · rw [here, trigger, set_channels_self, Channel.triggered_readAddr]
  · rw [trigger, set_channels_other engine _ here]

theorem set_comm (engine : Engine Ω σ) {index other : Nat} (first last : Channel Ω) (different : index ≠ other) :
    (engine.set index first).set other last = (engine.set other last).set index first := by
  simp only [set, mk.injEq, and_true]
  funext channel
  by_cases here : channel = index
  · simp [here, different]
  · simp [here]

theorem set_congr {engine other : Engine Ω σ} (same : engine.channels = other.channels) (index : Nat)
    (channel : Channel Ω) : (engine.set index channel).channels = (other.set index channel).channels := by
  simp only [set, same]

theorem trigger_congr {engine other : Engine Ω σ} (same : engine.channels = other.channels) (index : Nat) :
    (engine.trigger index).channels = (other.trigger index).channels := by
  rw [trigger, trigger, same]
  exact set_congr same index _

/-- One unit of a channel that does not write to registers and does not chain
to itself: it moves on, or it stops and triggers the next channel. -/
theorem step_worker {bus : Bus Ω σ} {engine next : Engine Ω σ} {index : Nat}
    (outside : bus.registers (engine.channels index).writeAddr.object = none)
    (chained : (engine.channels index).ctrl.chainTo ≠ index)
    (stepped : engine.step bus index = some next) :
    ∃ channel, channel.ctrl = (engine.channels index).ctrl ∧
      channel.transCount = (engine.channels index).transCount ∧
      channel.writeAddr.object = (engine.channels index).writeAddr.object ∧
      ((engine.channels index).ctrl.incrWrite = false → channel.writeAddr = (engine.channels index).writeAddr) ∧
      (channel.busy = true ∧ next.channels = (engine.set index channel).channels ∨
        channel.busy = false ∧
          next.channels = ((engine.set index channel).trigger (engine.channels index).ctrl.chainTo).channels) := by
  obtain ⟨busy, done | ⟨more, word, delivered, _, arrived, rfl⟩⟩ := step_cases stepped
  · obtain ⟨_, rfl⟩ := done
    refine ⟨{ engine.channels index with busy := false }, rfl, rfl, rfl, fun _ => rfl, .inr ⟨rfl, ?_⟩⟩
    rw [finish_chain engine chained]
  · have alike := deliver_memory (by exact outside) arrived
    have channels : delivered.channels = (engine.set index (engine.channels index).moved).channels := alike
    have fixed : (engine.channels index).moved.writeAddr.object = (engine.channels index).writeAddr.object := by
      simp only [Channel.moved, advance]
      repeat' split
      all_goals rfl
    have still : (engine.channels index).ctrl.incrWrite = false →
        (engine.channels index).moved.writeAddr = (engine.channels index).writeAddr := by
      intro keeps
      simp [Channel.moved, advance, keeps]
    split
    next last =>
      refine ⟨{ (engine.channels index).moved with busy := false }, rfl, rfl, fixed, still, .inr ⟨rfl, ?_⟩⟩
      have here : delivered.channels index = (engine.channels index).moved := by
        rw [channels, set_channels_self]
      rw [finish_chain delivered (by rw [here]; exact chained), here]
      refine trigger_congr ?_ _
      rw [set_congr channels, set_set]
    next left => exact ⟨(engine.channels index).moved, rfl, rfl, fixed, still, .inl ⟨busy, channels⟩⟩

/-- One unit of a channel that writes the read address of another one. -/
theorem step_writer {bus : Bus Ω σ} {engine next : Engine Ω σ} {index target : Nat}
    (there : bus.registers (engine.channels index).writeAddr.object = some target)
    (register : (engine.channels index).writeAddr.offset = 0)
    (keeps : (engine.channels index).ctrl.incrWrite = false) (apart : index ≠ target)
    (chained : (engine.channels index).ctrl.chainTo ≠ index) (stepped : engine.step bus index = some next) :
    ∃ channel readAddr, channel.program = (engine.channels index).program ∧
      ((engine.channels index).ctrl.incrRead = false → channel.readAddr = (engine.channels index).readAddr) ∧
      ((engine.channels index).remaining ≠ 0 →
        bus.load engine.memory (engine.channels index).readAddr = some (.address readAddr) ∧
          next.memory = bus.sniff engine.memory index (engine.channels index).ctrl (.address readAddr)) ∧
      (channel.busy = true ∧ (engine.channels index).remaining ≠ 1 ∧
          next.channels = ((engine.set index channel).set target
            { engine.channels target with readAddr }).channels ∨
        channel.busy = false ∧ next.channels = (((engine.set index channel).set target
          { engine.channels target with readAddr }).trigger (engine.channels index).ctrl.chainTo).channels) := by
  obtain ⟨busy, done | ⟨more, word, delivered, loaded, arrived, rfl⟩⟩ := step_cases stepped
  · obtain ⟨nothing, rfl⟩ := done
    refine ⟨{ engine.channels index with busy := false }, (engine.channels target).readAddr, rfl, fun _ => rfl,
      fun more => absurd nothing more, .inr ⟨rfl, ?_⟩⟩
    rw [finish_chain engine chained]
    refine trigger_congr ?_ _
    funext other
    by_cases here : other = target
    · rw [here, set_channels_self, set_channels_other _ _ apart.symm]
    · rw [set_channels_other _ _ here]
  · have program : (engine.channels index).moved.program = (engine.channels index).program := by
      simp [Channel.program, Channel.moved, advance, keeps]
    have still : (engine.channels index).ctrl.incrRead = false →
        (engine.channels index).moved.readAddr = (engine.channels index).readAddr := by
      intro stays
      simp [Channel.moved, advance, stays]
    simp only [deliver, there, register] at arrived
    cases word with
    | address readAddr =>
      simp only [Nat.zero_div, writeRegister, Option.some.injEq, set_channels_other engine _ apart.symm] at arrived
      have channels : delivered.channels = ((engine.set index (engine.channels index).moved).set target
          { engine.channels target with readAddr }).channels := by
        rw [← arrived]
        rfl
      have memory : delivered.memory = bus.sniff engine.memory index (engine.channels index).ctrl (.address readAddr) := by
        rw [← arrived]
        rfl
      split
      next last =>
        refine ⟨{ (engine.channels index).moved with busy := false }, readAddr, program, still,
          fun _ => ⟨loaded, by rw [finish_memory, memory]⟩, .inr ⟨rfl, ?_⟩⟩
        have here : delivered.channels index = (engine.channels index).moved := by
          rw [channels, set_channels_other _ _ apart, set_channels_self]
        rw [finish_chain delivered (by rw [here]; exact chained), here]
        refine trigger_congr ?_ _
        rw [set_congr channels, set_comm _ _ _ apart.symm, set_set]
      next left =>
        exact ⟨(engine.channels index).moved, readAddr, program, still, fun _ => ⟨loaded, memory⟩,
          .inl ⟨busy, left, channels⟩⟩
    | count value => cases arrived
    | ctrl value => cases arrived
    | bits value => cases arrived

end Engine

/-- What the units of a channel do to memory together, as long as none of them is
written to a register. -/
def transfer (bus : Bus Ω σ) (index : Nat) (ctrl : Ctrl) : Nat → Address Ω → Address Ω → σ → Option σ
  | 0, _, _, memory => some memory
  | count + 1, readAddr, writeAddr, memory =>
    (bus.load memory readAddr).bind fun word =>
      (bus.store (bus.sniff memory index ctrl word) writeAddr word).bind
        (transfer bus index ctrl count (advance ctrl ctrl.incrRead (!ctrl.ringSel) readAddr)
          (advance ctrl ctrl.incrWrite ctrl.ringSel writeAddr))

/-- The memory when a channel will be through. -/
def Channel.through (channel : Channel Ω) (bus : Bus Ω σ) (index : Nat) (memory : σ) : Option σ :=
  transfer bus index channel.ctrl channel.remaining channel.readAddr channel.writeAddr memory

/-- A channel that is through takes one more step to stop. -/
def Channel.unitsLeft (channel : Channel Ω) : Nat := max 1 channel.remaining

namespace Engine

variable {bus : Bus Ω σ} {engine next : Engine Ω σ} {index : Nat}

theorem through_cons {channel : Channel Ω} {memory : σ} (more : channel.remaining ≠ 0) :
    channel.through bus index memory = (bus.load memory channel.readAddr).bind fun word =>
      (bus.store (bus.sniff memory index channel.ctrl word) channel.writeAddr word).bind
        (channel.moved.through bus index) := by
  unfold Channel.through
  obtain ⟨left, counted⟩ := Nat.exists_eq_succ_of_ne_zero more
  rw [counted, transfer]
  simp only [Channel.moved, counted, Nat.succ_sub_one]

theorem deliver_outside {memory : σ} {address : Address Ω} {word : Word Ω}
    (outside : bus.registers address.object = none) :
    deliver bus { engine with memory } address word =
      (bus.store memory address word).map fun memory => { engine with memory } := by
  rw [deliver, outside]

/-- One unit of a channel that writes outside the registers, for what it is
worth: it is the first one of those that are left, or the last. -/
theorem step_through (outside : bus.registers (engine.channels index).writeAddr.object = none)
    (chained : (engine.channels index).ctrl.chainTo ≠ index) (stepped : engine.step bus index = some next) :
    ((next.channels index).busy = true ∧
        (next.channels index).through bus index next.memory =
          (engine.channels index).through bus index engine.memory ∧
        (engine.channels index).unitsLeft = (next.channels index).unitsLeft + 1) ∨
      (next.channels index).busy = false ∧
        (engine.channels index).through bus index engine.memory = some next.memory ∧
        (engine.channels index).unitsLeft = 1 := by
  have stopped (engine : Engine Ω σ) (chained : (engine.channels index).ctrl.chainTo ≠ index) :
      ((engine.finish index).channels index).busy = false := by
    rw [finish_chain engine chained, trigger, set_channels_other _ _ chained.symm, set_channels_self]
  obtain ⟨busy, ⟨done, rfl⟩ | ⟨more, word, delivered, loaded, arrived, rfl⟩⟩ := step_cases stepped
  · refine .inr ⟨stopped engine chained, ?_, ?_⟩
    · rw [Channel.through, done, finish_memory]
      rfl
    · rw [Channel.unitsLeft, done]
      rfl
  · rw [deliver_outside outside] at arrived
    obtain ⟨memory, stored, rfl⟩ := Option.map_eq_some_iff.mp arrived
    have moved : (engine.channels index).through bus index engine.memory =
        (engine.channels index).moved.through bus index memory := by
      rw [through_cons more, loaded, Option.bind_some, stored, Option.bind_some]
    have left : (engine.channels index).moved.remaining = (engine.channels index).remaining - 1 := rfl
    split
    next last =>
      rw [last] at left
      refine .inr ⟨stopped _ ?_, ?_, ?_⟩
      · rw [set_channels_self]
        exact chained
      · rw [moved, Channel.through, left, finish_memory]
        rfl
      · rw [Channel.unitsLeft, last]
        rfl
    next others =>
      refine .inl ⟨?_, ?_, ?_⟩
      · rw [set_channels_self]
        exact busy
      · rw [set_channels_self, moved]
      · rw [set_channels_self, Channel.unitsLeft, Channel.unitsLeft, left]
        omega

/-- A unit of a worker, with what is left of its transfer. -/
theorem step_unit (outside : bus.registers (engine.channels index).writeAddr.object = none)
    (chained : (engine.channels index).ctrl.chainTo ≠ index) (stepped : engine.step bus index = some next) :
    ∃ channel, channel.ctrl = (engine.channels index).ctrl ∧
      channel.writeAddr.object = (engine.channels index).writeAddr.object ∧
      (channel.busy = true ∧ next.channels = (engine.set index channel).channels ∧
          channel.through bus index next.memory = (engine.channels index).through bus index engine.memory ∧
          (engine.channels index).unitsLeft = channel.unitsLeft + 1 ∨
        channel.busy = false ∧
          next.channels = ((engine.set index channel).trigger (engine.channels index).ctrl.chainTo).channels ∧
          (engine.channels index).through bus index engine.memory = some next.memory ∧
          (engine.channels index).unitsLeft = 1) := by
  obtain ⟨channel, ctrl, _, object, _, ⟨busy, channels⟩ | ⟨idle, channels⟩⟩ := step_worker outside chained stepped
  · have here : next.channels index = channel := by rw [channels, set_channels_self]
    rcases step_through outside chained stepped with ⟨_, through, units⟩ | ⟨stopped, _, _⟩
    · rw [here] at through units
      exact ⟨channel, ctrl, object, .inl ⟨busy, channels, through, units⟩⟩
    · rw [here, busy] at stopped
      cases stopped
  · have here : (next.channels index).busy = false := by
      rw [channels, trigger, set_channels_other _ _ chained.symm, set_channels_self, idle]
    rcases step_through outside chained stepped with ⟨moving, _, _⟩ | ⟨_, through, units⟩
    · rw [here] at moving
      cases moving
    · exact ⟨channel, ctrl, object, .inr ⟨idle, channels, through, units⟩⟩

/-- A channel moves on as long as its transfer can come to an end. -/
theorem step_moves (busy : (engine.channels index).busy = true)
    (outside : bus.registers (engine.channels index).writeAddr.object = none) {final : σ}
    (through : (engine.channels index).through bus index engine.memory = some final) :
    ∃ next, engine.step bus index = some next := by
  simp only [step, busy, ite_true]
  by_cases done : (engine.channels index).remaining = 0
  · rw [if_pos done]
    exact ⟨_, rfl⟩
  · rw [if_neg done]
    rw [through_cons done, Option.bind_eq_some_iff] at through
    obtain ⟨word, loaded, later⟩ := through
    obtain ⟨memory, stored, _⟩ := Option.bind_eq_some_iff.mp later
    have arrives : deliver bus { engine.set index (engine.channels index).moved with
        memory := bus.sniff engine.memory index (engine.channels index).ctrl word }
        (engine.channels index).writeAddr word = some { engine.set index (engine.channels index).moved with memory } := by
      rw [deliver_outside outside, stored]
      rfl
    simp only [loaded, arrives]
    exact ⟨_, rfl⟩

end Engine

/-- The channel that is busy, if any. -/
def OnlyBusy (channels : Nat → Channel Ω) (active : Option Nat) : Prop :=
  ∀ index, (channels index).busy = true ↔ active = some index

namespace OnlyBusy

variable {engine : Engine Ω σ} {active : Option Nat} {index other : Nat} {channel : Channel Ω}

theorem busy (only : OnlyBusy engine.channels (some index)) : (engine.channels index).busy = true :=
  (only index).mpr rfl

theorem idle (only : OnlyBusy engine.channels active) (different : active ≠ some index) :
    (engine.channels index).busy = false :=
  Bool.eq_false_iff.mpr fun moving => different ((only index).mp moving)

/-- With no channel active every one rests. -/
theorem rests (only : OnlyBusy engine.channels none) : (engine.channels index).busy = false :=
  only.idle (Option.some_ne_none index).symm

theorem set (only : OnlyBusy engine.channels active) (same : channel.busy = (engine.channels index).busy) :
    OnlyBusy (engine.set index channel).channels active := by
  intro other
  by_cases here : other = index
  · rw [here, Engine.set_channels_self, same, only index]
  · rw [Engine.set_channels_other engine channel here, only other]

theorem stop (only : OnlyBusy engine.channels (some index)) (stopped : channel.busy = false) :
    OnlyBusy (engine.set index channel).channels none := by
  intro other
  by_cases here : other = index
  · simp [here, stopped]
  · rw [Engine.set_channels_other engine channel here, only other]
    simp [Ne.symm here]

theorem start (only : OnlyBusy engine.channels none) (started : channel.busy = true) :
    OnlyBusy (engine.set index channel).channels (some index) := by
  intro other
  by_cases here : other = index
  · simp [here, started]
  · rw [Engine.set_channels_other engine channel here, only other]
    simp [Ne.symm here]

theorem trigger (only : OnlyBusy engine.channels none) (enabled : (engine.channels index).ctrl.en = true) :
    OnlyBusy (engine.trigger index).channels (some index) :=
  only.start (by rw [Channel.triggered_enabled enabled only.rests])

/-- The only channel that can take a step. -/
theorem step {bus : Bus Ω σ} {next : Engine Ω σ} (only : OnlyBusy engine.channels active)
    (stepped : engine.step bus index = some next) : active = some index :=
  (only index).mp (Engine.step_cases stepped).1

end OnlyBusy

/-- A control channel copies one block into the registers of another channel, word
by word, and triggers it with the last word. Its write address wraps, so the
next trigger copies the next block. -/
structure Ctrl.Fetches (ctrl : Ctrl) (index : Nat) : Prop where
  en : ctrl.en = true
  dataSize : ctrl.dataSize = 2
  incrRead : ctrl.incrRead = true
  incrWrite : ctrl.incrWrite = true
  ringSize : ctrl.ringSize = 4
  ringSel : ctrl.ringSel = true
  chainTo : ctrl.chainTo = index

/-- Block `index` of an array is copied and `words` of its words are in place. -/
structure Fetching (channels : Nat → Channel Ω) (control worker : Nat) (source : Ω) (block : Block Ω)
    (index words : Nat) : Prop where
  inside : words < 4
  different : control ≠ worker
  fetches : (channels control).ctrl.Fetches control
  readAddr : (channels control).readAddr = ⟨source, 16 * index + 4 * words⟩
  writeOffset : (channels control).writeAddr.offset = 4 * words
  remaining : (channels control).remaining = 4 - words
  blockReadAddr : 0 < words → (channels worker).readAddr = block.readAddr
  blockWriteAddr : 1 < words → (channels worker).writeAddr = block.writeAddr
  blockTransCount : 2 < words → (channels worker).transCount = block.transCount

/-- A channel that has been given a block. -/
structure Channel.Given (channel : Channel Ω) (block : Block Ω) : Prop where
  readAddr : channel.readAddr = block.readAddr
  program : channel.program = ⟨block.writeAddr, block.transCount, block.ctrl⟩
  started : block.ctrl.en = true → channel.remaining = block.transCount

/-- What is left to do for the block. -/
theorem Channel.Given.through {channel : Channel Ω} {block : Block Ω} (given : channel.Given block)
    (enabled : block.ctrl.en = true) (bus : Bus Ω σ) (index : Nat) (memory : σ) :
    channel.through bus index memory =
      transfer bus index block.ctrl block.transCount block.readAddr block.writeAddr memory := by
  obtain ⟨writeAddr, _, ctrl⟩ := Program.mk.inj given.program
  rw [Channel.through, given.started enabled, given.readAddr, writeAddr, ctrl]

/-- Of the channels only a control channel and its worker changed, and the
control channel is at some word of the worker's registers. -/
structure Copies (engine next : Engine Ω σ) (control worker words : Nat) : Prop where
  others : ∀ other, other ≠ control → other ≠ worker → next.channels other = engine.channels other
  program : (next.channels control).program =
    { (engine.channels control).program with writeAddr.offset := 4 * words }

theorem Copies.of_set {engine next : Engine Ω σ} {control worker words : Nat} {channel filled : Channel Ω}
    (different : control ≠ worker) (channels : next.channels = ((engine.set control channel).set worker filled).channels)
    (program : channel.program = { (engine.channels control).program with writeAddr.offset := 4 * words }) :
    Copies engine next control worker words := by
  constructor
  · intro other first second
    rw [channels, Engine.set_channels_other _ _ second, Engine.set_channels_other _ _ first]
  · rw [channels, Engine.set_channels_other _ _ different, Engine.set_channels_self, program]

namespace Fetching

variable {engine next : Engine Ω σ} {control worker : Nat} {source : Ω} {block : Block Ω} {index words : Nat}

theorem start (fetches : (engine.channels control).ctrl.Fetches control) (different : control ≠ worker)
    (idle : (engine.channels control).busy = false)
    (readAddr : (engine.channels control).readAddr = ⟨source, 16 * index⟩)
    (writeOffset : (engine.channels control).writeAddr.offset = 0)
    (transCount : (engine.channels control).transCount = 4) :
    Fetching (engine.trigger control).channels control worker source block index 0 := by
  have running : (engine.trigger control).channels control =
      { engine.channels control with busy := true, remaining := (engine.channels control).transCount } := by
    rw [Engine.trigger, Engine.set_channels_self, Channel.triggered_enabled fetches.en idle]
  constructor
  case inside => decide
  case different => exact different
  case fetches => rw [running]; exact fetches
  case readAddr => rw [running]; exact readAddr
  case writeOffset => rw [running]; exact writeOffset
  case remaining => rw [running]; exact transCount
  all_goals omega

/-- The control channel after one word. -/
def copied (source : Ω) (index words : Nat) (channel : Channel Ω) : Channel Ω :=
  { channel with
    readAddr := ⟨source, 16 * index + 4 * (words + 1)⟩
    writeAddr := ⟨channel.writeAddr.object, 4 * (words + 1) % 16⟩
    busy := decide (words ≠ 3)
    remaining := 3 - words }

theorem moved (fetching : Fetching engine.channels control worker source block index words) :
    { (engine.channels control).moved with busy := decide (words ≠ 3) } =
      copied source index words (engine.channels control) := by
  have below := fetching.inside
  have wrap : 4 * words - 4 * words % 16 + (4 * words + 4) % 16 = 4 * (words + 1) % 16 := by omega
  have next : 16 * index + 4 * words + 4 = 16 * index + 4 * (words + 1) := by omega
  have left : 4 - words - 1 = 3 - words := by omega
  simp [Channel.moved, copied, advance, fetching.fetches.incrRead, fetching.fetches.incrWrite,
    fetching.fetches.ringSize, fetching.fetches.ringSel, fetching.fetches.dataSize, fetching.readAddr,
    fetching.writeOffset, fetching.remaining, wrap, next, left]

/-- The worker's registers while the block is copied. -/
def fill (block : Block Ω) (channel : Channel Ω) : Nat → Channel Ω
  | 0 => { channel with readAddr := block.readAddr }
  | 1 => { channel with writeAddr := block.writeAddr }
  | 2 => { channel with transCount := block.transCount }
  | _ => Channel.triggered { channel with ctrl := block.ctrl }

theorem writeRegister_fill (engine : Engine Ω σ) (below : words < 4) :
    engine.writeRegister worker words (block.word words) =
      some (engine.set worker (fill block (engine.channels worker) words)) := by
  match words, below with
  | 0, _ => rfl
  | 1, _ => rfl
  | 2, _ => rfl
  | 3, _ =>
    simp only [Engine.writeRegister, Block.word, Engine.trigger, Engine.set_channels_self, Engine.set_set, fill]

/-- One word is copied. The last one triggers the worker, and the control
channel is left at the next block. -/
theorem step {bus : Bus Ω σ} (fetching : Fetching engine.channels control worker source block index words)
    (target : bus.registers (engine.channels control).writeAddr.object = some worker)
    (found : bus.load engine.memory ⟨source, 16 * index + 4 * words⟩ = some (block.word words))
    (stepped : engine.step bus control = some next) :
    next.memory = bus.sniff engine.memory control (engine.channels control).ctrl (block.word words) ∧
      next.channels = ((engine.set control (copied source index words (engine.channels control))).set worker
        (fill block (engine.channels worker) words)).channels := by
  have apart := fetching.different
  obtain ⟨busy, done | ⟨_, word, delivered, loaded, arrived, rfl⟩⟩ := Engine.step_cases stepped
  · have := fetching.inside
    have := fetching.remaining
    omega
  rw [fetching.readAddr, found] at loaded
  cases loaded
  have place : 4 * words / 4 = words := by omega
  have other : (engine.set control (engine.channels control).moved).channels worker = engine.channels worker :=
    Engine.set_channels_other engine _ apart.symm
  simp only [Engine.deliver, target, fetching.writeOffset, place,
    writeRegister_fill _ fetching.inside, other, Option.some.injEq] at arrived
  have left := fetching.remaining
  have below := fetching.inside
  subst arrived
  refine ⟨by split <;> simp, ?_⟩
  rw [← fetching.moved]
  split
  next last =>
    have full : decide (words ≠ 3) = false := decide_eq_false (by omega)
    rw [Engine.finish_self]
    · rw [full, Engine.set_channels_other _ _ apart]
      simp only [Engine.set_channels_self]
      rw [Engine.set_comm _ _ _ apart.symm]
      refine Engine.set_congr ?_ _ _
      have again := Engine.set_set engine control (engine.channels control).moved
        { (engine.channels control).moved with busy := false }
      have alike := congrArg Engine.channels again
      exact alike
    · rw [Engine.set_channels_other _ _ apart]
      simp only [Engine.set_channels_self]
      exact fetching.fetches.chainTo
  next more =>
    have moving : decide (words ≠ 3) = true := decide_eq_true (by omega)
    have still : { (engine.channels control).moved with busy := true } = (engine.channels control).moved := by
      rw [← busy]
      rfl
    rw [moving, still]
    rfl

theorem step_inside {bus : Bus Ω σ} (fetching : Fetching engine.channels control worker source block index words)
    (only : OnlyBusy engine.channels (some control))
    (target : bus.registers (engine.channels control).writeAddr.object = some worker)
    (found : bus.load engine.memory ⟨source, 16 * index + 4 * words⟩ = some (block.word words))
    (more : words < 3) (stepped : engine.step bus control = some next) :
    ∃ moving filled, next.channels = ((engine.set control moving).set worker filled).channels ∧
      moving.program = { (engine.channels control).program with writeAddr.offset := 4 * (words + 1) } ∧
      OnlyBusy next.channels (some control) ∧
      Fetching next.channels control worker source block index (words + 1) := by
  have apart := fetching.different
  obtain ⟨_, channels⟩ := fetching.step target found stepped
  have wrap : 4 * (words + 1) % 16 = 4 * (words + 1) := by omega
  have busy : decide (words ≠ 3) = true := decide_eq_true (by omega)
  refine ⟨_, _, channels, by simp only [Channel.program, copied, wrap], ?_, ?_⟩
  · rw [channels]
    have moving : (copied source index words (engine.channels control)).busy = true := busy
    apply OnlyBusy.set (only.set (moving.trans only.busy.symm))
    rw [Engine.set_channels_other _ _ apart.symm]
    match words, more with
    | 0, _ | 1, _ | 2, _ => rfl
  · have filled : next.channels worker = fill block (engine.channels worker) words := by
      rw [channels, Engine.set_channels_self]
    have moving : next.channels control = copied source index words (engine.channels control) := by
      rw [channels, Engine.set_channels_other _ _ apart, Engine.set_channels_self]
    constructor
    case inside => omega
    case different => exact apart
    case fetches => rw [moving]; exact fetching.fetches
    case readAddr => rw [moving]; rfl
    case writeOffset => rw [moving]; exact wrap
    case remaining => rw [moving]; simp only [copied]; omega
    case blockReadAddr =>
      intro _
      rw [filled]
      match words, more with
      | 0, _ => rfl
      | 1, _ => exact fetching.blockReadAddr (by decide)
      | 2, _ => exact fetching.blockReadAddr (by decide)
    case blockWriteAddr =>
      intro above
      rw [filled]
      match words, more with
      | 1, _ => rfl
      | 2, _ => exact fetching.blockWriteAddr (by decide)
    case blockTransCount =>
      intro above
      rw [filled]
      match words, more with
      | 2, _ => rfl

/-- The last word of a block. The worker runs, unless the block is null. -/
theorem step_last {bus : Bus Ω σ} (fetching : Fetching engine.channels control worker source block index 3)
    (only : OnlyBusy engine.channels (some control))
    (target : bus.registers (engine.channels control).writeAddr.object = some worker)
    (found : bus.load engine.memory ⟨source, 16 * index + 12⟩ = some (block.word 3))
    (stepped : engine.step bus control = some next) :
    ∃ stopped filled, next.channels = ((engine.set control stopped).set worker filled).channels ∧
      stopped.program = { (engine.channels control).program with writeAddr.offset := 0 } ∧
      stopped.readAddr = ⟨source, 16 * (index + 1)⟩ ∧
      filled.readAddr = block.readAddr ∧ filled.program = ⟨block.writeAddr, block.transCount, block.ctrl⟩ ∧
      (block.ctrl.en = true → filled.remaining = block.transCount) ∧
      OnlyBusy next.channels (if block.ctrl.en then some worker else none) := by
  have apart := fetching.different
  obtain ⟨_, channels⟩ := fetching.step target found stepped
  have idle : (engine.channels worker).busy = false := only.idle (by simpa using apart)
  have filled : fill block (engine.channels worker) 3 =
      Channel.triggered { engine.channels worker with ctrl := block.ctrl } := rfl
  refine ⟨_, _, channels, rfl, rfl, ?_, ?_, ?_, ?_⟩
  · rw [filled, Channel.triggered_readAddr, fetching.blockReadAddr (by decide)]
  · rw [filled, Channel.triggered_program, Channel.program, fetching.blockWriteAddr (by decide),
      fetching.blockTransCount (by decide)]
  · intro enabled
    rw [filled, Channel.triggered, if_pos ⟨enabled, by simp [idle]⟩]
    exact fetching.blockTransCount (by decide)
  · have stopped : OnlyBusy (engine.set control (copied source index 3 (engine.channels control))).channels none :=
      only.stop rfl
    rw [channels, filled]
    by_cases enabled : block.ctrl.en
    · rw [if_pos enabled]
      apply stopped.start
      rw [Channel.triggered, if_pos ⟨enabled, by simp [idle]⟩]
    · rw [if_neg enabled]
      apply stopped.set
      rw [Engine.set_channels_other _ _ apart.symm, Channel.triggered, if_neg (fun both => enabled both.1)]

/-- A word is copied, or the last word and with it the block. -/
theorem step_cases {bus : Bus Ω σ} (fetching : Fetching engine.channels control worker source block index words)
    (only : OnlyBusy engine.channels (some control))
    (target : bus.registers (engine.channels control).writeAddr.object = some worker)
    (found : bus.load engine.memory ⟨source, 16 * index + 4 * words⟩ = some (block.word words))
    (stepped : engine.step bus control = some next) :
    (words < 3 ∧ Copies engine next control worker (words + 1) ∧ OnlyBusy next.channels (some control) ∧
        Fetching next.channels control worker source block index (words + 1)) ∨
      words = 3 ∧ Copies engine next control worker 0 ∧
        OnlyBusy next.channels (if block.ctrl.en then some worker else none) ∧
        (next.channels control).readAddr = ⟨source, 16 * (index + 1)⟩ ∧ (next.channels worker).Given block := by
  rcases Nat.lt_or_ge words 3 with more | full
  · obtain ⟨moving, filled, channels, program, busy, further⟩ := fetching.step_inside only target found more stepped
    exact .inl ⟨more, .of_set fetching.different channels program, busy, further⟩
  · obtain rfl : words = 3 := Nat.le_antisymm (Nat.le_of_lt_succ fetching.inside) full
    obtain ⟨stopped, filled, channels, program, later, readAddr, work, started, busy⟩ :=
      fetching.step_last only target found stepped
    refine .inr ⟨rfl, .of_set fetching.different channels program, busy, ?_, ?_⟩
    · rw [channels, Engine.set_channels_other _ _ fetching.different, Engine.set_channels_self, later]
    · rw [channels, Engine.set_channels_self]
      exact ⟨readAddr, work, started⟩

/-- Nothing keeps a control channel from copying its block. -/
theorem step_copies {bus : Bus Ω σ} (fetching : Fetching engine.channels control worker source block index words)
    (only : OnlyBusy engine.channels (some control))
    (target : bus.registers (engine.channels control).writeAddr.object = some worker)
    (found : bus.load engine.memory ⟨source, 16 * index + 4 * words⟩ = some (block.word words)) :
    ∃ next, engine.step bus control = some next := by
  have left : (engine.channels control).remaining ≠ 0 := by
    have inside := fetching.inside
    have remaining := fetching.remaining
    omega
  have place : 4 * words / 4 = words := by omega
  simp only [Engine.step, only.busy, ite_true, left, ite_false, fetching.readAddr, found, Engine.deliver, target,
    fetching.writeOffset, place, writeRegister_fill _ fetching.inside]
  exact ⟨_, rfl⟩

end Fetching

/-- A channel that only moved, started or stopped. -/
structure Channel.Alike (before after : Channel Ω) : Prop where
  ctrl : after.ctrl = before.ctrl
  reads : after.readAddr.object = before.readAddr.object
  writes : after.writeAddr.object = before.writeAddr.object
  /-- A read address only goes back in a ring. -/
  onwards : before.ctrl.ringSel = true → before.readAddr.offset ≤ after.readAddr.offset

theorem Channel.Alike.refl (channel : Channel Ω) : channel.Alike channel := ⟨rfl, rfl, rfl, fun _ => Nat.le_refl _⟩

theorem Channel.Alike.triggered {before after : Channel Ω} (alike : before.Alike after) :
    before.Alike after.triggered :=
  ⟨(triggered_ctrl _).trans alike.ctrl, by rw [triggered_readAddr, alike.reads],
    by rw [triggered_writeAddr, alike.writes], by rw [triggered_readAddr]; exact alike.onwards⟩

theorem advance_object (ctrl : Ctrl) (incr ring : Bool) (address : Address Ω) :
    (advance ctrl incr ring address).object = address.object := by
  unfold advance
  repeat' split
  all_goals rfl

theorem advance_onwards (ctrl : Ctrl) (incr : Bool) (address : Address Ω) :
    address.offset ≤ (advance ctrl incr false address).offset := by
  unfold advance
  split
  · exact Nat.le_add_right _ _
  · exact Nat.le_refl _

theorem Channel.alike_moved (channel : Channel Ω) : channel.Alike channel.moved where
  ctrl := rfl
  reads := advance_object _ _ _ _
  writes := advance_object _ _ _ _
  onwards ring := by
    have straight : channel.moved.readAddr = advance channel.ctrl channel.ctrl.incrRead false channel.readAddr := by
      rw [moved, ring]
      rfl
    rw [straight]
    exact advance_onwards _ _ _

/-- A word is written to a register of a channel. -/
inductive Channel.Rewritten (channel : Channel Ω) : Word Ω → Channel Ω → Prop
  | readAddr (value : Address Ω) : channel.Rewritten (.address value) { channel with readAddr := value }
  | writeAddr (value : Address Ω) : channel.Rewritten (.address value) { channel with writeAddr := value }
  | transCount (value : Nat) : channel.Rewritten (.count value) { channel with transCount := value }
  | ctrl (value : Ctrl) : channel.Rewritten (.ctrl value) (Channel.triggered { channel with ctrl := value })

namespace Engine

variable {bus : Bus Ω σ} {engine next : Engine Ω σ} {index other target : Nat}

theorem writeRegister_cases {register : Nat} {word : Word Ω}
    (written : engine.writeRegister target register word = some next) :
    ∃ filled, (engine.channels target).Rewritten word filled ∧ next = engine.set target filled := by
  unfold writeRegister at written
  dsimp only at written
  split at written
  · cases written
    exact ⟨_, .readAddr _, rfl⟩
  · cases written
    exact ⟨_, .writeAddr _, rfl⟩
  · cases written
    exact ⟨_, .transCount _, rfl⟩
  · cases written
    refine ⟨_, .ctrl _, ?_⟩
    rw [trigger, set_channels_self, set_set]
  · cases written

theorem finish_cases (engine : Engine Ω σ) (index other : Nat) :
    (engine.finish index).channels other = (engine.set index { engine.channels index with busy := false }).channels other ∨
      (engine.channels index).ctrl.chainTo = other ∧ other ≠ index ∧
        (engine.finish index).channels other = (engine.channels other).triggered := by
  unfold finish
  dsimp only
  split
  · exact .inl rfl
  next apart =>
    by_cases chained : (engine.channels index).ctrl.chainTo = other
    · rw [chained] at apart ⊢
      refine .inr ⟨rfl, apart, ?_⟩
      rw [trigger, set_channels_self, set_channels_other _ _ apart]
    · left
      rw [trigger, set_channels_other _ _ (Ne.symm chained)]

/-- What one unit of a channel makes of a channel, before the last unit triggers
the next one. -/
inductive Touched (bus : Bus Ω σ) (engine : Engine Ω σ) (index other : Nat) : Channel Ω → Prop
  | self {reached : Channel Ω} (here : other = index) (alike : (engine.channels index).Alike reached) :
    Touched bus engine index other reached
  | same (apart : other ≠ index) : Touched bus engine index other (engine.channels other)
  | written {word : Word Ω} {reached : Channel Ω} (apart : other ≠ index)
    (there : bus.registers (engine.channels index).writeAddr.object = some other)
    (loaded : bus.load engine.memory (engine.channels index).readAddr = some word)
    (rewritten : (engine.channels other).Rewritten word reached) : Touched bus engine index other reached

theorem Touched.alike {reached : Channel Ω} (touched : Touched bus engine index index reached) :
    (engine.channels index).Alike reached := by
  cases touched with
  | self _ alike => exact alike
  | same different => exact False.elim (different rfl)
  | written different => exact False.elim (different rfl)

theorem deliver_touches {word : Word Ω} {memory : σ} {delivered : Engine Ω σ}
    (apart : bus.registers (engine.channels index).writeAddr.object ≠ some index)
    (loaded : bus.load engine.memory (engine.channels index).readAddr = some word)
    (arrived : deliver bus { engine.set index (engine.channels index).moved with memory }
      (engine.channels index).writeAddr word = some delivered) (other : Nat) :
    Touched bus engine index other (delivered.channels other) := by
  have unwritten (other : Nat) : Touched bus engine index other
      ((engine.set index (engine.channels index).moved).channels other) := by
    by_cases here : other = index
    · rw [here, set_channels_self]
      exact .self rfl (Channel.alike_moved _)
    · rw [set_channels_other _ _ here]
      exact .same here
  unfold deliver at arrived
  split at arrived
  next target there =>
    have different : target ≠ index := by
      rintro rfl
      exact apart there
    obtain ⟨filled, rewritten, rfl⟩ := writeRegister_cases arrived
    have before : ({ engine.set index (engine.channels index).moved with memory } : Engine Ω σ).channels target =
        engine.channels target := set_channels_other _ _ different
    rw [before] at rewritten
    by_cases here : other = target
    · rw [here, set_channels_self]
      exact .written different there loaded rewritten
    · rw [set_channels_other _ _ here]
      exact unwritten other
  next outside =>
    rw [deliver_memory outside (by unfold deliver; rw [outside]; exact arrived)]
    exact unwritten other

/-- Every channel after one unit of a channel that does not write to itself. -/
theorem step_touches (apart : bus.registers (engine.channels index).writeAddr.object ≠ some index)
    (stepped : engine.step bus index = some next) (other : Nat) : ∃ reached, Touched bus engine index other reached ∧
      (next.channels other = reached ∨
        (engine.channels index).ctrl.chainTo = other ∧ other ≠ index ∧ next.channels other = reached.triggered) := by
  obtain ⟨_, ⟨_, rfl⟩ | ⟨_, word, delivered, loaded, arrived, rfl⟩⟩ := step_cases stepped
  · rcases finish_cases engine index other with stopped | ⟨chained, different, triggered⟩
    · refine ⟨_, ?_, .inl stopped⟩
      by_cases here : other = index
      · rw [here, set_channels_self]
        exact .self rfl ⟨rfl, rfl, rfl, fun _ => Nat.le_refl _⟩
      · rw [set_channels_other _ _ here]
        exact .same here
    · exact ⟨_, .same different, .inr ⟨chained, different, triggered⟩⟩
  · have touched := deliver_touches apart loaded arrived
    split
    · have alike := (touched index).alike
      rcases finish_cases delivered index other with stopped | ⟨chained, different, triggered⟩
      · by_cases here : other = index
        · subst here
          rw [set_channels_self] at stopped
          exact ⟨{ delivered.channels other with busy := false },
            .self rfl ⟨alike.ctrl, alike.reads, alike.writes, alike.onwards⟩, .inl stopped⟩
        · rw [set_channels_other _ _ here] at stopped
          exact ⟨_, touched other, .inl stopped⟩
      · rw [alike.ctrl] at chained
        exact ⟨_, touched other, .inr ⟨chained, different, triggered⟩⟩
    · exact ⟨_, touched other, .inl rfl⟩

theorem step_alike (apart : bus.registers (engine.channels index).writeAddr.object ≠ some index)
    (unwritten : bus.registers (engine.channels index).writeAddr.object ≠ some other)
    (stepped : engine.step bus index = some next) : (engine.channels other).Alike (next.channels other) := by
  obtain ⟨reached, touched, same | ⟨_, _, same⟩⟩ := step_touches apart stepped other
  all_goals
    have alike : (engine.channels other).Alike reached := by
      cases touched with
      | self here alike => exact here ▸ alike
      | same => exact .refl _
      | written _ there => exact False.elim (unwritten there)
    rw [same]
  · exact alike
  · exact alike.triggered

/-- Nothing happens to a channel that is not busy, not written to and not
chained to. -/
theorem step_still (apart : bus.registers (engine.channels index).writeAddr.object ≠ some index)
    (unwritten : bus.registers (engine.channels index).writeAddr.object ≠ some other)
    (unchained : (engine.channels index).ctrl.chainTo ≠ other) (different : other ≠ index)
    (stepped : engine.step bus index = some next) : next.channels other = engine.channels other := by
  obtain ⟨reached, touched, same | ⟨chained, _, _⟩⟩ := step_touches apart stepped other
  · cases touched with
    | self here => exact False.elim (different here)
    | same => exact same
    | written _ there => exact False.elim (unwritten there)
  · exact False.elim (unchained chained)

/-- A channel that is busy after a unit was so before, or was started by it. -/
theorem step_starts (apart : bus.registers (engine.channels index).writeAddr.object ≠ some index)
    (stepped : engine.step bus index = some next) (busy : (next.channels other).busy = true) :
    (engine.channels other).busy = true ∨ (engine.channels index).ctrl.chainTo = other ∨
      bus.registers (engine.channels index).writeAddr.object = some other := by
  obtain ⟨reached, touched, same | ⟨chained, _, _⟩⟩ := step_touches apart stepped other
  · cases touched with
    | self here =>
      subst here
      exact .inl (step_cases stepped).1
    | same =>
      rw [same] at busy
      exact .inl busy
    | written _ there => exact .inr (.inr there)
  · exact .inr (.inl chained)

/-- Something in memory that neither a store nor the sniffer changes. -/
theorem step_keeps {α : Type} (part : σ → α)
    (sniffed : ∀ memory channel ctrl word, part (bus.sniff memory channel ctrl word) = part memory)
    (stored : ∀ memory address word after, bus.store memory address word = some after → part after = part memory)
    (stepped : engine.step bus index = some next) : part next.memory = part engine.memory := by
  obtain ⟨_, ⟨_, rfl⟩ | ⟨_, word, delivered, _, arrived, rfl⟩⟩ := step_cases stepped
  · rw [finish_memory]
  · have kept : part delivered.memory = part engine.memory := by
      unfold deliver at arrived
      split at arrived
      · obtain ⟨filled, _, rfl⟩ := writeRegister_cases arrived
        exact sniffed _ _ _ _
      · obtain ⟨memory, done, rfl⟩ := Option.map_eq_some_iff.mp arrived
        exact (stored _ _ _ _ done).trans (sniffed _ _ _ _)
    split
    · rw [finish_memory, kept]
    · exact kept

end Engine

end Dma

end Embedded
