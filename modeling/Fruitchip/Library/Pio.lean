import Fruitchip.Library.Mealy

/-! One state machine of the PIO of an RP2040: its instructions with their
delays and side-set, the shift registers, the two FIFOs and the pins. -/

namespace Embedded.Pio

abbrev Word := BitVec 32

/-- The lowest `count` bits. -/
def lowBits (count : Nat) : Word := BitVec.allOnes 32 >>> (32 - count)

/-- `count` pins from `base` on. The pins wrap around after the last. -/
def readPins (gpio : Word) (base count : Nat) : Word := gpio.rotateRight base &&& lowBits count

def setPins (old : Word) (base count : Nat) (value : Word) : Word :=
  (old &&& ~~~((lowBits count).rotateLeft base)) ||| (value &&& lowBits count).rotateLeft base

/-- What the state machines drive, and the flags they raise. -/
structure Latch where
  pins : Word
  pindirs : Word
  irq : Word
  deriving DecidableEq, Repr

inductive Condition where
  | always
  | xZero
  | pin
  deriving DecidableEq, Repr

inductive Destination where
  | pins
  | x
  | pindirs
  | null
  deriving DecidableEq, Repr

inductive Op where
  | jmp (condition : Condition) (target : Nat)
  | wait (polarity : Bool) (gpio : Nat)
  | inPins (count : Nat)
  | out (destination : Destination) (count : Nat)
  /-- `pull block`, or `pull ifempty block`. -/
  | pull (ifEmpty : Bool)
  /-- `mov osr, null`, or `mov osr, !null`. -/
  | movOsrNull (invert : Bool)
  /-- `irq nowait`. -/
  | irq (flag : Nat)
  | nop
  deriving DecidableEq, Repr

structure Instruction where
  op : Op
  side : Option Bool
  delay : Nat
  deriving DecidableEq, Repr

/-- `sm_config`, with the program it was made for. Addresses count from the
start of the program. -/
structure SmConfig where
  program : List Instruction
  wrapTarget : Nat
  wrap : Nat
  inBase : Nat
  outBase : Nat
  outCount : Nat
  sideSetBase : Nat
  jmpPin : Nat
  inShiftRight : Bool
  autopush : Bool
  pushThreshold : Nat
  outShiftRight : Bool
  autopull : Bool
  pullThreshold : Nat
  rxDepth : Nat
  txDepth : Nat
  deriving DecidableEq, Repr

/-- Where the program goes after an instruction. -/
inductive Control where
  | stall
  | next
  | jump (target : Nat)
  deriving DecidableEq, Repr

/-- The registers and FIFOs of one state machine. -/
structure Core where
  pc : Nat
  /-- Cycles until the next instruction. -/
  delay : Nat
  x : Word
  isr : Word
  isrCount : Nat
  osr : Word
  osrCount : Nat
  rx : List Word
  tx : List Word
  deriving DecidableEq, Repr

structure State extends Core where
  latch : Latch
  deriving DecidableEq, Repr

namespace State

variable (config : SmConfig)

def drive (state : State) : Option Bool → State
  | none => state
  | some level =>
    { state with latch.pins := setPins state.latch.pins config.sideSetBase 1 (if level then 1 else 0) }

def shiftIn (state : State) (value : Word) (count : Nat) : State :=
  { state with
    isr :=
      if config.inShiftRight then (state.isr >>> count) ||| (value <<< (32 - count))
      else (state.isr <<< count) ||| value
    isrCount := min 32 (state.isrCount + count) }

/-- A full ISR goes to the receive FIFO, once there is room. -/
def push (state : State) : State × Control :=
  if config.autopush ∧ config.pushThreshold ≤ state.isrCount then
    if state.rx.length < config.rxDepth then
      ({ state with isr := 0, isrCount := 0, rx := state.rx ++ [state.isr] }, .next)
    else (state, .stall)
  else (state, .next)

/-- The next word of the transmit FIFO, once the OSR is used up. -/
def refill (state : State) : State :=
  if config.autopull ∧ config.pullThreshold ≤ state.osrCount then
    match state.tx with
    | [] => state
    | word :: tx => { state with osr := word, osrCount := 0, tx }
  else state

def shiftedOut (state : State) (count : Nat) : Word :=
  if config.outShiftRight then state.osr &&& lowBits count else state.osr >>> (32 - count)

def shiftOut (state : State) (count : Nat) : State :=
  { state with
    osr := if config.outShiftRight then state.osr >>> count else state.osr <<< count
    osrCount := min 32 (state.osrCount + count) }

def write (state : State) (value : Word) : Destination → State
  | .pins => { state with latch.pins := setPins state.latch.pins config.outBase config.outCount value }
  | .pindirs => { state with latch.pindirs := setPins state.latch.pindirs config.outBase config.outCount value }
  | .x => { state with x := value }
  | .null => state

end State

def Condition.holds (config : SmConfig) (gpio : Word) (state : State) : Condition → Bool
  | .always => true
  | .xZero => state.x = 0
  | .pin => gpio.getLsbD config.jmpPin

def execute (config : SmConfig) (gpio : Word) (state : State) : Op → State × Control
  | .jmp condition target => (state, if condition.holds config gpio state then .jump target else .next)
  | .wait polarity pin => (state, if gpio.getLsbD pin = polarity then .next else .stall)
  | .inPins count =>
    -- a stalled `in` has shifted already and only tries to push again
    let state :=
      if config.autopush ∧ config.pushThreshold ≤ state.isrCount then state
      else state.shiftIn config (readPins gpio config.inBase count) count
    state.push config
  | .out destination count =>
    if config.autopull ∧ config.pullThreshold ≤ state.osrCount then (state.refill config, .stall)
    else
      let value := state.shiftedOut config count
      (((state.shiftOut config count).write config value destination).refill config, .next)
  | .pull ifEmpty =>
    if ifEmpty ∧ state.osrCount < config.pullThreshold then (state, .next)
    else
      match state.tx with
      | [] => (state, .stall)
      | word :: tx => ({ state with osr := word, osrCount := 0, tx }, .next)
  | .movOsrNull invert => ({ state with osr := if invert then BitVec.allOnes 32 else 0, osrCount := 0 }, .next)
  | .irq flag => ({ state with latch.irq := state.latch.irq ||| ((1 : Word) <<< flag) }, .next)
  | .nop => (state, .next)

def Op.isOut : Op → Bool
  | .out _ _ => true
  | _ => false

/-- Execution goes on, and the delay of the instruction starts. -/
def advance (config : SmConfig) (instruction : Instruction) : State × Control → State
  | (state, .stall) => state
  | (state, .next) =>
    { state with pc := if state.pc = config.wrap then config.wrapTarget else state.pc + 1, delay := instruction.delay }
  | (state, .jump target) => { state with pc := target, delay := instruction.delay }

/-- One cycle, with the levels of the pins. -/
def step (config : SmConfig) (gpio : Word) (state : State) : State :=
  if state.delay = 0 then
    match config.program[state.pc]? with
    | none => state
    | some instruction =>
      let state := state.drive config instruction.side
      let state := if instruction.op.isOut then state else state.refill config
      advance config instruction (execute config gpio state instruction.op)
  else { state.refill config with delay := state.delay - 1 }

namespace Core

/-- After `pio_sm_init`. -/
def init : Core := ⟨0, 0, 0, 0, 0, 0, 32, [], []⟩

/-- `pio_sm_restart`. -/
def restart (core : Core) : Core := { core with delay := 0, isr := 0, isrCount := 0, osrCount := 32 }

/-- `pio_sm_exec` of a `jmp`. -/
def exec (core : Core) (target : Nat) : Core := { core with pc := target, delay := 0 }

/-- `pio_sm_get`, where there is something to get. -/
def get (core : Core) : Core × List Word := ({ core with rx := core.rx.tail }, core.rx.take 1)

/-- A store to the transmit FIFO, which drops it when it is full. -/
def put (config : SmConfig) (core : Core) (word : Word) : Core :=
  if core.tx.length < config.txDepth then { core with tx := core.tx ++ [word] } else core

end Core

/-- The pins in a cycle, and whether the processor takes a word after it. -/
structure Cycle where
  gpio : Word
  get : Bool
  deriving DecidableEq, Repr, Inhabited

/-- A state machine whose receive FIFO is read. -/
def served (config : SmConfig) : Mealy State Cycle Word where
  step state cycle :=
    let state := step config cycle.gpio state
    if cycle.get then
      let (core, words) := state.toCore.get
      ({ state with toCore := core }, words)
    else (state, [])

section Cycles

variable {config : SmConfig} {gpio : Word} {state : State} {instruction : Instruction}

theorem refill_manual (manual : config.autopull = false) (state : State) : state.refill config = state := by
  simp [State.refill, manual]

theorem step_delay (manual : config.autopull = false) (waits : state.delay ≠ 0) :
    step config gpio state = { state with delay := state.delay - 1 } := by
  simp only [step, if_neg waits, refill_manual manual]

theorem step_execute (manual : config.autopull = false) (ready : state.delay = 0)
    (fetched : config.program[state.pc]? = some instruction) :
    step config gpio state =
      advance config instruction (execute config gpio (state.drive config instruction.side) instruction.op) := by
  simp only [step, if_pos ready, fetched, refill_manual manual, ite_self]

theorem drive_toCore (state : State) (level : Option Bool) : (state.drive config level).toCore = state.toCore := by
  cases level <;> rfl

theorem refill_toCore (config : SmConfig) {state other : State} (same : state.toCore = other.toCore) :
    (state.refill config).toCore = (other.refill config).toCore := by
  obtain ⟨core, latch⟩ := state
  obtain ⟨core', latch'⟩ := other
  subst same
  simp only [State.refill]
  split
  · cases core.tx <;> rfl
  · rfl

theorem push_toCore (config : SmConfig) {state other : State} (same : state.toCore = other.toCore) :
    (state.push config).1.toCore = (other.push config).1.toCore ∧ (state.push config).2 = (other.push config).2 := by
  obtain ⟨core, latch⟩ := state
  obtain ⟨core', latch'⟩ := other
  subst same
  simp only [State.push]
  split
  · split <;> exact ⟨rfl, rfl⟩
  · exact ⟨rfl, rfl⟩

theorem write_toCore (config : SmConfig) (state : State) (value : Word) (destination : Destination) :
    (state.write config value destination).toCore =
      if destination = .x then { state.toCore with x := value } else state.toCore := by
  cases destination <;> rfl

theorem execute_toCore (config : SmConfig) (gpio : Word) {state other : State} (same : state.toCore = other.toCore)
    (op : Op) : (execute config gpio state op).1.toCore = (execute config gpio other op).1.toCore ∧
      (execute config gpio state op).2 = (execute config gpio other op).2 := by
  obtain ⟨core, latch⟩ := state
  obtain ⟨core', latch'⟩ := other
  subst same
  cases op with
  | jmp condition target => cases condition <;> exact ⟨rfl, rfl⟩
  | wait polarity pin => exact ⟨rfl, rfl⟩
  | inPins count =>
    apply push_toCore
    dsimp only
    split <;> rfl
  | out destination count =>
    simp only [execute]
    split
    · exact ⟨refill_toCore config rfl, rfl⟩
    · refine ⟨refill_toCore config ?_, rfl⟩
      rw [write_toCore, write_toCore]
      rfl
  | pull ifEmpty =>
    simp only [execute]
    split
    · exact ⟨rfl, rfl⟩
    · cases core.tx <;> exact ⟨rfl, rfl⟩
  | movOsrNull invert => exact ⟨rfl, rfl⟩
  | irq flag => exact ⟨rfl, rfl⟩
  | nop => exact ⟨rfl, rfl⟩

theorem advance_toCore (config : SmConfig) (instruction : Instruction) {state other : State × Control}
    (same : state.1.toCore = other.1.toCore) (control : state.2 = other.2) :
    (advance config instruction state).toCore = (advance config instruction other).toCore := by
  obtain ⟨⟨core, latch⟩, control⟩ := state
  obtain ⟨⟨core', latch'⟩, control'⟩ := other
  dsimp only at same control
  subst same control
  cases control <;> rfl

/-- The registers and FIFOs do not depend on what the pins are driven to. -/
theorem step_toCore (config : SmConfig) (gpio : Word) (core : Core) (latch latch' : Latch) :
    (step config gpio ⟨core, latch⟩).toCore = (step config gpio ⟨core, latch'⟩).toCore := by
  simp only [step]
  split
  · cases config.program[core.pc]? with
    | none => rfl
    | some instruction =>
      have driven : (State.drive config ⟨core, latch⟩ instruction.side).toCore =
          (State.drive config ⟨core, latch'⟩ instruction.side).toCore := by
        rw [drive_toCore, drive_toCore]
      dsimp only
      split
      · obtain ⟨same, control⟩ := execute_toCore config gpio driven instruction.op
        exact advance_toCore config instruction same control
      · obtain ⟨same, control⟩ := execute_toCore config gpio (refill_toCore config driven) instruction.op
        exact advance_toCore config instruction same control
  · rw [refill_toCore config (show (State.mk core latch).toCore = (State.mk core latch').toCore from rfl)]

/-- `in pins` on an empty ISR that is full after it: the word is pushed, or the
state machine stalls with it. -/
theorem execute_in {count : Nat} (auto : config.autopush = true) (left : config.inShiftRight = false)
    (full : config.pushThreshold = count) (positive : 0 < count) (small : count ≤ 32) (empty : state.isr = 0)
    (unshifted : state.isrCount = 0) :
    execute config gpio state (.inPins count) =
      if state.rx.length < config.rxDepth then
        ({ state with rx := state.rx ++ [readPins gpio config.inBase count] }, .next)
      else ({ state with isr := readPins gpio config.inBase count, isrCount := count }, .stall) := by
  have joined (word : Word) : (0 : Word) <<< count ||| word = word := by simp
  have unfilled : ¬ count ≤ 0 := by omega
  simp only [execute, State.push, State.shiftIn, auto, left, full, unshifted, true_and, Nat.zero_add, Bool.false_eq_true,
    if_false, if_neg unfilled, Nat.min_eq_right small, Nat.le_refl, if_true, empty, joined]

/-- The stalled `in` tries again. -/
theorem execute_held (auto : config.autopush = true) (full : config.pushThreshold ≤ state.isrCount) (count : Nat) :
    execute config gpio state (.inPins count) =
      if state.rx.length < config.rxDepth then
        ({ state with isr := 0, isrCount := 0, rx := state.rx ++ [state.isr] }, .next)
      else (state, .stall) := by
  simp only [execute, State.push, auto, true_and, if_pos full]

end Cycles

/-- There is nothing left to send, and a flag has been raised. -/
structure Spent (flag : Nat) (state : State) : Prop where
  tx : state.tx = []
  raised : state.latch.irq.getLsbD flag = true

namespace Spent

variable {flag : Nat} {state : State}

theorem refill (spent : Spent flag state) (config : SmConfig) : Spent flag (state.refill config) := by
  unfold State.refill
  split
  · rw [spent.tx]
    exact spent
  · exact spent

theorem drive (spent : Spent flag state) (config : SmConfig) (level : Option Bool) :
    Spent flag (state.drive config level) := by
  cases level <;> exact ⟨spent.tx, spent.raised⟩

theorem push (spent : Spent flag state) (config : SmConfig) : Spent flag (state.push config).1 := by
  unfold State.push
  split
  · split <;> exact ⟨spent.tx, spent.raised⟩
  · exact spent

theorem write (spent : Spent flag state) (config : SmConfig) (value : Word) (destination : Destination) :
    Spent flag (state.write config value destination) := by
  cases destination <;> exact ⟨spent.tx, spent.raised⟩

theorem execute (spent : Spent flag state) (config : SmConfig) (gpio : Word) (op : Op) :
    Spent flag (execute config gpio state op).1 := by
  cases op with
  | jmp condition target => exact spent
  | wait polarity pin => exact spent
  | inPins count =>
    apply push
    split
    · exact spent
    · exact ⟨spent.tx, spent.raised⟩
  | out destination count =>
    simp only [Pio.execute]
    split
    · exact spent.refill config
    · have shifted : Spent flag (state.shiftOut config count) := ⟨spent.tx, spent.raised⟩
      exact (shifted.write config _ destination).refill config
  | pull ifEmpty =>
    simp only [Pio.execute, spent.tx]
    split <;> exact spent
  | movOsrNull invert => exact ⟨spent.tx, spent.raised⟩
  | irq other =>
    refine ⟨spent.tx, ?_⟩
    show (state.latch.irq ||| _).getLsbD flag = true
    rw [BitVec.getLsbD_or, spent.raised, Bool.true_or]
  | nop => exact spent

theorem advance {next : State × Control} (spent : Spent flag next.1) (config : SmConfig) (instruction : Instruction) :
    Spent flag (advance config instruction next) := by
  obtain ⟨state, control⟩ := next
  cases control <;> exact ⟨spent.tx, spent.raised⟩

/-- It stays so, whatever the program does. -/
theorem step (spent : Spent flag state) (config : SmConfig) (gpio : Word) : Spent flag (step config gpio state) := by
  unfold Pio.step
  split
  · split
    · exact spent
    next instruction _ =>
      have driven := spent.drive config instruction.side
      dsimp only
      split
      · exact (driven.execute config gpio instruction.op).advance config instruction
      · exact ((driven.refill config).execute config gpio instruction.op).advance config instruction
  · have refilled := spent.refill config
    exact ⟨refilled.tx, refilled.raised⟩

end Spent

/-- The processor only takes from the front of the receive FIFO. -/
theorem served_step (config : SmConfig) (state : State) (cycle : Cycle) :
    ∃ rx taken, (served config).step state cycle = ({ step config cycle.gpio state with rx }, taken) ∧
      taken ++ rx = (step config cycle.gpio state).rx := by
  simp only [served, Core.get]
  split
  · refine ⟨_, _, rfl, ?_⟩
    rw [← List.drop_one]
    exact List.take_append_drop 1 _
  · exact ⟨_, _, rfl, rfl⟩

section Rules

variable {config : SmConfig} {before middle after : State → Prop} {first rest cycles : List Cycle}
  {pushed more : List Word}

/-- Where a state machine stands with an empty ISR. -/
structure At (pc delay : Nat) (state : State) : Prop where
  pc : state.pc = pc
  delay : state.delay = delay
  isr : state.isr = 0
  isrCount : state.isrCount = 0

/-- There is room in the receive FIFO at the start of every cycle. -/
def Roomy (config : SmConfig) : State → List Cycle → Prop
  | _, [] => True
  | state, cycle :: rest =>
    state.rx.length < config.rxDepth ∧ Roomy config ((served config).step state cycle).1 rest

theorem roomy_append (state : State) :
    Roomy config state (first ++ rest) ↔
      Roomy config state first ∧ Roomy config ((served config).run state first).1 rest := by
  induction first generalizing state with
  | nil => simp [Roomy]
  | cons cycle first ih => simp only [List.cons_append, Roomy, ih, Mealy.run_cons, and_assoc]

/-- A property that does not change when the processor takes words. -/
def Stable (holds : State → Prop) : Prop := ∀ state rx, holds state → holds { state with rx }

theorem At.stable (pc delay : Nat) : Stable (At pc delay) :=
  fun _ _ standing => ⟨standing.pc, standing.delay, standing.isr, standing.isrCount⟩

/-- From `before` to `after`, if there is always room. What was pushed on the way
was taken, or waits in the FIFO behind what was there. -/
def Leads (config : SmConfig) (before after : State → Prop) (cycles : List Cycle) (pushed : List Word) : Prop :=
  ∀ state, before state → Roomy config state cycles → after ((served config).run state cycles).1 ∧
    ((served config).run state cycles).2 ++ ((served config).run state cycles).1.rx = state.rx ++ pushed

theorem Leads.refl : Leads config before before [] [] := by
  intro state start _
  exact ⟨start, by simp⟩

theorem Leads.trans (one : Leads config before middle first pushed) (two : Leads config middle after rest more) :
    Leads config before after (first ++ rest) (pushed ++ more) := by
  intro state start room
  obtain ⟨roomFirst, roomRest⟩ := (roomy_append state).mp room
  obtain ⟨between, log⟩ := one state start roomFirst
  obtain ⟨finish, later⟩ := two _ between roomRest
  rw [Mealy.run_append]
  refine ⟨finish, ?_⟩
  rw [List.append_assoc, later, ← List.append_assoc, log, List.append_assoc]

/-- What comes first takes one cycle. -/
theorem Leads.cons {cycle : Cycle} (one : Leads config before middle [cycle] pushed)
    (two : Leads config middle after rest more) : Leads config before after (cycle :: rest) (pushed ++ more) :=
  one.trans two

theorem Leads.weaken {before' after' : State → Prop} (leads : Leads config before after cycles pushed)
    (stronger : ∀ state, before' state → before state) (weaker : ∀ state, after state → after' state) :
    Leads config before' after' cycles pushed := by
  intro state start room
  obtain ⟨finish, log⟩ := leads state (stronger state start) room
  exact ⟨weaker _ finish, log⟩

/-- One cycle of the program, and what the processor does after it. -/
theorem leads_step {cycle : Cycle} (stable : Stable after)
    (stepped : ∀ state, before state → state.rx.length < config.rxDepth → after (step config cycle.gpio state) ∧
      (step config cycle.gpio state).rx = state.rx ++ pushed) :
    Leads config before after [cycle] pushed := by
  intro state start room
  obtain ⟨finish, log⟩ := stepped state start room.1
  obtain ⟨rx, taken, served, kept⟩ := served_step config state cycle
  rw [Mealy.run_cons, Mealy.run_nil, List.append_nil, served]
  exact ⟨stable _ rx finish, kept.trans log⟩

theorem leads_stay {holds : State → Prop} (stays : ∀ cycle ∈ cycles, Leads config holds holds [cycle] []) :
    Leads config holds holds cycles [] := by
  induction cycles with
  | nil => exact .refl
  | cons cycle cycles ih =>
    have one := stays cycle List.mem_cons_self
    have later := ih fun other member => stays other (List.mem_cons_of_mem _ member)
    exact one.cons later

/-- A delay that lasts as long as the cycles. -/
theorem leads_delay (manual : config.autopull = false) (pc : Nat) {delay : Nat} (whole : cycles.length = delay) :
    Leads config (At pc delay) (At pc 0) cycles [] := by
  subst whole
  induction cycles with
  | nil => exact .refl
  | cons cycle cycles ih =>
    have one : Leads config (At pc (cycles.length + 1)) (At pc cycles.length) [cycle] [] := by
      apply leads_step (At.stable _ _)
      intro state ⟨atPc, atDelay, empty, unshifted⟩ _
      rw [step_delay manual (by omega)]
      exact ⟨⟨atPc, congrArg (· - 1) atDelay, empty, unshifted⟩, (List.append_nil _).symm⟩
    exact one.cons ih

end Rules

theorem rotateRight_or (x y : Word) (r : Nat) :
    (x ||| y).rotateRight r = x.rotateRight r ||| y.rotateRight r := by
  ext i inside
  simp only [BitVec.getElem_rotateRight, BitVec.getElem_or]
  split <;> rfl

theorem rotateRight_and (x y : Word) (r : Nat) :
    (x &&& y).rotateRight r = x.rotateRight r &&& y.rotateRight r := by
  ext i inside
  simp only [BitVec.getElem_rotateRight, BitVec.getElem_and]
  split <;> rfl

theorem rotateRight_not (x : Word) (r : Nat) : (~~~x).rotateRight r = ~~~(x.rotateRight r) := by
  ext i inside
  simp only [BitVec.getElem_rotateRight, BitVec.getElem_not]
  split <;> rfl

theorem rotateRight_rotateLeft (x : Word) (r : Nat) : (x.rotateLeft r).rotateRight r = x := by
  ext i inside
  have bound : r % 32 < 32 := Nat.mod_lt _ (by decide)
  simp only [BitVec.getElem_rotateRight, BitVec.getElem_rotateLeft]
  split
  · rw [dif_neg (by omega)]
    congr 1
    omega
  · rw [dif_pos (by omega)]
    congr 1
    omega

/-- What was set is what can be read. -/
theorem readPins_setPins (old : Word) (base count : Nat) (value : Word) :
    readPins (setPins old base count value) base count = value &&& lowBits count := by
  unfold readPins setPins
  rw [rotateRight_or, rotateRight_and, rotateRight_not, rotateRight_rotateLeft, rotateRight_rotateLeft]
  ext i inside
  simp only [BitVec.getElem_and, BitVec.getElem_or, BitVec.getElem_not]
  cases (lowBits count)[i] <;> simp

end Embedded.Pio
