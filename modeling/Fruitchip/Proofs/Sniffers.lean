import Fruitchip.Firmware.BusSession
import Fruitchip.Proofs.ReadSniffer
import Fruitchip.Proofs.WriteSniffer

/-! Both sniffers on one bus, and the main loop that empties their FIFOs: what it
gets are the bytes of the accesses, in the order of the accesses. -/

namespace Fruitchip.BootRom
open Embedded Embedded.Pio Firmware

variable {config : Config} {led : Option Nat} {block : Block}

def sniffer (config : Config) (led : Option Nat) : Sniffer → SmConfig
  | .read => readSniffer config led
  | .write => writeSniffer config

/-- The sniffers run, and no answer goes out. -/
def Block.Listening (block : Block) : Prop := block.sniffersEnabled = true ∧ block.dataOutEnabled = false

def from? : Sniffer → BusByte → Option U8
  | .read, .read r => some r
  | .write, .write w => some w
  | _, _ => none

theorem cycle_core (config : Config) (led : Option Nat) (listening : block.Listening) (latch : Latch) (which : Sniffer) (gpio : Word) :
    ((block.stepSniffers config led gpio).stepDataOut config led gpio).Listening ∧
      ((block.stepSniffers config led gpio).stepDataOut config led gpio).core which =
        (Pio.step (sniffer config led which) gpio ⟨block.core which, latch⟩).toCore := by
  obtain ⟨enabled, disabled⟩ := listening
  simp only [Block.stepSniffers, enabled, if_true, Block.stepDataOut, disabled, Bool.false_eq_true, if_false]
  refine ⟨⟨rfl, rfl⟩, ?_⟩
  cases which <;> exact step_toCore _ _ _ _ _

theorem get_core (block : Block) (which other : Sniffer) :
    (block.get other).1.core which = (if other = which then (block.core which).get.1 else block.core which) ∧
      (block.get other).2.filterMap (from? which) =
        if other = which then (block.core which).get.2.map (BitVec.setWidth 8) else [] := by
  have same (which : Sniffer) (words : List Word) :
      (words.map (busByte · which)).filterMap (from? which) = words.map (BitVec.setWidth 8) := by
    cases which <;> simp [List.filterMap_map, from?, busByte, Function.comp_def]
  have apart (words : List Word) : (words.map (busByte · .read)).filterMap (from? .write) = [] ∧
      (words.map (busByte · .write)).filterMap (from? .read) = [] := by
    simp [List.filterMap_map, from?, busByte, Function.comp_def]
  cases which <;> cases other
  · exact ⟨rfl, same .read _⟩
  · exact ⟨rfl, (apart _).2⟩
  · exact ⟨rfl, (apart _).1⟩
  · exact ⟨rfl, same .write _⟩

theorem get_listening (listening : block.Listening) (which : Sniffer) : (block.get which).1.Listening := by
  cases which <;> exact listening

/-- One tick: each sniffer does what it does alone. -/
theorem tick_core (config : Config) (led : Option Nat) (listening : block.Listening) (latch : Latch) (which : Sniffer) (tick : Tick) :
    ((bus config led).run block tick.actions).1.Listening ∧
      ((bus config led).run block tick.actions).1.core which =
        ((served (sniffer config led which)).step ⟨block.core which, latch⟩ (tick.cycle which)).1.toCore ∧
      ((bus config led).run block tick.actions).2.filterMap (from? which) =
        ((served (sniffer config led which)).step ⟨block.core which, latch⟩ (tick.cycle which)).2.map
          (BitVec.setWidth 8) := by
  obtain ⟨gpio, get⟩ := tick
  obtain ⟨running, core⟩ := cycle_core config led listening latch which gpio
  simp only [Tick.actions, Mealy.run_cons, bus, Block.step, served, Tick.cycle]
  generalize (block.stepSniffers config led gpio).stepDataOut config led gpio = next at running core ⊢
  cases get with
  | none => exact ⟨running, core, rfl⟩
  | some other =>
    obtain ⟨taken, words⟩ := get_core next which other
    simp only [Option.map_some, Option.toList_some, Mealy.run_cons, Mealy.run_nil, List.nil_append, List.append_nil,
      Option.some.injEq, decide_eq_true_eq]
    rw [show Block.step config led next (.get other) = next.get other from rfl]
    refine ⟨get_listening running other, ?_, ?_⟩
    · rw [taken, core]
      split <;> rfl
    · rw [words, core]
      split <;> rfl

/-- The sniffers leave the answers alone. -/
theorem tick_keeps (config : Config) (led : Option Nat) (listening : block.Listening) (tick : Tick) :
    ((bus config led).run block tick.actions).1.dataOut = block.dataOut ∧
      ((bus config led).run block tick.actions).1.dma = block.dma := by
  obtain ⟨enabled, disabled⟩ := listening
  obtain ⟨gpio, get⟩ := tick
  have cycled : ((block.stepSniffers config led gpio).stepDataOut config led gpio).dataOut = block.dataOut ∧
      ((block.stepSniffers config led gpio).stepDataOut config led gpio).dma = block.dma := by
    simp only [Block.stepSniffers, enabled, if_true, Block.stepDataOut, disabled, Bool.false_eq_true, if_false,
      and_self]
  cases get with
  | none => exact cycled
  | some which => cases which <;> exact cycled

theorem run_keeps (config : Config) (led : Option Nat) (ticks : List Tick) (listening : block.Listening) :
    ((bus config led).run block (ticks.flatMap Tick.actions)).1.dataOut = block.dataOut ∧
      ((bus config led).run block (ticks.flatMap Tick.actions)).1.dma = block.dma := by
  induction ticks generalizing block with
  | nil => exact ⟨rfl, rfl⟩
  | cons tick ticks ih =>
    obtain ⟨dataOut, dma⟩ := tick_keeps config led listening tick
    obtain ⟨later, more⟩ := ih (tick_core config led listening block.latch .read tick).1
    rw [List.flatMap_cons, Mealy.run_append]
    exact ⟨later.trans dataOut, more.trans dma⟩

theorem run_core (which : Sniffer) {ticks : List Tick} (latch : Latch) (listening : block.Listening) :
    ((bus config led).run block (ticks.flatMap Tick.actions)).1.Listening ∧
      ((bus config led).run block (ticks.flatMap Tick.actions)).1.core which =
        ((served (sniffer config led which)).run ⟨block.core which, latch⟩ (ticks.map (Tick.cycle which))).1.toCore ∧
      ((bus config led).run block (ticks.flatMap Tick.actions)).2.filterMap (from? which) =
        ((served (sniffer config led which)).run ⟨block.core which, latch⟩ (ticks.map (Tick.cycle which))).2.map
          (BitVec.setWidth 8) := by
  induction ticks generalizing block latch with
  | nil => exact ⟨listening, rfl, rfl⟩
  | cons tick ticks ih =>
    obtain ⟨running, core, words⟩ := tick_core config led listening latch which tick
    generalize next : (served (sniffer config led which)).step ⟨block.core which, latch⟩ (tick.cycle which) = after
      at core words
    obtain ⟨⟨after, other⟩, taken⟩ := after
    obtain ⟨still, later, more⟩ := ih other running
    rw [List.flatMap_cons, Mealy.run_append, List.map_cons, Mealy.run_cons, next]
    rw [core] at later more
    refine ⟨still, later, ?_⟩
    rw [List.filterMap_append, words, more, List.map_append]

theorem run_listening (config : Config) (led : Option Nat) (ticks : List Tick) (listening : block.Listening) :
    ((bus config led).run block (ticks.flatMap Tick.actions)).1.Listening :=
  (run_core .read block.latch listening).1

theorem roomy_core (which : Sniffer) {ticks : List Tick} (latch : Latch) (listening : block.Listening)
    (room : RoomyTicks config led block ticks) :
    Roomy (sniffer config led which) ⟨block.core which, latch⟩ (ticks.map (Tick.cycle which)) := by
  induction ticks generalizing block latch with
  | nil => trivial
  | cons tick ticks ih =>
    obtain ⟨roomRead, roomWrite, rest⟩ := room
    obtain ⟨running, core, _⟩ := tick_core config led listening latch which tick
    generalize next : (served (sniffer config led which)).step ⟨block.core which, latch⟩ (tick.cycle which) = after
      at core
    obtain ⟨⟨after, other⟩, taken⟩ := after
    have later := ih other running rest
    rw [core] at later
    refine ⟨?_, by rw [next]; exact later⟩
    cases which
    · exact roomRead
    · exact roomWrite

/-- One of the sniffers satisfies a property of its registers. -/
def Stands (holds : State → Prop) (which : Sniffer) (block : Block) : Prop :=
  ∃ latch, holds ⟨block.core which, latch⟩

def Block.left (block : Block) (which : Sniffer) : List U8 := (block.core which).rx.map (BitVec.setWidth 8)

theorem run_leads {which : Sniffer} {before after : State → Prop} {ticks : List Tick} {pushed : List Word}
    (leads : Leads (sniffer config led which) before after (ticks.map (Tick.cycle which)) pushed)
    (stands : Stands before which block) (listening : block.Listening) (room : RoomyTicks config led block ticks) :
    Stands after which ((bus config led).run block (ticks.flatMap Tick.actions)).1 ∧
      ((bus config led).run block (ticks.flatMap Tick.actions)).2.filterMap (from? which) ++
        ((bus config led).run block (ticks.flatMap Tick.actions)).1.left which =
      block.left which ++ pushed.map (BitVec.setWidth 8) := by
  obtain ⟨latch, start⟩ := stands
  obtain ⟨finish, log⟩ := leads _ start (roomy_core which latch listening room)
  obtain ⟨_, core, words⟩ := @run_core config led block which ticks latch listening
  refine ⟨⟨_, by rw [core]; exact finish⟩, ?_⟩
  rw [words, Block.left, core, Block.left, ← List.map_append, log, List.map_append]

theorem only_reads {bytes : List BusByte} (silent : bytes.filterMap (from? .write) = []) :
    bytes = (bytes.filterMap (from? .read)).map .read := by
  induction bytes with
  | nil => rfl
  | cons byte bytes ih =>
    cases byte with
    | read r => simpa [from?] using ih (by simpa [from?] using silent)
    | write w => simp [from?] at silent

theorem only_writes {bytes : List BusByte} (silent : bytes.filterMap (from? .read) = []) :
    bytes = (bytes.filterMap (from? .write)).map .write := by
  induction bytes with
  | nil => rfl
  | cons byte bytes ih =>
    cases byte with
    | read r => simp [from?] at silent
    | write w => simpa [from?] using ih (by simpa [from?] using silent)

theorem waiting_eq (block : Block) :
    block.waiting = (block.left .read).map .read ++ (block.left .write).map .write := by
  simp [Block.waiting, Block.left, Block.core, busByte, Function.comp_def]

/-- Bytes of one kind, and those that wait, are in order. -/
theorem ordered {out : List BusByte} {reads writes : List U8}
    (readLog : out.filterMap (from? .read) ++ block.left .read = reads)
    (writeLog : out.filterMap (from? .write) ++ block.left .write = writes) (one : reads = [] ∨ writes = []) :
    out ++ block.waiting = reads.map .read ++ writes.map .write := by
  rw [waiting_eq]
  rcases one with rfl | rfl
  · obtain ⟨silent, empty⟩ := List.append_eq_nil_iff.mp readLog
    rw [only_writes silent, empty, ← writeLog]
    simp [from?]
  · obtain ⟨silent, empty⟩ := List.append_eq_nil_iff.mp writeLog
    rw [only_reads silent, empty, ← readLog]
    simp [from?]

theorem roomyTicks_append {first rest : List Tick} :
    RoomyTicks config led block (first ++ rest) ↔ RoomyTicks config led block first ∧
      RoomyTicks config led ((bus config led).run block (first.flatMap Tick.actions)).1 rest := by
  induction first generalizing block with
  | nil => simp [RoomyTicks]
  | cons tick first ih =>
    simp only [List.cons_append, RoomyTicks, ih, List.flatMap_cons, Mealy.run_append, and_assoc]

def between : Sniffer → State → Prop
  | .read => ReadSniffer.Between
  | .write => WriteSniffer.Between

def ready : Sniffer → State → Prop
  | .read => At 2 0
  | .write => At 1 0

theorem leads_gap (config : Config) (led : Option Nat) {ticks : List Tick} (levels : Levels config true true ticks)
    (long : 7 ≤ ticks.length) (which : Sniffer) :
    Leads (sniffer config led which) (between which) (ready which) (ticks.map (Tick.cycle which)) [] := by
  cases which with
  | read => exact ReadSniffer.leads_gap config led levels long
  | write => exact WriteSniffer.leads_gap config levels long

theorem leads_access (config : Config) (led : Option Nat) {access : Access} (timed : access.Timed config)
    (which : Sniffer) :
    Leads (sniffer config led which) (ready which) (between which) (access.ticks.map (Tick.cycle which))
      (access.samples config which) := by
  cases which with
  | read => exact ReadSniffer.leads_access config led timed
  | write => exact WriteSniffer.leads_access config timed

/-- Both sniffers between two accesses, with bytes left in one FIFO at most. -/
structure Block.Between (block : Block) : Prop where
  listening : block.Listening
  stands : ∀ which, Stands (between which) which block
  one : block.left .read = [] ∨ block.left .write = []

theorem deliver_cycle {cycle : BusCycle} (between : block.Between) (timed : cycle.Timed config)
    (room : RoomyTicks config led block cycle.ticks)
    (drained : ((bus config led).run block (cycle.gap.flatMap Tick.actions)).1.waiting = []) :
    ((bus config led).run block cycle.actions).1.Between ∧
      ((bus config led).run block cycle.actions).2 ++ ((bus config led).run block cycle.actions).1.waiting =
        block.waiting ++ cycle.access.bytes config := by
  obtain ⟨levels, long, access⟩ := timed
  obtain ⟨roomGap, roomAccess⟩ := roomyTicks_append.mp room
  have gap which := run_leads (leads_gap config led levels long which) (between.stands which) between.listening roomGap
  have listening := run_listening config led cycle.gap between.listening
  rw [BusCycle.actions, BusCycle.ticks, List.flatMap_append, Mealy.run_append]
  generalize (bus config led).run block (cycle.gap.flatMap Tick.actions) = atAccess at *
  have taken which := run_leads (leads_access config led access which) (gap which).1 listening roomAccess
  have after := run_listening config led cycle.access.ticks listening
  generalize (bus config led).run atAccess.1 (cycle.access.ticks.flatMap Tick.actions) = result at *
  have before := ordered (gap .read).2 (gap .write).2 (by simpa using between.one)
  have empty which : atAccess.1.left which = [] := by
    rw [waiting_eq, List.append_eq_nil_iff, List.map_eq_nil_iff, List.map_eq_nil_iff] at drained
    cases which
    · exact drained.1
    · exact drained.2
  have one : (cycle.access.samples config .read).map (BitVec.setWidth 8) = [] ∨
      (cycle.access.samples config .write).map (BitVec.setWidth 8) = [] := by
    cases cycle.access with
    | other ticks => exact .inl rfl
    | reads first rest hold => exact .inr rfl
    | writes ticks => exact .inl rfl
  have readLog := (taken .read).2
  have writeLog := (taken .write).2
  rw [empty, List.nil_append] at readLog writeLog
  have sent := ordered readLog writeLog one
  refine ⟨⟨after, fun which => (taken which).1, ?_⟩, ?_⟩
  · rcases one with absent | absent
    · rw [absent, List.append_eq_nil_iff] at readLog
      exact .inl readLog.2
    · rw [absent, List.append_eq_nil_iff] at writeLog
      exact .inr writeLog.2
  · rw [drained, List.append_nil] at before
    rw [List.append_assoc, sent, before, waiting_eq, Access.bytes]
    simp [busByte, Function.comp_def]

theorem deliver_run {trace : List BusCycle} (between : block.Between) (timed : ∀ cycle ∈ trace, cycle.Timed config)
    (room : RoomyTicks config led block (trace.flatMap BusCycle.ticks)) (drained : Drained config led block trace) :
    ((bus config led).run block (trace.flatMap BusCycle.actions)).1.Between ∧
      ((bus config led).run block (trace.flatMap BusCycle.actions)).2 ++
        ((bus config led).run block (trace.flatMap BusCycle.actions)).1.waiting =
      block.waiting ++ trace.flatMap fun cycle => cycle.access.bytes config := by
  induction trace generalizing block with
  | nil => exact ⟨between, by simp⟩
  | cons cycle trace ih =>
    obtain ⟨empty, rest⟩ := drained
    obtain ⟨roomFirst, roomRest⟩ := roomyTicks_append.mp room
    obtain ⟨next, one⟩ := deliver_cycle between (timed cycle List.mem_cons_self) roomFirst empty
    have reached : ((bus config led).run ((bus config led).run block (cycle.gap.flatMap Tick.actions)).1
        (cycle.access.ticks.flatMap Tick.actions)).1 = ((bus config led).run block cycle.actions).1 := by
      rw [BusCycle.actions, BusCycle.ticks, List.flatMap_append, Mealy.run_append]
    obtain ⟨last, more⟩ := ih next (fun other member => timed other (List.mem_cons_of_mem _ member)) roomRest
      (by rw [← reached]; exact rest)
    rw [List.flatMap_cons, Mealy.run_append]
    refine ⟨last, ?_⟩
    rw [List.append_assoc, more, ← List.append_assoc, one, List.append_assoc, List.flatMap_cons]

theorem deliver_gap {ticks : List Tick} (standing : block.Between) (levels : Levels config true true ticks)
    (long : 7 ≤ ticks.length) (room : RoomyTicks config led block ticks) :
    ((bus config led).run block (ticks.flatMap Tick.actions)).1.Listening ∧
      (∀ which, Stands (ready which) which ((bus config led).run block (ticks.flatMap Tick.actions)).1) ∧
      ((bus config led).run block (ticks.flatMap Tick.actions)).2 ++
        ((bus config led).run block (ticks.flatMap Tick.actions)).1.waiting = block.waiting := by
  have gap which := run_leads (leads_gap config led levels long which) (standing.stands which) standing.listening room
  refine ⟨run_listening config led ticks standing.listening, fun which => (gap which).1, ?_⟩
  rw [ordered (gap .read).2 (gap .write).2 (by simpa using standing.one), waiting_eq]
  simp

theorem between_init (latch : Latch) : (Block.init latch).Between where
  listening := ⟨rfl, rfl⟩
  stands which := by
    cases which
    · exact ⟨latch, .inl ⟨rfl, rfl, rfl, rfl⟩⟩
    · exact ⟨latch, .inr (.inr ⟨rfl, rfl, rfl, rfl⟩)⟩
  one := .inl rfl

/-- The main loop gets the bytes of the accesses in their order, however reads
and writes follow on each other, when it keeps up with the bus. -/
theorem sniffers_deliver (config : Config) (led : Option Nat) (latch : Latch) {trace : List BusCycle}
    (timed : ∀ cycle ∈ trace, cycle.Timed config)
    (room : RoomyTicks config led (.init latch) (trace.flatMap BusCycle.ticks))
    (drained : Drained config led (.init latch) trace) :
    ((bus config led).run (.init latch) (trace.flatMap BusCycle.actions)).2 ++
      ((bus config led).run (.init latch) (trace.flatMap BusCycle.actions)).1.waiting =
    trace.flatMap fun cycle => cycle.access.bytes config :=
  (deliver_run (between_init latch) timed room drained).2

theorem sniffers_deliver_write_read :
    let config := waveshareRp2040Tiny default
    let trace : List BusCycle := [
      ⟨List.replicate 7 ⟨0x300, none⟩, .writes (List.replicate 13 ⟨0x15A, none⟩)⟩,
      ⟨List.replicate 7 ⟨0x300, some .write⟩, .reads ⟨[⟨0x100, none⟩], List.replicate 11 ⟨0x0C3, none⟩⟩ [] []⟩]
    ((bus config none).run (.init ⟨0, 0, 0⟩) (trace.flatMap BusCycle.actions)).2 ++
      ((bus config none).run (.init ⟨0, 0, 0⟩) (trace.flatMap BusCycle.actions)).1.waiting =
    trace.flatMap fun cycle => cycle.access.bytes config :=
  sniffers_deliver (waveshareRp2040Tiny default) none ⟨0, 0, 0⟩ (by decide +kernel) (by decide +kernel)
    (by decide +kernel)

end Fruitchip.BootRom
