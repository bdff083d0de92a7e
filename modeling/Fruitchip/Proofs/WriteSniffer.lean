import Fruitchip.Firmware.BusAccess
import Fruitchip.Library.Sampler

/-! The write sniffer, cycle by cycle: in any waveform it samples at most once
while `CE` stays low, and it takes the first byte of every write that lasts long
enough. -/

namespace Fruitchip.BootRom
open Embedded Embedded.Pio Firmware

variable {config : Config} {gpio : Word} {state : State}

namespace WriteSniffer

theorem step_start (pc : state.pc = 0) (delay : state.delay = 0) :
    step (writeSniffer config) gpio state = if ce config gpio then { state with pc := 1 } else state := by
  have fetched : (writeSniffer config).program[state.pc]? = some ⟨.wait true config.bootRomCePin, none, 0⟩ := by
    rw [pc]
    rfl
  rw [step_execute rfl delay fetched]
  unfold ce
  cases level : gpio.getLsbD config.bootRomCePin <;> simp [Pio.execute, advance, State.drive, level, pc, delay, writeSniffer]

theorem step_armed (pc : state.pc = 1) (delay : state.delay = 0) :
    step (writeSniffer config) gpio state = if ce config gpio then state else { state with pc := 2, delay := 10 } := by
  have fetched : (writeSniffer config).program[state.pc]? = some ⟨.wait false config.bootRomCePin, none, 10⟩ := by
    rw [pc]
    rfl
  rw [step_execute rfl delay fetched]
  unfold ce
  cases level : gpio.getLsbD config.bootRomCePin <;> simp [Pio.execute, advance, State.drive, level, pc, writeSniffer]

theorem step_settled (pc : state.pc = 2) (delay : state.delay = 0) :
    step (writeSniffer config) gpio state = { state with pc := if oe config gpio then 4 else 3 } := by
  have fetched : (writeSniffer config).program[state.pc]? = some ⟨.jmp .pin 4, none, 0⟩ := by
    rw [pc]
    rfl
  rw [step_execute rfl delay fetched]
  unfold oe
  cases level : gpio.getLsbD config.bootRomOePin <;>
    simp [Pio.execute, advance, State.drive, Condition.holds, level, pc, delay, writeSniffer]

theorem step_ignoring (pc : state.pc = 3) (delay : state.delay = 0) :
    step (writeSniffer config) gpio state = { state with pc := 0 } := by
  have fetched : (writeSniffer config).program[state.pc]? = some ⟨.jmp .always 0, none, 0⟩ := by
    rw [pc]
    rfl
  rw [step_execute rfl delay fetched]
  simp [Pio.execute, advance, State.drive, Condition.holds, delay]

theorem step_sampling (pc : state.pc = 4) (delay : state.delay = 0) (empty : state.isr = 0)
    (unshifted : state.isrCount = 0) :
    step (writeSniffer config) gpio state =
      if state.rx.length < joinedDepth then
        { state with pc := 0, rx := state.rx ++ [readPins gpio config.bootRomQ0Pin 8] }
      else { state with isr := readPins gpio config.bootRomQ0Pin 8, isrCount := 8 } := by
  have fetched : (writeSniffer config).program[state.pc]? = some ⟨.inPins 8, none, 0⟩ := by
    rw [pc]
    rfl
  have sampled : Pio.execute (writeSniffer config) gpio state (.inPins 8) =
      if state.rx.length < joinedDepth then
        ({ state with rx := state.rx ++ [readPins gpio config.bootRomQ0Pin 8] }, .next)
      else ({ state with isr := readPins gpio config.bootRomQ0Pin 8, isrCount := 8 }, .stall) :=
    execute_in rfl rfl rfl (by decide) (by decide) empty unshifted
  rw [step_execute rfl delay fetched, State.drive, sampled]
  by_cases room : state.rx.length < joinedDepth <;> simp [room, advance, pc, delay, writeSniffer]

theorem step_holding (pc : state.pc = 4) (delay : state.delay = 0) (full : state.isrCount = 8) :
    step (writeSniffer config) gpio state =
      if state.rx.length < joinedDepth then
        { state with pc := 0, isr := 0, isrCount := 0, rx := state.rx ++ [state.isr] }
      else state := by
  have fetched : (writeSniffer config).program[state.pc]? = some ⟨.inPins 8, none, 0⟩ := by
    rw [pc]
    rfl
  have held : Pio.execute (writeSniffer config) gpio state (.inPins 8) =
      if state.rx.length < joinedDepth then
        ({ state with isr := 0, isrCount := 0, rx := state.rx ++ [state.isr] }, .next)
      else (state, .stall) :=
    execute_held rfl (Nat.le_of_eq full.symm) 8
  rw [step_execute rfl delay fetched, State.drive, held]
  by_cases room : state.rx.length < joinedDepth <;> simp [room, advance, pc, delay, writeSniffer]

/-- The program as one that samples. -/
def sampler (config : Config) : Sampler where
  config := writeSniffer config
  delay := 10
  select := (ce config · = false)
  test := (oe config · = true)
  release := (ce config · = true)
  resting pc := pc = 0 ∨ pc = 3
  armed pc := pc = 1
  settling := 2
  sampling := 4
  manual := rfl
  positive := joinedDepth_pos
  rests gpio state pc rests standing := by
    rcases rests with rfl | rfl
    · rw [step_start standing.pc standing.delay]
      cases level : ce config gpio with
      | false => exact ⟨rfl, 0, standing, .inl (.inl rfl)⟩
      | true => exact ⟨rfl, 1, ⟨rfl, standing.delay, standing.isr, standing.isrCount⟩, .inr ⟨rfl, rfl⟩⟩
    · rw [step_ignoring standing.pc standing.delay]
      exact ⟨rfl, 0, ⟨rfl, standing.delay, standing.isr, standing.isrCount⟩, .inl (.inl rfl)⟩
  waits gpio state pc waits standing := by
    rw [step_armed (standing.pc.trans waits) standing.delay]
    cases level : ce config gpio with
    | true => exact ⟨rfl, .inl ⟨pc, waits, standing⟩⟩
    | false => exact ⟨rfl, .inr ⟨rfl, rfl, rfl, standing.isr, standing.isrCount⟩⟩
  tests gpio state standing := by
    rw [step_settled standing.pc standing.delay]
    cases level : oe config gpio with
    | false => exact ⟨rfl, .inl ⟨3, ⟨rfl, standing.delay, standing.isr, standing.isrCount⟩, .inl (.inr rfl)⟩⟩
    | true => exact ⟨rfl, .inr ⟨rfl, rfl, standing.delay, standing.isr, standing.isrCount⟩⟩
  samples gpio state standing := by
    rw [step_sampling standing.pc standing.delay standing.isr standing.isrCount]
    by_cases room : state.rx.length < joinedDepth
    · rw [if_pos room, if_pos (by exact room)]
      exact ⟨rfl, 0, .inl rfl, rfl, standing.delay, standing.isr, standing.isrCount⟩
    · rw [if_neg room, if_neg (by exact room)]
      rfl
  holds gpio state pc delay full := by
    rw [step_holding pc delay full]
    by_cases room : state.rx.length < joinedDepth
    · rw [if_pos room, if_pos (by exact room)]
      exact ⟨rfl, 0, .inl rfl, rfl, delay, rfl, rfl⟩
    · rw [if_neg room, if_neg (by exact room)]

section Accesses

variable (config : Config) {cycle : Cycle} {ticks : List Tick}

theorem leads_ready (high : ce config cycle.gpio = true) : Leads (writeSniffer config) (At 0 0) (At 1 0) [cycle] [] := by
  apply leads_step (At.stable _ _)
  intro state standing _
  rw [step_start standing.pc standing.delay, if_pos high, List.append_nil]
  exact ⟨⟨rfl, standing.delay, standing.isr, standing.isrCount⟩, rfl⟩

theorem leads_rest (low : ce config cycle.gpio = false) : Leads (writeSniffer config) (At 0 0) (At 0 0) [cycle] [] := by
  apply leads_step (At.stable _ _)
  intro state standing _
  rw [step_start standing.pc standing.delay, low, List.append_nil]
  exact ⟨standing, rfl⟩

theorem leads_idle (high : ce config cycle.gpio = true) : Leads (writeSniffer config) (At 1 0) (At 1 0) [cycle] [] := by
  apply leads_step (At.stable _ _)
  intro state standing _
  rw [step_armed standing.pc standing.delay, if_pos high, List.append_nil]
  exact ⟨standing, rfl⟩

theorem leads_arm (low : ce config cycle.gpio = false) : Leads (writeSniffer config) (At 1 0) (At 2 10) [cycle] [] := by
  apply leads_step (At.stable _ _)
  intro state standing _
  rw [step_armed standing.pc standing.delay, low, List.append_nil]
  exact ⟨⟨rfl, rfl, standing.isr, standing.isrCount⟩, rfl⟩

theorem leads_test (cycle : Cycle) :
    Leads (writeSniffer config) (At 2 0) (At (if oe config cycle.gpio then 4 else 3) 0) [cycle] [] := by
  apply leads_step (At.stable _ _)
  intro state standing _
  rw [step_settled standing.pc standing.delay, List.append_nil]
  exact ⟨⟨rfl, standing.delay, standing.isr, standing.isrCount⟩, rfl⟩

theorem leads_ignore (cycle : Cycle) : Leads (writeSniffer config) (At 3 0) (At 0 0) [cycle] [] := by
  apply leads_step (At.stable _ _)
  intro state standing _
  rw [step_ignoring standing.pc standing.delay, List.append_nil]
  exact ⟨⟨rfl, standing.delay, standing.isr, standing.isrCount⟩, rfl⟩

theorem leads_sample (cycle : Cycle) :
    Leads (writeSniffer config) (At 4 0) (At 0 0) [cycle]
      [readPins cycle.gpio config.bootRomQ0Pin 8] := by
  apply leads_step (At.stable _ _)
  intro state standing room
  rw [step_sampling standing.pc standing.delay standing.isr standing.isrCount, if_pos (by exact room)]
  exact ⟨⟨rfl, standing.delay, standing.isr, standing.isrCount⟩, rfl⟩

theorem leads_idles (high : ∀ tick ∈ ticks, ce config tick.gpio = true) :
    Leads (writeSniffer config) (At 1 0) (At 1 0) (ticks.map (Tick.cycle .write)) [] := by
  apply leads_stay
  intro cycle member
  obtain ⟨tick, inside, rfl⟩ := List.mem_map.mp member
  exact leads_idle config (high tick inside)

theorem leads_rests (low : ∀ tick ∈ ticks, ce config tick.gpio = false) :
    Leads (writeSniffer config) (At 0 0) (At 0 0) (ticks.map (Tick.cycle .write)) [] := by
  apply leads_stay
  intro cycle member
  obtain ⟨tick, inside, rfl⟩ := List.mem_map.mp member
  exact leads_rest config (low tick inside)

/-- Up to the cycle that looks at `OE`. -/
theorem leads_chosen {start test : Tick} {settle : List Tick} (low : ce config start.gpio = false)
    (length : settle.length = 10) :
    Leads (writeSniffer config) (At 1 0) (At (if oe config test.gpio then 4 else 3) 0)
      ((start :: (settle ++ [test])).map (Tick.cycle .write)) [] := by
  have started : Leads (writeSniffer config) (At 1 0) (At 2 10) [start.cycle .write] [] := leads_arm config low
  have settled : Leads (writeSniffer config) (At 2 10) (At 2 0) (settle.map (Tick.cycle .write)) [] :=
    leads_delay rfl 2 (by rw [List.length_map, length])
  have tested := leads_test config (test.cycle .write)
  rw [List.map_cons, List.map_append]
  exact started.cons (settled.trans tested)

/-- From the first cycle with `CE` low to the last, in a write. -/
theorem leads_write (levels : Levels config false true ticks) (long : 13 ≤ ticks.length) :
    Leads (writeSniffer config) (At 1 0) (At 0 0)
      (ticks.map (Tick.cycle .write)) [readPins (ticks.getD 12 default).gpio config.bootRomQ0Pin 8] := by
  obtain ⟨start, settle, test, rest, length, split⟩ := timeline 10 long
  generalize ticks.getD 12 default = sample at split ⊢
  subst split
  have high : oe config test.gpio = true := (levels test (by simp)).2
  have chosen : Leads (writeSniffer config) (At 1 0) (At (if oe config test.gpio then 4 else 3) 0)
      ((start :: (settle ++ [test])).map (Tick.cycle .write)) [] :=
    leads_chosen config (levels start (by simp)).1 length
  rw [if_pos high] at chosen
  have sampled := leads_sample config (sample.cycle .write)
  have rested : Leads (writeSniffer config) (At 0 0) (At 0 0) (rest.map (Tick.cycle .write)) [] :=
    leads_rests config fun tick member => (levels tick (by simp [member])).1
  simpa using chosen.trans (sampled.cons rested)

/-- From the first cycle with `CE` low to the last, where `OE` is low in the
cycle that looks at it. -/
theorem leads_read {before : List Tick} {test : Tick} {after : List Tick} (whole : ticks = before ++ test :: after)
    (position : before.length = 11) (low : ∀ tick ∈ ticks, ce config tick.gpio = false)
    (chosen : oe config test.gpio = false) :
    Leads (writeSniffer config) (At 1 0) (fun state => At 3 0 state ∨ At 0 0 state) (ticks.map (Tick.cycle .write)) [] := by
  subst whole
  match before, position with
  | start :: settle, position =>
    have length : settle.length = 10 := Nat.succ.inj position
    have tested : Leads (writeSniffer config) (At 1 0) (At (if oe config test.gpio then 4 else 3) 0)
        ((start :: (settle ++ [test])).map (Tick.cycle .write)) [] :=
      leads_chosen config (low start (by simp)) length
    rw [if_neg (by simp [chosen])] at tested
    cases after with
    | nil => exact tested.weaken (fun _ start => start) fun _ finish => .inl finish
    | cons tick after =>
      have ignored := leads_ignore config (tick.cycle .write)
      have rested : Leads (writeSniffer config) (At 0 0) (At 0 0) (after.map (Tick.cycle .write)) [] :=
        leads_rests config fun other member => low other (by simp [member])
      have path := tested.trans (ignored.cons rested)
      refine Leads.weaken (by simpa using path) (fun _ start => start) fun _ finish => .inr finish

/-- Where the program can be at its start and at the end of an access. -/
def Between (state : State) : Prop := At 1 0 state ∨ At 3 0 state ∨ At 0 0 state

theorem leads_gap (levels : Levels config true true ticks) (long : 7 ≤ ticks.length) :
    Leads (writeSniffer config) Between (At 1 0) (ticks.map (Tick.cycle .write)) [] := by
  have high tick (member : tick ∈ ticks) := (levels tick member).1
  match ticks, long with
  | first :: second :: rest, _ =>
    have ready : Leads (writeSniffer config) (At 0 0) (At 1 0) [second.cycle .write] [] :=
      leads_ready config (high second (by simp))
    have idle : Leads (writeSniffer config) (At 1 0) (At 1 0) (rest.map (Tick.cycle .write)) [] :=
      leads_idles config fun tick member => high tick (by simp [member])
    intro state between
    rcases between with armed | ignoring | resting
    · exact leads_idles config high state armed
    · exact ((leads_ignore config (first.cycle .write)).cons (ready.cons idle)) state ignoring
    · have again : Leads (writeSniffer config) (At 0 0) (At 1 0) [first.cycle .write] [] :=
        leads_ready config (high first (by simp))
      have idles : Leads (writeSniffer config) (At 1 0) (At 1 0) ((second :: rest).map (Tick.cycle .write)) [] :=
        leads_idles config fun tick member => high tick (List.mem_cons_of_mem _ member)
      exact (again.cons idles) state resting

theorem leads_access {access : Access} (timed : access.Timed config) :
    Leads (writeSniffer config) (At 1 0) Between (access.ticks.map (Tick.cycle .write))
      (access.samples config .write) := by
  cases access with
  | other ticks =>
    exact (leads_idles config timed).weaken (fun state start => start) fun state finish => .inl finish
  | writes ticks =>
    have written := leads_write config timed.1 timed.2
    exact written.weaken (fun state start => start) fun state finish => .inr (.inr finish)
  | reads first rest hold =>
    obtain ⟨⟨setup, low, _⟩, early, late, restTimed, holdLevels⟩ := timed
    have selected : ∀ tick ∈ Access.ticks (.reads first rest hold), ce config tick.gpio = false := by
      intro tick member
      simp only [Access.ticks, Pulse.ticks, List.mem_append, List.mem_flatMap] at member
      rcases member with ((inSetup | inLow) | ⟨pulse, inside, inHigh | inLow⟩) | inHold
      · exact (setup tick inSetup).1
      · exact (low tick inLow).1
      · exact ((restTimed pulse inside).1.1 tick inHigh).1
      · exact ((restTimed pulse inside).1.2.1 tick inLow).1
      · exact (holdLevels tick inHold).1
    have late' : 11 - first.high.length < first.low.length := by
      rw [Pulse.ticks, List.length_append] at late
      omega
    have split : Access.ticks (.reads first rest hold) =
        (first.high ++ first.low.take (11 - first.high.length)) ++ first.low[11 - first.high.length] ::
          (first.low.drop (11 - first.high.length + 1) ++ rest.flatMap Pulse.ticks ++ hold) := by
      have cut := List.take_append_drop (11 - first.high.length) first.low
      rw [List.drop_eq_getElem_cons late'] at cut
      rw [Access.ticks, Pulse.ticks]
      conv_lhs => rw [← cut]
      simp only [List.append_assoc, List.cons_append]
    have position : (first.high ++ first.low.take (11 - first.high.length)).length = 11 := by
      rw [List.length_append, List.length_take_of_le (Nat.le_of_lt late')]
      omega
    have read := leads_read config split position selected (low _ (List.getElem_mem late')).2
    refine read.weaken (fun state start => start) ?_
    intro state finish
    exact .inr finish

end Accesses

end WriteSniffer

/-- Whatever happens on the pins, the write sniffer delivers samples of `Q`, each
twelve cycles after it saw `CE` low and one cycle after it saw `OE` high, at most
one while `CE` stays low. -/
theorem write_sniffer_samples (config : Config) (latch : Latch) (history : List Cycle) :
    ∃ times, Samples 12 (ce config · = false) (oe config · = true) (ce config · = true) history times ∧
      ((served (writeSniffer config)).run ⟨.init, latch⟩ history).2 ++
        ((served (writeSniffer config)).run ⟨.init, latch⟩ history).1.rx ++
        held (writeSniffer config) ((served (writeSniffer config)).run ⟨.init, latch⟩ history).1 =
      times.map (sampleAt config.bootRomQ0Pin 8 history) := by
  have standing : At 0 0 ⟨.init, latch⟩ := ⟨rfl, rfl, rfl, rfl⟩
  obtain ⟨times, watching⟩ := (WriteSniffer.sampler config).watching_run standing (.inl (.inl rfl)) rfl history
  exact ⟨times, watching.samples, watching.words⟩

end Fruitchip.BootRom
