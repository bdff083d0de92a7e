import Fruitchip.Firmware.BusAccess
import Fruitchip.Library.Sampler

/-! The read sniffer, cycle by cycle. -/

namespace Fruitchip.BootRom
open Embedded Embedded.Pio Firmware

variable {config : Config} {led : Option Nat} {gpio : Word} {state : State}

namespace ReadSniffer

theorem fetch (config : Config) (led : Option Nat) (pc : Nat) (loop : 2 ≤ pc) :
    (readSniffer config led).program[pc]? = (bootRomReadSniffer config)[pc]? := by
  unfold readSniffer bootRomReadSnifferWithLed bootRomReadSniffer
  match pc, loop with
  | pc + 2, _ => split <;> rfl

theorem step_first (pc : state.pc = 0) (delay : state.delay = 0) :
    step (readSniffer config led) gpio state = { state with pc := 1, osr := 0, osrCount := 0 } := by
  have fetched : (readSniffer config led).program[state.pc]? = some ⟨.movOsrNull false, none, 0⟩ := by
    rw [pc]
    unfold readSniffer
    dsimp only
    split <;> rfl
  rw [step_execute rfl delay fetched]
  simp [Pio.execute, advance, State.drive, pc, delay, readSniffer]

theorem step_second (pc : state.pc = 1) (delay : state.delay = 0) :
    (step (readSniffer config led) gpio state).toCore =
      { state.toCore with pc := 2, osr := state.osr >>> 8, osrCount := min 32 (state.osrCount + 8) } ∧
    (step (readSniffer config led) gpio state).latch.pindirs =
      setPins state.latch.pindirs config.bootRomQ0Pin 8 (state.osr &&& lowBits 8) := by
  have fetched : (readSniffer config led).program[state.pc]? =
      some ⟨.out .pindirs 8, if led.isSome then some false else none, 0⟩ := by
    rw [pc]
    unfold readSniffer
    dsimp only
    split <;> rfl
  rw [step_execute rfl delay fetched]
  cases led <;>
    simp [Pio.execute, advance, State.drive, State.shiftOut, State.shiftedOut, State.write, State.refill, pc, delay,
      readSniffer]

/-- `ce_high`: the cycle in which `OE` is low is followed by a delay. -/
theorem step_armed (pc : state.pc = 2) (delay : state.delay = 0) :
    step (readSniffer config led) gpio state = if oe config gpio then state else { state with pc := 3, delay := 6 } := by
  have fetched : (readSniffer config led).program[state.pc]? = some ⟨.wait false config.bootRomOePin, none, 6⟩ := by
    rw [fetch config led _ (by omega), pc]
    rfl
  rw [step_execute rfl delay fetched]
  unfold oe
  cases level : gpio.getLsbD config.bootRomOePin <;> simp [Pio.execute, advance, State.drive, level, pc, readSniffer]

theorem step_settled (pc : state.pc = 3) (delay : state.delay = 0) :
    step (readSniffer config led) gpio state = { state with pc := if ce config gpio then 2 else 4 } := by
  have fetched : (readSniffer config led).program[state.pc]? = some ⟨.jmp .pin 2, none, 0⟩ := by
    rw [fetch config led _ (by omega), pc]
    rfl
  rw [step_execute rfl delay fetched]
  unfold ce
  cases level : gpio.getLsbD config.bootRomCePin <;>
    simp [Pio.execute, advance, State.drive, Condition.holds, level, pc, delay, readSniffer]

theorem step_sampling (pc : state.pc = 4) (delay : state.delay = 0) (empty : state.isr = 0)
    (unshifted : state.isrCount = 0) :
    step (readSniffer config led) gpio state =
      if state.rx.length < joinedDepth then
        { state with pc := 5, rx := state.rx ++ [readPins gpio config.bootRomQ0Pin 8] }
      else { state with isr := readPins gpio config.bootRomQ0Pin 8, isrCount := 8 } := by
  have fetched : (readSniffer config led).program[state.pc]? = some ⟨.inPins 8, none, 0⟩ := by
    rw [fetch config led _ (by omega), pc]
    rfl
  have sampled : Pio.execute (readSniffer config led) gpio state (.inPins 8) =
      if state.rx.length < joinedDepth then
        ({ state with rx := state.rx ++ [readPins gpio config.bootRomQ0Pin 8] }, .next)
      else ({ state with isr := readPins gpio config.bootRomQ0Pin 8, isrCount := 8 }, .stall) :=
    execute_in rfl rfl rfl (by decide) (by decide) empty unshifted
  rw [step_execute rfl delay fetched, State.drive, sampled]
  by_cases room : state.rx.length < joinedDepth <;> simp [room, advance, pc, delay, readSniffer]

theorem step_holding (pc : state.pc = 4) (delay : state.delay = 0) (full : state.isrCount = 8) :
    step (readSniffer config led) gpio state =
      if state.rx.length < joinedDepth then
        { state with pc := 5, isr := 0, isrCount := 0, rx := state.rx ++ [state.isr] }
      else state := by
  have fetched : (readSniffer config led).program[state.pc]? = some ⟨.inPins 8, none, 0⟩ := by
    rw [fetch config led _ (by omega), pc]
    rfl
  have held : Pio.execute (readSniffer config led) gpio state (.inPins 8) =
      if state.rx.length < joinedDepth then
        ({ state with isr := 0, isrCount := 0, rx := state.rx ++ [state.isr] }, .next)
      else (state, .stall) :=
    execute_held rfl (Nat.le_of_eq full.symm) 8
  rw [step_execute rfl delay fetched, State.drive, held]
  by_cases room : state.rx.length < joinedDepth <;> simp [room, advance, pc, delay, readSniffer]

theorem step_sampled (pc : state.pc = 5) (delay : state.delay = 0) :
    step (readSniffer config led) gpio state = if oe config gpio then { state with pc := 2 } else state := by
  have fetched : (readSniffer config led).program[state.pc]? = some ⟨.wait true config.bootRomOePin, none, 0⟩ := by
    rw [fetch config led _ (by omega), pc]
    rfl
  rw [step_execute rfl delay fetched]
  unfold oe
  cases level : gpio.getLsbD config.bootRomOePin <;> simp [Pio.execute, advance, State.drive, level, pc, delay, readSniffer]

def sampler (config : Config) (led : Option Nat) : Sampler where
  config := readSniffer config led
  delay := 6
  select := (oe config · = false)
  test := (ce config · = false)
  release := (oe config · = true)
  resting pc := pc = 5
  armed pc := pc < 3
  settling := 3
  sampling := 4
  manual := rfl
  positive := joinedDepth_pos
  rests gpio state pc rests standing := by
    rw [step_sampled (standing.pc.trans rests) standing.delay]
    cases level : oe config gpio with
    | false => exact ⟨rfl, pc, standing, .inl rests⟩
    | true => exact ⟨rfl, 2, ⟨rfl, standing.delay, standing.isr, standing.isrCount⟩, .inr ⟨by decide, rfl⟩⟩
  waits gpio state pc waits standing := by
    match pc, waits with
    | 0, _ =>
      rw [step_first standing.pc standing.delay]
      exact ⟨rfl, .inl ⟨1, by decide, rfl, standing.delay, standing.isr, standing.isrCount⟩⟩
    | 1, _ =>
      obtain ⟨core, _⟩ := @step_second config led gpio state standing.pc standing.delay
      generalize step (readSniffer config led) gpio state = next at core ⊢
      obtain ⟨next, latch⟩ := next
      dsimp only at core
      subst core
      exact ⟨rfl, .inl ⟨2, by decide, rfl, standing.delay, standing.isr, standing.isrCount⟩⟩
    | 2, _ =>
      rw [step_armed standing.pc standing.delay]
      cases level : oe config gpio with
      | true => exact ⟨rfl, .inl ⟨2, by decide, standing⟩⟩
      | false => exact ⟨rfl, .inr ⟨rfl, rfl, rfl, standing.isr, standing.isrCount⟩⟩
  tests gpio state standing := by
    rw [step_settled standing.pc standing.delay]
    cases level : ce config gpio with
    | true => exact ⟨rfl, .inl ⟨2, ⟨rfl, standing.delay, standing.isr, standing.isrCount⟩, .inr (by decide)⟩⟩
    | false => exact ⟨rfl, .inr ⟨rfl, rfl, standing.delay, standing.isr, standing.isrCount⟩⟩
  samples gpio state standing := by
    rw [step_sampling standing.pc standing.delay standing.isr standing.isrCount]
    by_cases room : state.rx.length < joinedDepth
    · rw [if_pos room, if_pos (by exact room)]
      exact ⟨rfl, 5, rfl, rfl, standing.delay, standing.isr, standing.isrCount⟩
    · rw [if_neg room, if_neg (by exact room)]
      rfl
  holds gpio state pc delay full := by
    rw [step_holding pc delay full]
    by_cases room : state.rx.length < joinedDepth
    · rw [if_pos room, if_pos (by exact room)]
      exact ⟨rfl, 5, rfl, rfl, delay, rfl, rfl⟩
    · rw [if_neg room, if_neg (by exact room)]

section Accesses

variable (config : Config) (led : Option Nat) {cycle : Cycle} {ticks : List Tick}

theorem leads_idle (high : oe config cycle.gpio = true) : Leads (readSniffer config led) (At 2 0) (At 2 0) [cycle] [] := by
  apply leads_step (At.stable _ _)
  intro state standing _
  rw [step_armed standing.pc standing.delay, if_pos high]
  exact ⟨standing, by simp⟩

theorem leads_arm (low : oe config cycle.gpio = false) : Leads (readSniffer config led) (At 2 0) (At 3 6) [cycle] [] := by
  apply leads_step (At.stable _ _)
  intro state standing _
  rw [step_armed standing.pc standing.delay, low]
  exact ⟨⟨rfl, rfl, standing.isr, standing.isrCount⟩, by simp⟩

theorem leads_test (cycle : Cycle) :
    Leads (readSniffer config led) (At 3 0) (At (if ce config cycle.gpio then 2 else 4) 0) [cycle] [] := by
  apply leads_step (At.stable _ _)
  intro state standing _
  rw [step_settled standing.pc standing.delay]
  exact ⟨⟨rfl, standing.delay, standing.isr, standing.isrCount⟩, by simp⟩

theorem leads_sample (cycle : Cycle) :
    Leads (readSniffer config led) (At 4 0) (At 5 0) [cycle]
      [readPins cycle.gpio config.bootRomQ0Pin 8] := by
  apply leads_step (At.stable _ _)
  intro state standing room
  rw [step_sampling standing.pc standing.delay standing.isr standing.isrCount, if_pos (by exact room)]
  exact ⟨⟨rfl, standing.delay, standing.isr, standing.isrCount⟩, rfl⟩

theorem leads_hold (low : oe config cycle.gpio = false) : Leads (readSniffer config led) (At 5 0) (At 5 0) [cycle] [] := by
  apply leads_step (At.stable _ _)
  intro state standing _
  rw [step_sampled standing.pc standing.delay, low]
  exact ⟨standing, by simp⟩

theorem leads_release (high : oe config cycle.gpio = true) :
    Leads (readSniffer config led) (At 5 0) (At 2 0) [cycle] [] := by
  apply leads_step (At.stable _ _)
  intro state standing _
  rw [step_sampled standing.pc standing.delay, if_pos high]
  exact ⟨⟨rfl, standing.delay, standing.isr, standing.isrCount⟩, by simp⟩

theorem leads_idles (high : ∀ tick ∈ ticks, oe config tick.gpio = true) :
    Leads (readSniffer config led) (At 2 0) (At 2 0) (ticks.map (Tick.cycle .read)) [] := by
  apply leads_stay
  intro cycle member
  obtain ⟨tick, inside, rfl⟩ := List.mem_map.mp member
  exact leads_idle config led (high tick inside)

theorem leads_holds (low : ∀ tick ∈ ticks, oe config tick.gpio = false) :
    Leads (readSniffer config led) (At 5 0) (At 5 0) (ticks.map (Tick.cycle .read)) [] := by
  apply leads_stay
  intro cycle member
  obtain ⟨tick, inside, rfl⟩ := List.mem_map.mp member
  exact leads_hold config led (low tick inside)

theorem leads_low (levels : Levels config false false ticks) (long : 9 ≤ ticks.length) :
    Leads (readSniffer config led) (At 2 0) (At 5 0)
      (ticks.map (Tick.cycle .read)) [readPins (ticks.getD 8 default).gpio config.bootRomQ0Pin 8] := by
  obtain ⟨start, settle, test, rest, length, split⟩ := timeline 6 long
  generalize ticks.getD 8 default = sample at split ⊢
  subst split
  have selected tick (member : tick ∈ start :: (settle ++ test :: sample :: rest)) := (levels tick member).2
  have chosen : ce config test.gpio = false := (levels test (by simp)).1
  have started : Leads (readSniffer config led) (At 2 0) (At 3 6) [start.cycle .read] [] :=
    leads_arm config led (selected start (by simp))
  have settled : Leads (readSniffer config led) (At 3 6) (At 3 0) (settle.map (Tick.cycle .read)) [] :=
    leads_delay rfl 3 (by rw [List.length_map, length])
  have tested := leads_test config led (test.cycle .read)
  rw [if_neg (by simp [Tick.cycle, chosen])] at tested
  have sampled := leads_sample config led (sample.cycle .read)
  have held : Leads (readSniffer config led) (At 5 0) (At 5 0) (rest.map (Tick.cycle .read)) [] :=
    leads_holds config led fun tick member => selected tick (by simp [member])
  have waited := (started.cons settled).trans tested
  simpa using waited.trans (sampled.cons held)

theorem leads_pulse {pulse : Pulse} (timed : pulse.Timed config) :
    Leads (readSniffer config led) (At 2 0) (At 5 0)
      (pulse.ticks.map (Tick.cycle .read)) [pulse.sample config] := by
  obtain ⟨high, low, long⟩ := timed
  have setup : Leads (readSniffer config led) (At 2 0) (At 2 0) (pulse.high.map (Tick.cycle .read)) [] :=
    leads_idles config led fun tick member => (high tick member).2
  have sampled := leads_low config led low long
  rw [Pulse.ticks, List.map_append]
  exact setup.trans sampled

theorem leads_next {pulse : Pulse} (timed : pulse.Timed config) (apart : pulse.high ≠ []) :
    Leads (readSniffer config led) (At 5 0) (At 5 0)
      (pulse.ticks.map (Tick.cycle .read)) [pulse.sample config] := by
  obtain ⟨high, low, long⟩ := timed
  obtain ⟨first, rest, split⟩ := List.exists_cons_of_ne_nil apart
  rw [split] at high
  have released : Leads (readSniffer config led) (At 5 0) (At 2 0) [first.cycle .read] [] :=
    leads_release config led (high first List.mem_cons_self).2
  have setup : Leads (readSniffer config led) (At 2 0) (At 2 0) (rest.map (Tick.cycle .read)) [] :=
    leads_idles config led fun tick member => (high tick (List.mem_cons_of_mem _ member)).2
  have sampled := leads_low config led low long
  rw [Pulse.ticks, split, List.map_append]
  exact (released.cons setup).trans sampled

theorem leads_pulses {pulses : List Pulse} (timed : ∀ pulse ∈ pulses, pulse.Timed config ∧ pulse.high ≠ []) :
    Leads (readSniffer config led) (At 5 0) (At 5 0) ((pulses.flatMap Pulse.ticks).map (Tick.cycle .read))
      (pulses.map (Pulse.sample config)) := by
  induction pulses with
  | nil => exact .refl
  | cons pulse pulses ih =>
    obtain ⟨first, apart⟩ := timed pulse List.mem_cons_self
    have one := leads_next config led first apart
    have later := ih fun other member => timed other (List.mem_cons_of_mem _ member)
    rw [List.flatMap_cons, List.map_append]
    exact one.trans later

theorem leads_first (cycle : Cycle) : Leads (readSniffer config led) (At 0 0) (At 1 0) [cycle] [] := by
  apply leads_step (At.stable _ _)
  intro state standing _
  rw [step_first standing.pc standing.delay, List.append_nil]
  exact ⟨⟨rfl, standing.delay, standing.isr, standing.isrCount⟩, rfl⟩

theorem leads_second (cycle : Cycle) : Leads (readSniffer config led) (At 1 0) (At 2 0) [cycle] [] := by
  apply leads_step (At.stable _ _)
  intro state standing _
  obtain ⟨core, _⟩ := @step_second config led cycle.gpio state standing.pc standing.delay
  generalize step (readSniffer config led) cycle.gpio state = next at core ⊢
  obtain ⟨next, latch⟩ := next
  dsimp only at core
  subst core
  exact ⟨⟨rfl, standing.delay, standing.isr, standing.isrCount⟩, (List.append_nil _).symm⟩

/-- Where the program can be at its start and at the end of an access. -/
def Between (state : State) : Prop :=
  At 0 0 state ∨ At 2 0 state ∨ (∃ delay ≤ 6, At 3 delay state) ∨ At 5 0 state

theorem leads_gap (levels : Levels config true true ticks) (long : 7 ≤ ticks.length) :
    Leads (readSniffer config led) Between (At 2 0) (ticks.map (Tick.cycle .read)) [] := by
  intro state between
  rcases between with starting | armed | ⟨delay, small, settling⟩ | sampled
  · match ticks, long with
    | first :: second :: rest, _ =>
      have idle : Leads (readSniffer config led) (At 2 0) (At 2 0) (rest.map (Tick.cycle .read)) [] :=
        leads_idles config led fun tick member => (levels tick (by simp [member])).2
      have started := (leads_first config led (first.cycle .read)).cons
        ((leads_second config led (second.cycle .read)).cons idle)
      exact started state starting
  · exact leads_idles config led (fun tick member => (levels tick member).2) state armed
  · have inside : delay < ticks.length := by omega
    have split : ticks = ticks.take delay ++ ticks[delay] :: ticks.drop (delay + 1) := by
      rw [← List.drop_eq_getElem_cons inside, List.take_append_drop]
    have settled : Leads (readSniffer config led) (At 3 delay) (At 3 0) ((ticks.take delay).map (Tick.cycle .read)) [] :=
      leads_delay rfl 3 (by rw [List.length_map, List.length_take_of_le (Nat.le_of_lt inside)])
    have tested := leads_test config led (ticks[delay].cycle .read)
    rw [if_pos (by exact (levels _ (List.getElem_mem inside)).1)] at tested
    have idle : Leads (readSniffer config led) (At 2 0) (At 2 0) ((ticks.drop (delay + 1)).map (Tick.cycle .read)) [] :=
      leads_idles config led fun tick member => (levels tick (List.mem_of_mem_drop member)).2
    have path := settled.trans (tested.cons idle)
    rw [← List.map_cons, ← List.map_append, ← split] at path
    exact path state settling
  · cases ticks with
    | nil => simp at long
    | cons first rest =>
      have released : Leads (readSniffer config led) (At 5 0) (At 2 0) [first.cycle .read] [] :=
        leads_release config led (levels first List.mem_cons_self).2
      have idle : Leads (readSniffer config led) (At 2 0) (At 2 0) (rest.map (Tick.cycle .read)) [] :=
        leads_idles config led fun tick member => (levels tick (List.mem_cons_of_mem _ member)).2
      exact released.cons idle state sampled

/-- Another device is selected: the program looks at `CE` again and again. -/
theorem leads_other (deselected : ∀ tick ∈ ticks, ce config tick.gpio = true) :
    Leads (readSniffer config led) (fun state => At 2 0 state ∨ ∃ delay ≤ 6, At 3 delay state)
      (fun state => At 2 0 state ∨ ∃ delay ≤ 6, At 3 delay state) (ticks.map (Tick.cycle .read)) [] := by
  apply leads_stay
  intro cycle member
  obtain ⟨tick, inside, rfl⟩ := List.mem_map.mp member
  have high := deselected tick inside
  apply leads_step
  · intro state rx loops
    rcases loops with armed | ⟨delay, small, settling⟩
    · exact .inl (At.stable _ _ state rx armed)
    · exact .inr ⟨delay, small, At.stable _ _ state rx settling⟩
  · intro state loops _
    rcases loops with armed | ⟨delay, small, settling⟩
    · rw [step_armed armed.pc armed.delay, List.append_nil]
      split
      · exact ⟨.inl armed, rfl⟩
      · exact ⟨.inr ⟨6, Nat.le_refl 6, rfl, rfl, armed.isr, armed.isrCount⟩, rfl⟩
    · cases delay with
      | zero =>
        rw [step_settled settling.pc settling.delay, if_pos (by exact high), List.append_nil]
        exact ⟨.inl ⟨rfl, settling.delay, settling.isr, settling.isrCount⟩, rfl⟩
      | succ delay =>
        rw [step_delay rfl (by rw [settling.delay]; omega), List.append_nil]
        refine ⟨.inr ⟨delay, by omega, settling.pc, ?_, settling.isr, settling.isrCount⟩, rfl⟩
        simp [settling.delay]

theorem leads_access {access : Access} (timed : access.Timed config) :
    Leads (readSniffer config led) (At 2 0) Between (access.ticks.map (Tick.cycle .read))
      (access.samples config .read) := by
  cases access with
  | other ticks =>
    refine (leads_other config led timed).weaken (fun state start => .inl start) ?_
    intro state finish
    rcases finish with armed | settling
    · exact .inr (.inl armed)
    · exact .inr (.inr (.inl settling))
  | writes ticks =>
    have idle := leads_idles config led fun tick member => (timed.1 tick member).2
    exact idle.weaken (fun state start => start) fun state finish => .inr (.inl finish)
  | reads first rest hold =>
    obtain ⟨firstTimed, _, _, restTimed, holdLevels⟩ := timed
    have one := leads_pulse config led firstTimed
    have more := leads_pulses config led restTimed
    have held : Leads (readSniffer config led) (At 5 0) Between (hold.map (Tick.cycle .read)) [] := by
      cases hold with
      | nil => exact Leads.refl.weaken (fun _ start => start) fun _ finish => .inr (.inr (.inr finish))
      | cons tick hold =>
        have released : Leads (readSniffer config led) (At 5 0) (At 2 0) [tick.cycle .read] [] :=
          leads_release config led (holdLevels tick List.mem_cons_self).2
        have idle : Leads (readSniffer config led) (At 2 0) (At 2 0) (hold.map (Tick.cycle .read)) [] :=
          leads_idles config led fun other member => (holdLevels other (List.mem_cons_of_mem _ member)).2
        exact (released.cons idle).weaken (fun _ start => start) fun _ finish => .inr (.inl finish)
    have path := (one.trans more).trans held
    rw [← List.map_append, ← List.map_append, List.append_nil] at path
    exact path

end Accesses

end ReadSniffer

/-- Whatever happens on the pins, the read sniffer delivers samples of `Q`, each
eight cycles after it saw `OE` low and one cycle after it saw `CE` low, at most
one while `OE` stays low. -/
theorem read_sniffer_samples (config : Config) (led : Option Nat) (latch : Latch) (history : List Cycle) :
    ∃ times, Samples 8 (oe config · = false) (ce config · = false) (oe config · = true) history times ∧
      ((served (readSniffer config led)).run ⟨.init, latch⟩ history).2 ++
        ((served (readSniffer config led)).run ⟨.init, latch⟩ history).1.rx ++
        held (readSniffer config led) ((served (readSniffer config led)).run ⟨.init, latch⟩ history).1 =
      times.map (sampleAt config.bootRomQ0Pin 8 history) := by
  have standing : At 0 0 ⟨.init, latch⟩ := ⟨rfl, rfl, rfl, rfl⟩
  obtain ⟨times, watching⟩ :=
    (ReadSniffer.sampler config led).watching_run standing (.inr (Nat.zero_lt_succ 2)) rfl history
  exact ⟨times, watching.samples, watching.words⟩

end Fruitchip.BootRom
