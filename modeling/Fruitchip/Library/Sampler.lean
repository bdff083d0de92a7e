import Fruitchip.Library.Pio
import Mathlib.Data.List.Induction

/-! State machines that watch a bus: they wait until they are selected, let the
bus settle, look at another pin, and sample. In any waveform the words they push
are samples of different selections. -/

namespace Embedded.Pio

/-- What the pins showed in a cycle. -/
def Seen (what : Word → Prop) (history : List Cycle) (time : Nat) : Prop :=
  ∃ cycle, history[time]? = some cycle ∧ what cycle.gpio

/-- The `count` pins from `base` on in a cycle. -/
def sampleAt (base count : Nat) (history : List Cycle) (time : Nat) : Word :=
  readPins ((history[time]?.map Cycle.gpio).getD 0) base count

/-- Cycles in which samples were taken: `lead` cycles after `select` was seen and
one after `test` was, with `release` between a sample and the selection of the
next one. -/
structure Samples (lead : Nat) (select test release : Word → Prop) (history : List Cycle) (times : List Nat) : Prop where
  before : ∀ time ∈ times, time < history.length
  selected : ∀ time ∈ times, lead ≤ time ∧ Seen select history (time - lead)
  tested : ∀ time ∈ times, Seen test history (time - 1)
  apart : times.Pairwise fun time later =>
    ∃ between, time < between ∧ between + lead < later ∧ Seen release history between

/-- After every sample, and before a given cycle, `release` was seen. -/
def Released (release : Word → Prop) (history : List Cycle) (times : List Nat) (limit : Nat) : Prop :=
  ∀ time ∈ times, ∃ between, time < between ∧ between < limit ∧ Seen release history between

variable {lead limit base count : Nat} {select test release : Word → Prop} {history more : List Cycle}
  {times : List Nat} {time : Nat} {cycle : Cycle}

theorem Seen.append {what : Word → Prop} (seen : Seen what history time) : Seen what (history ++ more) time := by
  obtain ⟨cycle, found, shown⟩ := seen
  have inside := (List.getElem?_eq_some_iff.mp found).1
  exact ⟨cycle, by rw [List.getElem?_append_left inside, found], shown⟩

theorem Seen.last {what : Word → Prop} (shown : what cycle.gpio) : Seen what (history ++ [cycle]) history.length :=
  ⟨cycle, List.getElem?_concat_length, shown⟩

theorem Released.append (released : Released release history times limit) :
    Released release (history ++ more) times limit := by
  intro time member
  obtain ⟨between, later, earlier, seen⟩ := released time member
  exact ⟨between, later, earlier, seen.append⟩

theorem Released.later {limit' : Nat} (released : Released release history times limit) (ordered : limit ≤ limit') :
    Released release history times limit' := by
  intro time member
  obtain ⟨between, later, earlier, seen⟩ := released time member
  exact ⟨between, later, by omega, seen⟩

/-- `release` is seen in the last cycle. -/
theorem Samples.released (samples : Samples lead select test release history times) (shown : release cycle.gpio) :
    Released release (history ++ [cycle]) times (history.length + 1) := by
  intro time member
  exact ⟨history.length, samples.before time member, Nat.lt_succ_self _, .last shown⟩

theorem Samples.nil : Samples lead select test release history [] :=
  ⟨nofun, nofun, nofun, .nil⟩

theorem Samples.append (samples : Samples lead select test release history times) :
    Samples lead select test release (history ++ more) times where
  before time member := by
    have inside := samples.before time member
    rw [List.length_append]
    omega
  selected time member := ⟨(samples.selected time member).1, (samples.selected time member).2.append⟩
  tested time member := (samples.tested time member).append
  apart := samples.apart.imp fun ⟨between, later, earlier, seen⟩ => ⟨between, later, earlier, seen.append⟩

/-- Another sample, in the last cycle. -/
theorem Samples.take (samples : Samples lead select test release history times) (old : lead ≤ history.length)
    (selected : Seen select history (history.length - lead)) (tested : Seen test history (history.length - 1))
    (released : Released release history times (history.length - lead)) (cycle : Cycle) :
    Samples lead select test release (history ++ [cycle]) (times ++ [history.length]) where
  before time member := by
    rw [List.length_append, List.length_singleton]
    rcases List.mem_append.mp member with earlier | last
    · exact Nat.lt_succ_of_lt (samples.before time earlier)
    · rw [List.mem_singleton.mp last]
      exact Nat.lt_succ_self _
  selected time member := by
    rcases List.mem_append.mp member with earlier | last
    · exact ⟨(samples.selected time earlier).1, (samples.selected time earlier).2.append⟩
    · rw [List.mem_singleton.mp last]
      exact ⟨old, selected.append⟩
  tested time member := by
    rcases List.mem_append.mp member with earlier | last
    · exact (samples.tested time earlier).append
    · rw [List.mem_singleton.mp last]
      exact tested.append
  apart := by
    rw [List.pairwise_append]
    refine ⟨samples.append.apart, List.pairwise_singleton _ _, ?_⟩
    intro time member later last
    obtain ⟨between, after, earlier, seen⟩ := released time member
    rw [List.mem_singleton.mp last]
    exact ⟨between, after, by omega, seen.append⟩

theorem sampleAt_append (inside : time < history.length) :
    sampleAt base count (history ++ more) time = sampleAt base count history time := by
  rw [sampleAt, sampleAt, List.getElem?_append_left inside]

theorem sampleAt_last : sampleAt base count (history ++ [cycle]) history.length = readPins cycle.gpio base count := by
  rw [sampleAt, List.getElem?_concat_length]
  rfl

theorem Samples.map_append (samples : Samples lead select test release history times) :
    times.map (sampleAt base count (history ++ more)) = times.map (sampleAt base count history) := by
  apply List.map_congr_left
  intro time member
  exact sampleAt_append (samples.before time member)

/-- What a stalled `in` still has to push. -/
def held (config : SmConfig) (state : State) : List Word :=
  if config.pushThreshold ≤ state.isrCount then [state.isr] else []

/-- A program that samples. Its positions are those where it rests until it sees
`release`, those where it is armed and waits for `select`, the one where the bus
settles and the one that samples. -/
structure Sampler where
  config : SmConfig
  delay : Nat
  select : Word → Prop
  test : Word → Prop
  release : Word → Prop
  resting : Nat → Prop
  armed : Nat → Prop
  settling : Nat
  sampling : Nat
  manual : config.autopull = false
  positive : 0 < config.pushThreshold
  rests (gpio : Word) (state : State) (pc : Nat) : resting pc → At pc 0 state →
    (step config gpio state).rx = state.rx ∧
      ∃ next, At next 0 (step config gpio state) ∧ (resting next ∨ armed next ∧ release gpio)
  waits (gpio : Word) (state : State) (pc : Nat) : armed pc → At pc 0 state →
    (step config gpio state).rx = state.rx ∧
      ((∃ next, armed next ∧ At next 0 (step config gpio state)) ∨
        select gpio ∧ At settling delay (step config gpio state))
  tests (gpio : Word) (state : State) : At settling 0 state →
    (step config gpio state).rx = state.rx ∧
      ((∃ next, At next 0 (step config gpio state) ∧ (resting next ∨ armed next)) ∨
        test gpio ∧ At sampling 0 (step config gpio state))
  samples (gpio : Word) (state : State) : At sampling 0 state →
    if state.rx.length < config.rxDepth then
      (step config gpio state).rx = state.rx ++ [readPins gpio config.inBase config.pushThreshold] ∧
        ∃ next, resting next ∧ At next 0 (step config gpio state)
    else
      step config gpio state =
        { state with isr := readPins gpio config.inBase config.pushThreshold, isrCount := config.pushThreshold }
  holds (gpio : Word) (state : State) : state.pc = sampling → state.delay = 0 →
    state.isrCount = config.pushThreshold →
    if state.rx.length < config.rxDepth then
      (step config gpio state).rx = state.rx ++ [state.isr] ∧
        ∃ next, resting next ∧ At next 0 (step config gpio state)
    else step config gpio state = state

namespace Sampler

variable {sampler : Sampler} {history : List Cycle} {times : List Nat} {taken : List Word} {state next : State}
  {cycle : Cycle}

/-- Where the program is after a history, and what it has seen on the way. -/
inductive Phase (sampler : Sampler) (history : List Cycle) (times : List Nat) (state : State) : Prop
  | resting (pc : Nat) (rests : sampler.resting pc) (standing : At pc 0 state)
  | armed (pc : Nat) (waits : sampler.armed pc) (standing : At pc 0 state)
    (released : Released sampler.release history times history.length)
  | settling (delay : Nat) (standing : At sampler.settling delay state) (start : Nat)
    (since : start + sampler.delay + 1 = history.length + delay) (selected : Seen sampler.select history start)
    (released : Released sampler.release history times start)
  | sampling (standing : At sampler.sampling 0 state) (start : Nat)
    (since : start + (sampler.delay + 2) = history.length) (selected : Seen sampler.select history start)
    (tested : Seen sampler.test history (history.length - 1)) (released : Released sampler.release history times start)
  | holding (pc : state.pc = sampler.sampling) (delay : state.delay = 0)
    (full : state.isrCount = sampler.config.pushThreshold)

/-- What the processor takes makes no difference. -/
theorem Phase.rx (phase : Phase sampler history times state) (rx : List Word) :
    Phase sampler history times { state with rx } := by
  cases phase with
  | resting pc rests standing => exact .resting pc rests (At.stable _ _ state rx standing)
  | armed pc waits standing released => exact .armed pc waits (At.stable _ _ state rx standing) released
  | settling delay standing start since selected released =>
    exact .settling delay (At.stable _ _ state rx standing) start since selected released
  | sampling standing start since selected tested released =>
    exact .sampling (At.stable _ _ state rx standing) start since selected tested released
  | holding pc delay full => exact .holding pc delay full

/-- The words that were pushed, with the one that still has to be, are the samples. -/
structure Watching (sampler : Sampler) (history : List Cycle) (times : List Nat) (pushed : List Word) (state : State) :
    Prop where
  samples : Samples (sampler.delay + 2) sampler.select sampler.test sampler.release history times
  words : pushed ++ held sampler.config state =
    times.map (sampleAt sampler.config.inBase sampler.config.pushThreshold history)
  phase : Phase sampler history times state

theorem held_at (sampler : Sampler) {pc delay : Nat} (standing : At pc delay state) : held sampler.config state = [] := by
  have positive := sampler.positive
  rw [held, if_neg (by rw [standing.isrCount]; omega)]

theorem held_full (full : state.isrCount = sampler.config.pushThreshold) :
    held sampler.config state = [state.isr] := by
  rw [held, if_pos (Nat.le_of_eq full.symm)]

/-- A cycle without a sample. -/
theorem Watching.silent {pc delay : Nat} (watching : Watching sampler history times (taken ++ state.rx) state)
    (standing : At pc delay state) {pc' delay' : Nat} (after : At pc' delay' next) (rx : next.rx = state.rx)
    (phase : Phase sampler (history ++ [cycle]) times next) :
    ∃ times, Watching sampler (history ++ [cycle]) times (taken ++ next.rx) next := by
  refine ⟨times, watching.samples.append, ?_, phase⟩
  rw [watching.samples.map_append, ← watching.words, rx, held_at sampler standing, held_at sampler after]

theorem Watching.resting (watching : Watching sampler history times (taken ++ state.rx) state) {pc : Nat}
    (rests : sampler.resting pc) (standing : At pc 0 state) (cycle : Cycle) :
    ∃ times, Watching sampler (history ++ [cycle]) times (taken ++ (step sampler.config cycle.gpio state).rx)
      (step sampler.config cycle.gpio state) := by
  obtain ⟨rx, next, after, place⟩ := sampler.rests cycle.gpio state pc rests standing
  rcases place with rests | ⟨waits, released⟩
  · exact watching.silent standing after rx (.resting next rests after)
  · refine watching.silent standing after rx (.armed next waits after ?_)
    rw [List.length_append]
    exact watching.samples.released released

theorem Watching.armed (watching : Watching sampler history times (taken ++ state.rx) state) {pc : Nat}
    (waits : sampler.armed pc) (standing : At pc 0 state)
    (released : Released sampler.release history times history.length) (cycle : Cycle) :
    ∃ times, Watching sampler (history ++ [cycle]) times (taken ++ (step sampler.config cycle.gpio state).rx)
      (step sampler.config cycle.gpio state) := by
  obtain ⟨rx, place⟩ := sampler.waits cycle.gpio state pc waits standing
  rcases place with ⟨next, waits, after⟩ | ⟨selected, after⟩
  · refine watching.silent standing after rx (.armed next waits after ?_)
    apply released.append.later
    simp
  · refine watching.silent standing after rx (.settling _ after history.length ?_ (.last selected) released.append)
    rw [List.length_append, List.length_singleton]
    omega

theorem Watching.settling (watching : Watching sampler history times (taken ++ state.rx) state) {delay start : Nat}
    (standing : At sampler.settling delay state) (since : start + sampler.delay + 1 = history.length + delay)
    (selected : Seen sampler.select history start) (released : Released sampler.release history times start)
    (cycle : Cycle) :
    ∃ times, Watching sampler (history ++ [cycle]) times (taken ++ (step sampler.config cycle.gpio state).rx)
      (step sampler.config cycle.gpio state) := by
  have inside : start < history.length := by
    obtain ⟨_, found, _⟩ := selected
    exact (List.getElem?_eq_some_iff.mp found).1
  cases delay with
  | succ delay =>
    rw [step_delay sampler.manual (by rw [standing.delay]; omega)]
    have after : At sampler.settling delay { state with delay := state.delay - 1 } :=
      ⟨standing.pc, by rw [standing.delay, Nat.add_sub_cancel], standing.isr, standing.isrCount⟩
    refine watching.silent standing after rfl (.settling delay after start ?_ selected.append released.append)
    rw [List.length_append, List.length_singleton]
    omega
  | zero =>
    obtain ⟨rx, place⟩ := sampler.tests cycle.gpio state standing
    rcases place with ⟨next, after, rests | waits⟩ | ⟨tested, after⟩
    · exact watching.silent standing after rx (.resting next rests after)
    · refine watching.silent standing after rx (.armed next waits after ?_)
      apply released.append.later
      rw [List.length_append]
      omega
    · refine watching.silent standing after rx (.sampling after start ?_ selected.append ?_ released.append)
      · rw [List.length_append, List.length_singleton]
        omega
      · rw [List.length_append, List.length_singleton, Nat.add_sub_cancel]
        exact .last tested

/-- The cycle of the sample. -/
theorem Watching.sampling (watching : Watching sampler history times (taken ++ state.rx) state) {start : Nat}
    (standing : At sampler.sampling 0 state) (since : start + (sampler.delay + 2) = history.length)
    (selected : Seen sampler.select history start) (tested : Seen sampler.test history (history.length - 1))
    (released : Released sampler.release history times start) (cycle : Cycle) :
    ∃ times, Watching sampler (history ++ [cycle]) times (taken ++ (step sampler.config cycle.gpio state).rx)
      (step sampler.config cycle.gpio state) := by
  have lead : start = history.length - (sampler.delay + 2) := by omega
  subst lead
  have samples := watching.samples.take (by omega) selected tested released cycle
  have words := watching.words
  rw [held_at sampler standing, List.append_nil, ← watching.samples.map_append] at words
  have sampled := sampler.samples cycle.gpio state standing
  split at sampled
  · obtain ⟨rx, next, rests, after⟩ := sampled
    refine ⟨times ++ [history.length], samples, ?_, .resting next rests after⟩
    rw [List.map_append, List.map_singleton, sampleAt_last, ← words, rx, held_at sampler after, List.append_nil,
      List.append_assoc]
  · rw [sampled]
    refine ⟨times ++ [history.length], samples, ?_, .holding standing.pc standing.delay rfl⟩
    rw [List.map_append, List.map_singleton, sampleAt_last, ← words, held_full (by rfl)]

theorem Watching.holding (watching : Watching sampler history times (taken ++ state.rx) state)
    (pc : state.pc = sampler.sampling) (delay : state.delay = 0) (full : state.isrCount = sampler.config.pushThreshold)
    (cycle : Cycle) :
    ∃ times, Watching sampler (history ++ [cycle]) times (taken ++ (step sampler.config cycle.gpio state).rx)
      (step sampler.config cycle.gpio state) := by
  have words := watching.words
  rw [held_full full, ← watching.samples.map_append] at words
  have pushed := sampler.holds cycle.gpio state pc delay full
  split at pushed
  · obtain ⟨rx, next, rests, after⟩ := pushed
    refine ⟨times, watching.samples.append, ?_, .resting next rests after⟩
    rw [← words, rx, held_at sampler after, List.append_nil, List.append_assoc]
  · rw [pushed]
    exact ⟨times, watching.samples.append, by rw [← words, held_full full], .holding pc delay full⟩

theorem Watching.step (watching : Watching sampler history times (taken ++ state.rx) state) (cycle : Cycle) :
    ∃ times, Watching sampler (history ++ [cycle]) times (taken ++ (step sampler.config cycle.gpio state).rx)
      (step sampler.config cycle.gpio state) := by
  cases watching.phase with
  | resting pc rests standing => exact watching.resting rests standing cycle
  | armed pc waits standing released => exact watching.armed waits standing released cycle
  | settling delay standing start since selected released =>
    exact watching.settling standing since selected released cycle
  | sampling standing start since selected tested released =>
    exact watching.sampling standing since selected tested released cycle
  | holding pc delay full => exact watching.holding pc delay full cycle

/-- What a run from an armed position has pushed. -/
theorem watching_run (sampler : Sampler) {start : State} {pc : Nat} (standing : At pc 0 start)
    (place : sampler.resting pc ∨ sampler.armed pc) (empty : start.rx = []) (history : List Cycle) :
    ∃ times, Watching sampler history times
      (((served sampler.config).run start history).2 ++ ((served sampler.config).run start history).1.rx)
      ((served sampler.config).run start history).1 := by
  induction history using List.reverseRecOn with
  | nil =>
    refine ⟨[], .nil, ?_, ?_⟩
    · rw [Mealy.run_nil, held_at sampler standing, empty]
      rfl
    · rcases place with rests | waits
      · exact .resting pc rests standing
      · exact .armed pc waits standing nofun
  | append_singleton history cycle ih =>
    obtain ⟨times, watching⟩ := ih
    rw [Mealy.run_concat]
    generalize (served sampler.config).run start history = before at watching ⊢
    obtain ⟨times, watching⟩ := watching.step cycle
    obtain ⟨rx, taken, served, kept⟩ := served_step sampler.config before.1 cycle
    refine ⟨times, ?_⟩
    rw [served, List.append_assoc, kept]
    exact ⟨watching.samples, watching.words, watching.phase.rx rx⟩

end Sampler

end Embedded.Pio
