import Fruitchip.Library.Dma

/-! A channel that fills a ring, unit by unit. After the last unit its write
address is back at the start of the ring, so the next trigger fills it again. -/

namespace Embedded.Dma

variable {Ω σ : Type}

structure Ctrl.Fills (ctrl : Ctrl) (index bits : Nat) : Prop where
  en : ctrl.en = true
  dataSize : ctrl.dataSize = 0
  incrRead : ctrl.incrRead = true
  incrWrite : ctrl.incrWrite = true
  ringSize : ctrl.ringSize = bits
  some : bits ≠ 0
  ringSel : ctrl.ringSel = true
  chainTo : ctrl.chainTo = index

/-- The channel when `units` units are in place and more are to come. -/
structure Filling (channel : Channel Ω) (index bits : Nat) (source : Address Ω) (target : Ω) (units : Nat) : Prop where
  fills : channel.ctrl.Fills index bits
  inside : units < 2 ^ bits
  busy : channel.busy = true
  readAddr : channel.readAddr = ⟨source.object, source.offset + units⟩
  writeAddr : channel.writeAddr = ⟨target, units⟩
  remaining : channel.remaining = 2 ^ bits - units

/-- The channel when the ring is full. -/
def Channel.filled (channel : Channel Ω) (bits : Nat) (source : Address Ω) (target : Ω) : Channel Ω :=
  { channel with
    readAddr := ⟨source.object, source.offset + 2 ^ bits⟩
    writeAddr := ⟨target, 0⟩
    busy := false
    remaining := 0 }

/-- Runs a channel until it stops. -/
def Engine.wait (bus : Bus Ω σ) (index : Nat) : (steps : Nat) → Engine Ω σ → Option (Engine Ω σ)
  | 0, _ => none
  | steps + 1, engine =>
    if (engine.channels index).busy then (engine.step bus index).bind (wait bus index steps) else some engine

variable {bus : Bus Ω σ} {engine : Engine Ω σ} {channel : Channel Ω} {index bits units : Nat} {source : Address Ω}
  {target : Ω}

theorem Filling.start (fills : channel.ctrl.Fills index bits) (idle : channel.busy = false)
    (readAddr : channel.readAddr = source) (writeAddr : channel.writeAddr = ⟨target, 0⟩)
    (transCount : channel.transCount = 2 ^ bits) : Filling channel.triggered index bits source target 0 := by
  rw [Channel.triggered_enabled fills.en idle]
  exact ⟨fills, Nat.two_pow_pos bits, rfl, readAddr, writeAddr, transCount⟩

theorem Filling.moved (filling : Filling channel index bits source target units) :
    channel.moved = { channel with
      readAddr := ⟨source.object, source.offset + (units + 1)⟩
      writeAddr := ⟨target, (units + 1) % 2 ^ bits⟩
      remaining := 2 ^ bits - (units + 1) } := by
  have fills := filling.fills
  have whole : units - units % 2 ^ bits = 0 := by
    rw [Nat.mod_eq_of_lt filling.inside, Nat.sub_self]
  have fewer : 2 ^ bits - units - 1 = 2 ^ bits - (units + 1) := Nat.sub_sub _ _ _
  simp [Channel.moved, advance, fills.dataSize, fills.incrRead, fills.incrWrite, fills.ringSize, fills.ringSel,
    fills.some, filling.readAddr, filling.writeAddr, filling.remaining, whole, fewer, Nat.add_assoc]

/-- One unit of the copy. -/
theorem Filling.step {word : Word Ω} {memory : σ} (filling : Filling (engine.channels index) index bits source target units)
    (outside : bus.registers target = none)
    (loaded : bus.load engine.memory ⟨source.object, source.offset + units⟩ = some word)
    (stored : bus.store (bus.sniff engine.memory index (engine.channels index).ctrl word) ⟨target, units⟩ word =
      some memory) :
    ∃ next channel, engine.step bus index = some next ∧ next.memory = memory ∧
      next.channels = (engine.set index channel).channels ∧
      (Filling channel index bits source target (units + 1) ∧
          channel.filled bits source target = (engine.channels index).filled bits source target ∨
        units + 1 = 2 ^ bits ∧ channel = (engine.channels index).filled bits source target) := by
  have inside := filling.inside
  have more : (engine.channels index).remaining ≠ 0 := by
    rw [filling.remaining]
    omega
  simp only [Engine.step, filling.busy, ite_true, if_neg more, filling.readAddr, loaded, Engine.deliver,
    filling.writeAddr, outside, stored, Option.map_some]
  have moved := filling.moved
  rcases Nat.lt_or_eq_of_le (Nat.succ_le_of_lt inside) with less | last
  · have left : (engine.channels index).remaining ≠ 1 := by
      rw [filling.remaining]
      omega
    rw [if_neg left]
    refine ⟨_, (engine.channels index).moved, rfl, rfl, rfl, .inl ⟨?_, ?_⟩⟩
    · rw [moved]
      constructor
      case fills => exact filling.fills
      case inside => exact less
      case busy => exact filling.busy
      case readAddr => rfl
      case writeAddr => rw [Nat.mod_eq_of_lt less]
      case remaining => rfl
    · rw [moved]
      rfl
  · have left : (engine.channels index).remaining = 1 := by
      rw [filling.remaining]
      omega
    rw [if_pos left]
    have alone : (engine.channels index).moved.ctrl.chainTo = index := filling.fills.chainTo
    refine ⟨_, (engine.channels index).filled bits source target, rfl, ?_, ?_, .inr ⟨last, rfl⟩⟩
    · rw [Engine.finish_memory]
    · have stopped : { (engine.channels index).moved with busy := false } =
          (engine.channels index).filled bits source target := by
        have full : units + 1 = 2 ^ bits := last
        rw [moved, full, Nat.mod_self, Nat.sub_self]
        rfl
      have here {memory : σ} : (Engine.mk (engine.set index (engine.channels index).moved).channels memory).channels index =
          (engine.channels index).moved := Engine.set_channels_self engine index _
      rw [Engine.finish_self _ (by rw [here]; exact alone), here, stopped]
      refine (Engine.set_congr ?_ index _).trans (congrArg Engine.channels
        (Engine.set_set engine index (engine.channels index).moved _))
      rfl

/-- A property of the memory that each unit carries on holds of the full ring. -/
theorem Filling.run {Filled : Nat → σ → Prop} {ctrl : Ctrl} {steps : Nat} (outside : bus.registers target = none)
    (unit : ∀ units < 2 ^ bits, ∀ memory, Filled units memory → ∃ word stored,
      bus.load memory ⟨source.object, source.offset + units⟩ = some word ∧
        bus.store (bus.sniff memory index ctrl word) ⟨target, units⟩ word = some stored ∧ Filled (units + 1) stored)
    (filling : Filling (engine.channels index) index bits source target units)
    (controlled : (engine.channels index).ctrl = ctrl) (filled : Filled units engine.memory)
    (enough : 2 ^ bits - units < steps) :
    ∃ next, engine.wait bus index steps = some next ∧ Filled (2 ^ bits) next.memory ∧
      next.channels = (engine.set index ((engine.channels index).filled bits source target)).channels := by
  induction steps generalizing engine units with
  | zero => exact absurd enough (Nat.not_lt_zero _)
  | succ steps ih =>
    obtain ⟨word, memory, loaded, stored, carried⟩ := unit units filling.inside engine.memory filled
    rw [← controlled] at stored
    obtain ⟨next, channel, stepped, rfl, channels, going | ⟨full, rfl⟩⟩ := filling.step outside loaded stored
    · obtain ⟨going, same⟩ := going
      have here : next.channels index = channel := by rw [channels, Engine.set_channels_self]
      have inside := filling.inside
      have control : channel.ctrl = (engine.channels index).ctrl := by
        have filled := congrArg Channel.ctrl same
        exact filled
      obtain ⟨last, waited, done, registers⟩ := ih (here ▸ going) (by rw [here, ← controlled]; exact control) carried
        (by omega)
      refine ⟨last, ?_, done, ?_⟩
      · rw [Engine.wait, if_pos filling.busy, stepped]
        exact waited
      · rw [registers, here, same, Engine.set_congr channels, Engine.set_set]
    · rw [full] at carried
      have here : next.channels index = (engine.channels index).filled bits source target := by
        rw [channels, Engine.set_channels_self]
      refine ⟨next, ?_, carried, channels⟩
      cases steps with
      | zero => omega
      | succ steps =>
        have stopped : ¬ (next.channels index).busy = true := by
          rw [here]
          exact Bool.false_ne_true
        rw [Engine.wait, if_pos filling.busy, stepped]
        exact if_neg stopped

end Embedded.Dma
