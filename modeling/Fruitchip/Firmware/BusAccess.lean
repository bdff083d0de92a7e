import Fruitchip.Firmware.BusPrograms
import Fruitchip.Firmware.ReadHandlers
import Mathlib.Data.List.GetD

/-! What the console does on the bus, in cycles of the state machines, and how
long everything has to last for the sniffers to see it. -/

namespace Fruitchip.BootRom
open Embedded Embedded.Pio Firmware

inductive Sniffer where
  | read
  | write
  deriving DecidableEq, Repr

/-- The pins in a cycle, and the FIFO that the main loop takes a word from. -/
structure Tick where
  gpio : Word
  get : Option Sniffer
  deriving DecidableEq, Repr, Inhabited

/-- A tick as one of the sniffers sees it. -/
def Tick.cycle (sniffer : Sniffer) (tick : Tick) : Cycle := ⟨tick.gpio, tick.get = some sniffer⟩

@[simp] theorem Tick.cycle_gpio (sniffer : Sniffer) (tick : Tick) : (tick.cycle sniffer).gpio = tick.gpio := rfl

/-- One byte of a read: `OE` is high, then low. -/
structure Pulse where
  high : List Tick
  low : List Tick
  deriving DecidableEq, Repr

inductive Access where
  /-- Another device is selected. -/
  | other (ticks : List Tick)
  /-- Bytes that are read in a row while `CE` stays low. -/
  | reads (first : Pulse) (rest : List Pulse) (hold : List Tick)
  /-- Bytes that are written in a row while `CE` stays low. -/
  | writes (ticks : List Tick)
  deriving DecidableEq, Repr

/-- Nothing is selected for a while, then there is an access. -/
structure BusCycle where
  gap : List Tick
  access : Access
  deriving DecidableEq, Repr

def Pulse.ticks (pulse : Pulse) : List Tick := pulse.high ++ pulse.low

def Access.ticks : Access → List Tick
  | .other ticks => ticks
  | .reads first rest hold => first.ticks ++ rest.flatMap Pulse.ticks ++ hold
  | .writes ticks => ticks

def BusCycle.ticks (cycle : BusCycle) : List Tick := cycle.gap ++ cycle.access.ticks

section Timing

variable (config : Config)

/-- The levels of `CE` and `OE` through all ticks. -/
def Levels (ceLevel oeLevel : Bool) (ticks : List Tick) : Prop :=
  ∀ tick ∈ ticks, ce config tick.gpio = ceLevel ∧ oe config tick.gpio = oeLevel

instance (ceLevel oeLevel : Bool) (ticks : List Tick) : Decidable (Levels config ceLevel oeLevel ticks) :=
  inferInstanceAs (Decidable (∀ tick ∈ ticks, _))

/-- `OE` is low until the byte has been sampled. -/
def Pulse.Timed (pulse : Pulse) : Prop :=
  Levels config false true pulse.high ∧ Levels config false false pulse.low ∧ 9 ≤ pulse.low.length

instance (pulse : Pulse) : Decidable (pulse.Timed config) := inferInstanceAs (Decidable (_ ∧ _))

/-- A read lowers `OE` before the write sniffer looks at it. A write keeps its
first byte on the bus until it has been sampled. -/
def Access.Timed : Access → Prop
  | .other ticks => ∀ tick ∈ ticks, ce config tick.gpio = true
  | .reads first rest hold =>
    first.Timed config ∧ first.high.length ≤ 11 ∧ 11 < first.ticks.length ∧
      (∀ pulse ∈ rest, pulse.Timed config ∧ pulse.high ≠ []) ∧ Levels config false true hold
  | .writes ticks => Levels config false true ticks ∧ 13 ≤ ticks.length

instance (access : Access) : Decidable (access.Timed config) :=
  match access with
  | .other _ => inferInstanceAs (Decidable (∀ tick ∈ _, _))
  | .reads _ _ _ => inferInstanceAs (Decidable (_ ∧ _))
  | .writes _ => inferInstanceAs (Decidable (_ ∧ _))

/-- Between two accesses both sniffers get ready. -/
def BusCycle.Timed (cycle : BusCycle) : Prop :=
  Levels config true true cycle.gap ∧ 7 ≤ cycle.gap.length ∧ cycle.access.Timed config

instance (cycle : BusCycle) : Decidable (cycle.Timed config) := inferInstanceAs (Decidable (_ ∧ _))

/-- The pins in the cycle in which the read sniffer takes the byte. -/
def Pulse.sample (pulse : Pulse) : Word := readPins (pulse.low.getD 8 default).gpio config.bootRomQ0Pin 8

/-- What an access leaves in the FIFO of a sniffer. Of several bytes that are
written in a row only the first is seen. -/
def Access.samples : Sniffer → Access → List Word
  | .read, .reads first rest _ => first.sample config :: rest.map (Pulse.sample config)
  | .write, .writes ticks => [readPins (ticks.getD 12 default).gpio config.bootRomQ0Pin 8]
  | _, _ => []

def busByte (word : Word) : Sniffer → BusByte
  | .read => .read (word.setWidth 8)
  | .write => .write (word.setWidth 8)

/-- What an access is for the main loop. -/
def Access.bytes (access : Access) : List BusByte :=
  (access.samples config .read).map (busByte · .read) ++ (access.samples config .write).map (busByte · .write)

end Timing

/-- A cycle that starts a delay, the delay, a test, a sample, and the rest. -/
theorem timeline (delay : Nat) {ticks : List Tick} (long : delay + 3 ≤ ticks.length) :
    ∃ start settle test rest, settle.length = delay ∧
      ticks = start :: (settle ++ test :: ticks.getD (delay + 2) default :: rest) := by
  cases ticks with
  | nil => simp at long
  | cons start ticks =>
    simp only [List.length_cons] at long
    have atTest : delay < ticks.length := by omega
    have atSample : delay + 1 < ticks.length := by omega
    refine ⟨start, ticks.take delay, ticks[delay], ticks.drop (delay + 2), List.length_take_of_le (by omega), ?_⟩
    rw [List.getD_cons_succ, List.getD_eq_getElem _ _ atSample, ← List.drop_eq_getElem_cons atSample,
      ← List.drop_eq_getElem_cons atTest, List.take_append_drop]

end Fruitchip.BootRom
