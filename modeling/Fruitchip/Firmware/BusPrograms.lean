import Fruitchip.Board
import Fruitchip.Library.Pio

/-! `boot_rom.pio`: the three programs that watch and drive the bus of the boot
ROM, and the functions of `data_out.h` that start, stop and reset them. -/

namespace Fruitchip.BootRom
open Embedded Embedded.Pio

/-- `waveshare-rp2040-tiny.cmake`. -/
def waveshareRp2040Tiny (config : Config) : Config :=
  { config with flashSize := .mb2, bootRomQ0Pin := 0, bootRomCePin := 9, bootRomOePin := 8, rstPin := 10 }

section Pins

variable (config : Config)

/-- The level of `CE`, which selects the boot ROM while it is low. -/
def ce (gpio : Word) : Bool := gpio.getLsbD config.bootRomCePin

/-- The level of `OE`, which is low while the console reads. -/
def oe (gpio : Word) : Bool := gpio.getLsbD config.bootRomOePin

/-- The byte on `Q0` to `Q7`. -/
def q (gpio : Word) : U8 := (readPins gpio config.bootRomQ0Pin 8).setWidth 8

end Pins

def bootRomByteOutIrq : Nat := 0

def bootRomReadSnifferWithLed (config : Config) : List Instruction := [
  ⟨.movOsrNull false, none, 0⟩,
  ⟨.out .pindirs 8, some false, 0⟩,
  -- `ce_high`
  ⟨.wait false config.bootRomOePin, none, 6⟩,
  ⟨.jmp .pin 2, none, 0⟩,
  -- `ce_low`
  ⟨.inPins 8, none, 0⟩,
  ⟨.wait true config.bootRomOePin, none, 0⟩]

def bootRomReadSniffer (config : Config) : List Instruction := [
  ⟨.movOsrNull false, none, 0⟩,
  ⟨.out .pindirs 8, none, 0⟩,
  -- `ce_high`
  ⟨.wait false config.bootRomOePin, none, 6⟩,
  ⟨.jmp .pin 2, none, 0⟩,
  -- `ce_low`
  ⟨.inPins 8, none, 0⟩,
  ⟨.wait true config.bootRomOePin, none, 0⟩]

def bootRomWriteSniffer (config : Config) : List Instruction := [
  -- `start`
  ⟨.wait true config.bootRomCePin, none, 0⟩,
  ⟨.wait false config.bootRomCePin, none, 10⟩,
  ⟨.jmp .pin 4, none, 0⟩,
  -- `oe_low`
  ⟨.jmp .always 0, none, 0⟩,
  -- `oe_high`
  ⟨.inPins 8, none, 0⟩]

def bootRomDataOutWithLed (config : Config) : List Instruction := [
  ⟨.movOsrNull true, some true, 0⟩,
  ⟨.out .null 24, none, 0⟩,
  -- `ce_high1`
  ⟨.wait false config.bootRomOePin, none, 0⟩,
  ⟨.jmp .pin 2, none, 0⟩,
  ⟨.out .pindirs 8, none, 0⟩,
  ⟨.pull true, none, 0⟩,
  ⟨.out .pins 8, none, 0⟩,
  ⟨.pull true, none, 0⟩,
  ⟨.wait true config.bootRomOePin, none, 0⟩,
  -- `ce_high2`
  ⟨.wait false config.bootRomOePin, none, 0⟩,
  ⟨.jmp .pin 9, none, 0⟩,
  ⟨.irq bootRomByteOutIrq, none, 0⟩]

def bootRomDataOut (config : Config) : List Instruction := [
  ⟨.movOsrNull true, none, 0⟩,
  ⟨.out .null 24, none, 0⟩,
  -- `ce_high1`
  ⟨.wait false config.bootRomOePin, none, 0⟩,
  ⟨.jmp .pin 2, none, 0⟩,
  ⟨.out .pindirs 8, none, 0⟩,
  ⟨.pull true, none, 0⟩,
  ⟨.out .pins 8, none, 0⟩,
  ⟨.pull true, none, 0⟩,
  ⟨.wait true config.bootRomOePin, none, 0⟩,
  -- `ce_high2`
  ⟨.wait false config.bootRomOePin, none, 0⟩,
  ⟨.jmp .pin 9, none, 0⟩,
  ⟨.irq bootRomByteOutIrq, none, 0⟩]

/-- `PIO_FIFO_JOIN_RX` and `PIO_FIFO_JOIN_TX` give all of the memory to one FIFO. -/
def joinedDepth : Nat := 8

theorem joinedDepth_pos : 0 < joinedDepth := Nat.zero_lt_succ 7

section Machines

variable (config : Config) (led : Option Nat)

/-- `boot_rom_read_sniffer_sm_init_and_start`. `led` is `PICO_DEFAULT_LED_PIN`. -/
def readSniffer : SmConfig where
  program := if led.isSome then bootRomReadSnifferWithLed config else bootRomReadSniffer config
  wrapTarget := 2
  wrap := 5
  inBase := config.bootRomQ0Pin
  outBase := config.bootRomQ0Pin
  outCount := 8
  sideSetBase := led.getD 0
  jmpPin := config.bootRomCePin
  inShiftRight := false
  autopush := true
  pushThreshold := 8
  outShiftRight := true
  autopull := false
  pullThreshold := 32
  rxDepth := joinedDepth
  txDepth := 0

/-- `boot_rom_write_sniffer_sm_init_and_start`. -/
def writeSniffer : SmConfig where
  program := bootRomWriteSniffer config
  wrapTarget := 0
  wrap := 4
  inBase := config.bootRomQ0Pin
  outBase := 0
  outCount := 0
  sideSetBase := 0
  jmpPin := config.bootRomOePin
  inShiftRight := false
  autopush := true
  pushThreshold := 8
  outShiftRight := true
  autopull := false
  pullThreshold := 32
  rxDepth := joinedDepth
  txDepth := 0

/-- `boot_rom_data_out_sm_init`. -/
def dataOut : SmConfig where
  program := if led.isSome then bootRomDataOutWithLed config else bootRomDataOut config
  wrapTarget := 6
  wrap := 11
  inBase := 0
  outBase := config.bootRomQ0Pin
  outCount := 8
  sideSetBase := led.getD 0
  jmpPin := config.bootRomCePin
  inShiftRight := true
  autopush := false
  pushThreshold := 32
  outShiftRight := true
  autopull := false
  pullThreshold := 8
  rxDepth := 0
  txDepth := joinedDepth

end Machines

end Fruitchip.BootRom
