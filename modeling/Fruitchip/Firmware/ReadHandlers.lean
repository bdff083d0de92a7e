import Fruitchip.Firmware.Handlers

/-! The handlers of `boot_rom/read`, which look for code among the bytes that
the console fetches from its boot ROM, and the main loop, where they share a
flag with the command handlers. -/

namespace Fruitchip.Firmware
open Embedded

/-- `read_handler`: the function that receives the next byte. -/
inductive ReadHandler where
  | idle
  | findOsdsysElf
  | findOsdsysSyscallTable
  | findIopboot
  | findIopboot2
  | findIopboot3
  deriving DecidableEq, Repr

/-- `read_handler` with the counters of `read/osdsys.c` and `read/iopboot.c`. -/
structure Reader where
  readHandler : ReadHandler
  osdsysCounter : Nat
  iopbootCounter : Nat
  deriving DecidableEq, Repr

def Reader.powerUp : Reader := ⟨.idle, 0, 0⟩

/-! `iopboot.c`. -/

/-- Nothing assigns this flag. -/
def disableNextIopbootHook : Bool := true

/-- What the cases of the three handlers compare with, by their counter. -/
def iopbootPattern : List U8 := [
  0x07, 0x00, 0x40, 0x10, 0x00, 0x00, 0x00, 0x00,
  0x21, 0x20, 0x00, 0x02, 0x21, 0x28, 0x00, 0x00, 0x21, 0x30, 0x00, 0x00,
  0x21, 0x38, 0x00, 0x00, 0x08, 0x00, 0x40, 0x00, 0x21, 0x80, 0x00, 0x00]

/-- The label `exit`. -/
def Reader.exitIopboot (reader : Reader) : Reader :=
  { reader with readHandler := .idle, iopbootCounter := 0 }

/-- A switch with the cases `first` to `last`. -/
def Reader.iopbootCase (reader : Reader) (first last : Nat) (r : U8) : Bool :=
  first ≤ reader.iopbootCounter ∧ reader.iopbootCounter ≤ last ∧
    iopbootPattern[reader.iopbootCounter]? = some r

def Reader.countIopboot (reader : Reader) : Reader :=
  { reader with iopbootCounter := reader.iopbootCounter + 1 }

def handleReadFindIopboot3 (reader : Reader) (r : U8) : Reader × List Event :=
  let reader := reader.countIopboot
  if reader.iopbootCase 20 31 r then
    if reader.iopbootCounter = 31 then
      (reader.exitIopboot, if disableNextIopbootHook then [] else [.startDataWithoutStatusCode false])
    else (reader, [])
  else (reader.exitIopboot, [])

def handleReadFindIopboot2 (reader : Reader) (r : U8) : Reader × List Event :=
  let reader := reader.countIopboot
  if reader.iopbootCase 8 19 r then
    if reader.iopbootCounter = 19 ∧ !disableNextIopbootHook then
      ({ reader with readHandler := .findIopboot3 }, [.setData .iopStage1 0])
    else (reader, [])
  else (reader.exitIopboot, [])

def handleReadFindIopboot (reader : Reader) (r : U8) : Reader :=
  let reader := reader.countIopboot
  if reader.iopbootCase 1 7 r then
    if reader.iopbootCounter = 7 then { reader with readHandler := .findIopboot2 } else reader
  else reader.exitIopboot

/-! `osdsys.c`. -/

/-- What a case of `handle_read_find_osdsys_elf` compares with. -/
def osdsysElfCase : Nat → Option U8
  | 1 => some 0x45
  | 2 => some 0x4C
  | 3 => some 0x46
  | 24 => some 0x08
  | 25 => some 0x00
  | 26 => some 0x10
  | 27 => some 0x00
  | 48 => some 0x08
  | 49 => some 0x00
  | 50 => some 0x07
  | 51 => some 0x00
  | _ => none

def handleReadFindOsdsysElf (reader : Reader) (r : U8) : Reader :=
  let counter := reader.osdsysCounter + 1
  let reset := { reader with osdsysCounter := 0 }
  if (osdsysElfCase counter).any (· ≠ r) then reset
  else if counter = 51 then { reader with osdsysCounter := 0, readHandler := .findOsdsysSyscallTable }
  else if r = 0x7F ∨ 51 < counter then reset
  else { reader with osdsysCounter := counter }

/-- The reader, `disable_next_osdsys_hook`, and what is started. -/
def handleReadFindOsdsysSyscallTable (config : Config) (reader : Reader) (disableNextOsdsysHook : Bool) (r : U8) :
    Reader × Bool × List Event :=
  let counter := reader.osdsysCounter + 1
  let reset := { reader with readHandler := .idle, osdsysCounter := 0 }
  if counter = 508 then
    if r ≠ 0x00 then (reset, disableNextOsdsysHook, [])
    else (reset, false, [.startDataWithoutStatusCode true])
  else if counter = 503 then
    if r ≠ 0xE0 then (reset, disableNextOsdsysHook, [])
    else if disableNextOsdsysHook then (reset, false, [])
    else ({ reader with osdsysCounter := counter }, disableNextOsdsysHook,
      [.setData .eeStage1 config.loaderEeStage1Size])
  else ({ reader with osdsysCounter := counter }, disableNextOsdsysHook, [])

/-! `idle.c`. -/

def handleReadIdle (reader : Reader) (r : U8) : Reader :=
  if r = 0x7F then { reader with readHandler := .findOsdsysElf }
  else if r = 0x07 then { reader with readHandler := .findIopboot }
  else reader

/-- `read_handler(byte)`. -/
def handleRead (config : Config) (reader : Reader) (disableNextOsdsysHook : Bool) (r : U8) :
    Reader × Bool × List Event :=
  match reader.readHandler with
  | .idle => (handleReadIdle reader r, disableNextOsdsysHook, [])
  | .findOsdsysElf => (handleReadFindOsdsysElf reader r, disableNextOsdsysHook, [])
  | .findOsdsysSyscallTable => handleReadFindOsdsysSyscallTable config reader disableNextOsdsysHook r
  | .findIopboot => (handleReadFindIopboot reader r, disableNextOsdsysHook, [])
  | .findIopboot2 =>
    let (reader, events) := handleReadFindIopboot2 reader r
    (reader, disableNextOsdsysHook, events)
  | .findIopboot3 =>
    let (reader, events) := handleReadFindIopboot3 reader r
    (reader, disableNextOsdsysHook, events)

/-! `main.c`. -/

/-- What the sniffers deliver: a byte fetched from the ROM, or a byte written. -/
inductive BusByte where
  | read (r : U8)
  | write (w : U8)
  deriving DecidableEq, Repr

structure Loop where
  reader : Reader
  firmware : FirmwareState

def Loop.powerUp (flash : Flash) (settings : SettingsState) : Loop := ⟨.powerUp, .powerUp flash settings⟩

def Loop.step (config : Config) (loop : Loop) : BusByte → Loop × List Event
  | .read r =>
    let (reader, disableNextOsdsysHook, events) :=
      handleRead config loop.reader loop.firmware.world.disableNextOsdsysHook r
    (⟨reader, { loop.firmware with world.disableNextOsdsysHook := disableNextOsdsysHook }⟩, events)
  | .write w =>
    let (firmware, events) := handle config loop.firmware w
    ({ loop with firmware }, events)

def mainLoop (config : Config) : Mealy Loop BusByte Event := ⟨Loop.step config⟩

end Fruitchip.Firmware
