import Fruitchip.LossyReads

/-! The loader on the EE up to stage 3: `__ExecPS2` of stage 1, which the
firmware puts into the kernel in place of the system call, and `__start` of
stage 2. -/

namespace Fruitchip.Loader
open Embedded Client Firmware

def eeStage1Addr : U32 := 0x001001B0

def eeStage2Addr : U32 := 0x00094000

def userMemStartAddr : U32 := 0x100000

def userMemEndAddr : U32 := 0x2000000

/-- Why the console stops. -/
inductive Stop where
  /-- What `panic` prints, and the colour of the screen. -/
  | panic (msg : String) (bgcolor : U8 × U8 × U8)
  /-- A word is loaded from an address that is not aligned. -/
  | addressError
  deriving DecidableEq

inductive PanicType where
  | cmdFailed
  | badCrc

def PanicType.bgcolor : PanicType → U8 × U8 × U8
  | .cmdFailed => (0x70, 0x00, 0x00)
  | .badCrc => (0x00, 0x00, 0x30)

/-- The EE and the modchip on its bus. -/
structure Ee where
  modchip : FirmwareState
  /-- What becomes of the next commands. -/
  deliveries : List ReadDelivery
  /-- What is left to read of the last answer. -/
  answer : List U8
  ram : Ram

abbrev EeM := StateT Ee (Except Stop)

/-! `io.h`. -/

def pokeCmd (config : Config) (cmd : Cmd) : EeM Unit := fun ee =>
  let (modchip, events) := (machine config).run ee.modchip (pokeU32 cmd.code)
  let sent := emit config modchip.world.flash 0 (.placeholder, 0) events
  .ok ((), { ee with modchip, deliveries := ee.deliveries.tail, answer := (ee.deliveries.headD .lost).deliver sent })

/-- Nothing that is left reads as zero. -/
def peekWord : EeM U32 := fun ee => .ok (wordOf ee.answer 0, { ee with answer := ee.answer.drop 4 })

def peekByte : EeM U8 := fun ee => .ok (ee.answer.headD 0, { ee with answer := ee.answer.tail })

def storeAt (dst : U32) (bytes : List U8) : EeM Unit := fun ee => .ok ((), { ee with ram := ee.ram.store dst bytes })

def peekWords (dst : U32) : Nat → EeM Unit
  | 0 => pure ()
  | count + 1 => do
    let word ← peekWord
    storeAt dst (bytes32 word)
    peekWords (dst + 4) count

def peekBytes (dst : U32) : Nat → EeM Unit
  | 0 => pure ()
  | count + 1 => do
    let byte ← peekByte
    storeAt dst [byte]
    peekBytes (dst + 1) count

def modchipPeekN (dst size : U32) : EeM Unit := do
  peekWords dst (size.toNat / 4)
  peekBytes (dst + (size - size % 4)) (size.toNat % 4)

/-- `crc32` of a range of the memory. -/
def crc32At (address size : U32) : EeM U32 := fun ee =>
  .ok (crc32 ((List.range size.toNat).map (ee.ram.object address)), ee)

def loadWord (address : U32) : EeM U32 := fun ee =>
  if address % 4 = 0 then .ok (wordAt (ee.ram.object address) 0, ee) else .error .addressError

namespace Stage1

def panic {α : Type} (msg : String) (ty : PanicType) : EeM α := fun _ => .error (.panic msg ty.bgcolor)

/-- The attempts that are left, after one that read `ret`. -/
def modchipCmd (config : Config) (cmd : Cmd) (ret : U32) : Nat → EeM U32
  | 0 => pure ret
  | attemps + 1 => do
    pokeCmd config cmd
    let ret ← peekWord
    if ret = modchipCmdResultOk then pure ret else modchipCmd config cmd ret attemps

/-- `ret` is set by the first attempt. -/
def modchipCmdOrPanic (config : Config) (cmd : Cmd) : EeM Unit := do
  let ret ← modchipCmd config cmd 0 modchipCmdRetries
  if ret = bootRomAddrValue then panic "EE1: cmd no response" .cmdFailed
  else if ret ≠ modchipCmdResultOk then panic "EE1: cmd bad crc" .cmdFailed
  else pure ()

/-- It ends with the jump to stage 2. -/
def execPS2 (config : Config) : EeM Unit := do
  modchipCmdOrPanic config .getEeStage1Size
  let eeStage1Size ← peekWord
  let eeStage1Crc ← loadWord (eeStage1Addr + eeStage1Size)
  let crc ← crc32At eeStage1Addr eeStage1Size
  if crc ≠ eeStage1Crc then panic " bad" .badCrc
  modchipCmdOrPanic config .getEeStage2Size
  let eeStage2Size ← peekWord
  modchipCmdOrPanic config .getEeStage2
  modchipPeekN eeStage2Addr eeStage2Size
  let eeStage2Crc ← peekWord
  let crc ← crc32At eeStage2Addr eeStage2Size
  if crc ≠ eeStage2Crc then panic " bad" .badCrc

end Stage1

namespace Stage2

def panic {α : Type} (msg : String) : EeM α := fun _ => .error (.panic msg (0x00, 0x40, 0x00))

/-- It ends with the call of `ExecPS2`. -/
def start (config : Config) (frame : Frame) : EeM Exec := do
  fun ee => .ok ((), { ee with
    ram := ee.ram.memset userMemStartAddr 0 (userMemEndAddr - userMemStartAddr).toNat })
  let ee ← get
  let (exec, console) := execPS2FromModchipStage3 (lossyBus config) frame 1 [""] ⟨(ee.modchip, ee.deliveries), ee.ram, []⟩
  set { ee with modchip := console.bus.1, deliveries := console.bus.2, ram := console.ram }
  match exec with
  | .ok exec => pure exec
  | .error _ => panic "EE2: exec fail"

end Stage2

/-- From the system call to `ExecPS2` of stage 3. -/
def boot (config : Config) (frame : Frame) : EeM Exec := do
  Stage1.execPS2 config
  Stage2.start config frame

end Fruitchip.Loader
