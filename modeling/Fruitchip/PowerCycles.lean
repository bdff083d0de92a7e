import Fruitchip.Proofs.FlashEffects
import Fruitchip.Menu.Writing

/-! The modchip from power-up to power-up: the bootloader, the firmware that it
starts, and a menu that writes updates and reboots the modchip. Power can be lost
at every command to the flash chip. Every firmware that is installed is taken to
be this one. -/

namespace Fruitchip
open Embedded Client Firmware

namespace Menu

/-- `reboot_mode` of the rebooting scene. -/
def UpdateType.rebootMode : UpdateType → U8
  | .fw => modchipRebootModeUpdate
  | .apps => modchipRebootModeSimple

/-- `modchip_reboot_with_retry`. -/
def Modchip.rebootWithRetry (config : Config) (mode : U8) (modchip : Modchip) : Bool × Modchip :=
  modchip.sendWithRetry config (.reboot mode)

/-- An update as the menu makes it: the writing scene, and the reboot of the
rebooting scene if that went well. -/
def installUpdate (config : Config) (updateType : UpdateType) (update : Update) (modchip : Modchip) : Modchip :=
  match sceneTickHandlerUpdateWriting config updateType update modchip with
  | (.ok (), modchip) => (modchip.rebootWithRetry config updateType.rebootMode).2
  | (.error _, modchip) => modchip

/-- Flash when power is lost in the middle of a frame, the first one behind those
that a delivery is known for. -/
def Modchip.cutFlash (config : Config) (modchip : Modchip) (heard steps : Nat) : Flash :=
  match modchip.history.reverse[heard]? with
  | some attempt => interrupt (flashOps (runCall config attempt.call modchip.world).2) steps modchip.world.flash
  | none => modchip.world.flash

end Menu

open Menu

/-- What the modchip is doing. The scratch register survives a reset by the
watchdog, RAM does not. -/
inductive Device where
  /-- Out of reset, with the bootloader about to run. -/
  | reset (flash : Flash) (scratch0 : U32)
  | running (world : World)
  /-- `reset_usb_boot`. -/
  | usbBoot (flash : Flash)

namespace Device

def flash : Device → Flash
  | .reset flash _ => flash
  | .running world => world.flash
  | .usbBoot flash => flash

/-- The watchdog resets the modchip after a reboot command. -/
def ofWorld (world : World) : Device := if world.rebooting then .reset world.flash world.scratch0 else .running world

/-- The bootloader and the start of the firmware: their flash operations and what
they come to. `none` is the panic of `settings_init`. -/
def boot (flash : Flash) (scratch0 : U32) : Option (List FlashOp × Device) :=
  let ops := Bootloader.main flash scratch0
  let flash := applyAll ops flash
  if Bootloader.tryStartFirmware flash then
    (settingsInit flash).map fun (settings, init) => (ops ++ init, .running (.powerUp (applyAll init flash) settings))
  else some (ops, .usbBoot flash)

/-- Something that happens to the modchip. A step that is cut ends with the loss
of power. -/
inductive Step where
  | boot
  | bootCut (steps : Nat)
  | call (made : Call)
  | callCut (made : Call) (steps : Nat)
  | install (updateType : UpdateType) (update : Update) (deliveries : List Delivery)
  | installCut (updateType : UpdateType) (update : Update) (deliveries : List Delivery) (steps : Nat)
  | resetButton
  | powerLoss

/-- What does not concern the modchip in its state leaves it as it is. -/
def run (config : Config) : Device → Step → Option Device
  | .reset flash scratch0, .boot => (boot flash scratch0).map (·.2)
  | .reset flash scratch0, .bootCut steps => (boot flash scratch0).map fun (ops, _) => .reset (interrupt ops steps flash) 0
  | .running world, .call made => some (.ofWorld (runCall config made world).1)
  | .running world, .callCut made steps =>
    some (.reset (interrupt (flashOps (runCall config made world).2) steps world.flash) 0)
  | .running world, .install updateType update deliveries =>
    some (.ofWorld (installUpdate config updateType update ⟨world, deliveries, []⟩).world)
  | .running world, .installCut updateType update deliveries steps =>
    some (.reset ((installUpdate config updateType update ⟨world, deliveries, []⟩).cutFlash config deliveries.length steps) 0)
  | .running world, .resetButton => some (.reset world.flash world.scratch0)
  | device, .powerLoss => some (.reset device.flash 0)
  | device, _ => some device

def runs (config : Config) : Device → List Step → Option Device
  | device, [] => some device
  | device, step :: rest => (device.run config step).bind (runs config · rest)

end Device

end Fruitchip
