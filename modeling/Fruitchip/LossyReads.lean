import Fruitchip.Fwfs
import Fruitchip.Library.ErrorBursts
import Fruitchip.Loader
import Fruitchip.Proofs.Session

/-! Reads over a bus that loses frames and answers and flips bits of the data. -/

namespace Fruitchip
open Embedded Client Firmware

/-- What becomes of one attempt to read. -/
inductive ReadDelivery where
  /-- The handlers do not get the frame, or the console nothing of the answer. -/
  | lost
  | answered
  /-- Errors in the bytes between the first and the last word of the answer. -/
  | damaged (errors : List U8)
  deriving DecidableEq, Repr

def damage (errors bytes : List U8) : List U8 :=
  bytes.take 4 ++ Crc.flip ((bytes.drop 4).take (bytes.length - 8)) errors ++ bytes.drop (4 + (bytes.length - 8))

/-- What the console reads of an answer. Without one it reads zeros. -/
def ReadDelivery.deliver (bytes : List U8) : ReadDelivery → List U8
  | .lost => []
  | .answered => bytes
  | .damaged errors => damage errors bytes

/-- The errors are short bursts. -/
def ReadDelivery.Bursts : ReadDelivery → Prop
  | .damaged errors => Crc.ErrorBurst errors
  | _ => True

/-- What is received of the data of an answer. -/
def ReadDelivery.arrived (data : List U8) : ReadDelivery → List U8
  | .damaged errors => Crc.flip data errors
  | _ => data

/-- The data get through as they were sent. -/
def ReadDelivery.Whole (data : List U8) (delivery : ReadDelivery) : Prop := delivery ≠ .lost ∧ delivery.arrived data = data

/-- The first good one of the attempts that are left, and what is left after it. -/
inductive Got (good : ReadDelivery → Prop) : Nat → List ReadDelivery → ReadDelivery → List ReadDelivery → Prop
  | here {attemps delivery rest} (fine : good delivery) : Got good (attemps + 1) (delivery :: rest) delivery rest
  | later {attemps first deliveries delivery rest} (bad : ¬ good first) (got : Got good attemps deliveries delivery rest) :
      Got good (attemps + 1) (first :: deliveries) delivery rest

/-- None of the attempts is good. What is not delivered is lost. -/
def Missed (good : ReadDelivery → Prop) (attemps : Nat) (deliveries : List ReadDelivery) : Prop :=
  ∀ index < attemps, ¬ good (deliveries.getD index .lost)

namespace Fwfs

/-- The modchip behind the reads of the driver. READ_APP changes nothing. -/
def heard (config : Config) (world : World) (deliveries : Call → Nat → ReadDelivery) : Answers
  | .appsRead offset size appIdx withCrc, attemp =>
    let call := Call.appsRead offset size appIdx withCrc
    let bytes := emit config world.flash 0 (.placeholder, 0) (runCall config call world).2
    Loader.received size.toNat ((deliveries call attemp).deliver bytes)
  | _, _ => Loader.received 0 []

end Fwfs

namespace Loader

/-- The modchip behind the reads of the loader. -/
def lossyBus (config : Config) : Bus (FirmwareState × List ReadDelivery) where
  answer offset size withCrc := fun (firmware, deliveries) =>
    let (next, events) := (machine config).run firmware (Call.stage3Read offset size withCrc).poked
    let bytes := emit config next.world.flash 0 (.placeholder, 0) events
    (received size.toNat ((deliveries.headD .lost).deliver bytes), (next, deliveries.tail))

end Loader

end Fruitchip
