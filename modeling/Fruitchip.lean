import Fruitchip.Proofs.FrameEffects
import Fruitchip.Proofs.SectorBounds
import Fruitchip.Proofs.WriteLock
import Fruitchip.Proofs.Reads
import Fruitchip.Proofs.Session
import Fruitchip.Proofs.AppsPartition
import Fruitchip.Proofs.SettingsDurability
import Fruitchip.Proofs.UpdateSafety
import Fruitchip.Proofs.DataOutChannels
import Fruitchip.Proofs.LostBytes
import Fruitchip.Proofs.OneShotHook
import Fruitchip.Proofs.HeaderMatch
import Fruitchip.Proofs.FwfsReads
import Fruitchip.Proofs.UpdateWriter
import Fruitchip.Proofs.OsdsysOptions
import Fruitchip.Proofs.RescueItem
import Fruitchip.Proofs.StagePayload
import Fruitchip.Proofs.SectorExact
import Fruitchip.Proofs.UpdateResult
import Fruitchip.Proofs.UpdateChecks
import Fruitchip.Proofs.UpdateRefinement
import Fruitchip.Proofs.SettingsReadback
import Fruitchip.Proofs.FwfsSeek
import Fruitchip.Proofs.FwfsAttributes
import Fruitchip.Proofs.FwfsStat
import Fruitchip.Proofs.TransferChecksum
import Fruitchip.Proofs.DataOutResponses
import Fruitchip.Proofs.Stage3Loading
import Fruitchip.Proofs.AppsList
import Fruitchip.Proofs.DecodedNames
import Fruitchip.Proofs.PinConfigSafety
import Fruitchip.Proofs.ParserTermination
import Fruitchip.Proofs.ListHilite
import Fruitchip.Proofs.BusSession
import Fruitchip.Proofs.SettingsPower
import Fruitchip.Proofs.PowerCycles
import Fruitchip.Proofs.AppsDelivery
import Fruitchip.Proofs.BootChain
