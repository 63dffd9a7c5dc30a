import AlpSdk.UpdateLog.History
import AlpSdk.UpdateLog.AnchorFloor
import AlpSdk.UpdateLog.Progress
import AlpSdk.UpdateLog.Tamper
import AlpSdk.UpdateLog.Tiers.Theorems
import AlpSdk.UpdateLog.Mailbox.Theorems
import AlpSdk.Uart.Theorems
import AlpSdk.Mqtt.Progress
import AlpSdk.Ble.Theorems
import AlpSdk.Orchestrate.Carveout.Mram
import AlpSdk.Orchestrate.Carveout.Identity
import AlpSdk.Orchestrate.Partition.Refused
import AlpSdk.Orchestrate.Partition.Aliases
import AlpSdk.Orchestrate.Partition.Stability
import AlpSdk.Orchestrate.FirstFree
import AlpSdk.Gd32.Negotiated
import AlpSdk.Gd32.Termination
import AlpSdk.Gd32.Bridge.Leftover
import AlpSdk.Gd32.Rules
import AlpSdk.Rpc.Call.Theorems
import AlpSdk.Rpc.Frame
import AlpSdk.Cc3501e.Threads
import AlpSdk.Cc3501e.Discipline
import AlpSdk.Cc3501e.Exclusive
import AlpSdk.Cc3501e.RateLimit
import AlpSdk.Cc3501e.Session
import AlpSdk.Cc3501e.Handles
import AlpSdk.UpdateLog.Wire.Exact
import AlpSdk.Cc3501e.Events
import AlpSdk.Cc3501e.Stream
import AlpSdk.Cc3501e.Burst
import AlpSdk.Cc3501e.WifiScan
import AlpSdk.SomPower.ColdBoot
import AlpSdk.SomPower.Held
import AlpSdk.AlifSe.Attribution
import AlpSdk.Rv3028c7.Part
import AlpSdk.Gd32Swd.Pads
import AlpSdk.Library.Crc
import AlpSdk.Backend
import AlpSdk.AlpModel
import AlpSdk.AlpModel.Select
import AlpSdk.UpdateLog.Atoc
import AlpSdk.Gd32.Batch
import AlpSdk.AlpModel.RoundTrip
import AlpSdk.Library.Cbor
import AlpSdk.Library.Cbor.Wire
import AlpSdk.AlpModel.Package
import AlpSdk.Rv3028c7.Commit
import AlpSdk.Rv3028c7.Countdown
import AlpSdk.AlifSe.TimedWake
import AlpSdk.Dsp.Decimator
import AlpSdk.Dsp.Streaming
import AlpSdk.DrpAi.Arena
import AlpSdk.DrpAi.JsonParser
import AlpSdk.DrpAi.Placement
import AlpSdk.DrpAi.JsonReading
import AlpSdk.DrpAi.DeployShapes
import AlpSdk.DrpAi.ShapeRecovery
import AlpSdk.DrpAi.ShapeCorrelation
import AlpSdk.Gd32Swd.Target
import AlpSdk.Gd32Swd.Reads
import AlpSdk.Gd32Swd.Flash
import AlpSdk.Cc3501e.OtaEnds
import AlpSdk.Cc3501e.PolledBoot
import AlpSdk.Cc3501e.OtaImage
import AlpSdk.Cc3501e.Polls
import AlpSdk.Cc3501e.SendStream
import AlpSdk.UpdateLog.Sha256.Theorems
import AlpSdk.UpdateLog.Mcuboot
import AlpSdk.Eeprom24c128.Store
import AlpSdk.FastMemcpy
import AlpSdk.SomIdentity.EthMac
