import Mosaico.Library.Interaction
import Mosaico.Library.PageDevice
import Mosaico.Library.ByteFields
import Mosaico.Library.SaveLedger
import Mosaico.Nand.StoreModel
import Mosaico.Nand.StoreLayout
import Mosaico.Nand.StoreSafety
import Mosaico.Nand.LogModel
import Mosaico.Nand.ColdStore
import Mosaico.Nand.Store
import Mosaico.Nand.StoreSession
import Mosaico.Nand.ColdSafety
import Mosaico.Nand.TraceHistory
import Mosaico.Nand.ColdLayout
import Mosaico.Nand.ColdHistory
import Mosaico.Library.SequenceRing
import Mosaico.Nand.LogLayout
import Mosaico.Nand.LogSafety
import Mosaico.Nand.LogHistory
import Mosaico.Host.HostBridge
import Mosaico.Host.HostBridgeHistory
import Mosaico.Gauge.ColdTrial
import Mosaico.Ota.HealthGate
import Mosaico.Gauge.ColdPlanner
import Mosaico.Gauge.ColdCapsule
import Mosaico.Gauge.ColdEvidence
import Mosaico.Gauge.ColdPermissions
import Mosaico.Gauge.ColdStartup
import Mosaico.Ble.HidOutput
import Mosaico.Ble.HidReassembly
import Mosaico.Gauge.ColdEnvelope
import Mosaico.Gauge.ColdEnvelopeChain
import Mosaico.Ble.HidTransmit
import Mosaico.Ble.InputQueue
import Mosaico.Ble.InputOrder
import Mosaico.Gauge.FccRepair
import Mosaico.Gauge.FccRepairSafety
import Mosaico.Gauge.FccRollback
import Mosaico.Library.Interleaving
import Mosaico.Library.RingBuffer
import Mosaico.Host.SystemLogModel
import Mosaico.Host.StandbySleepModel
import Mosaico.Host.StandbySleep
import Mosaico.Host.SystemLog
import Mosaico.Host.SystemLogOrder
import Mosaico.Ota.Entries
import Mosaico.Ota.StorageLease
import Mosaico.Ota.StorageLeaseRuns
import Mosaico.Host.GaugeTraceModel
import Mosaico.Host.GaugeTraceRetention
import Mosaico.Host.GaugeTraceCodec
import Mosaico.Host.GaugeTraceService
import Mosaico.Host.GaugeTraceRuns
import Mosaico.Host.GaugeTraceExhausted
import Mosaico.Gauge.FccJournalCodec
import Mosaico.Gauge.FccJournalRuns
import Mosaico.Host.TokenHistory
import Mosaico.Host.QuotaTrendProject
import Mosaico.Host.QuotaTrendAccepted
import Mosaico.Lan.CaptureFilter
import Mosaico.Lan.CaptureFilterRun
import Mosaico.Lan.CaptureFilterAccepted
import Mosaico.Host.SystemLogGroups
import Mosaico.Host.SystemLogExport
import Mosaico.Host.SystemLogExported
import Mosaico.Host.SystemLogReassembled
import Mosaico.Library.BinaryRounding
import Mosaico.Host.JsonText
import Mosaico.Host.QuotaDashboardModel
import Mosaico.Host.QuotaDashboard
import Mosaico.Host.QuotaDashboardLimit
import Mosaico.Gauge.HalBus
import Mosaico.Gauge.HalAccess
import Mosaico.Gauge.HalAccessLedger
import Mosaico.Gauge.HalNominal
import Mosaico.Gauge.HalNominalReads
import Mosaico.Gauge.HalNominalSafety
import Mosaico.Gauge.HalNominalRuns
import Mosaico.Library.Sha256
import Mosaico.Gauge.ColdCapability
import Mosaico.Gauge.ColdTwins
import Mosaico.Gauge.ColdTwinsPayload
import Mosaico.Gauge.ColdTwinsCodec
import Mosaico.Gauge.ColdCaptureEvidence
import Mosaico.Host.GaugeTraceCanonical
import Mosaico.Host.GaugeTraceStorage
import Mosaico.Ble.HidClassification
import Mosaico.Ble.HidFraming
import Mosaico.Ble.HidUsageFrame
import Mosaico.Library.RecordLayout
import Mosaico.Gauge.ColdCapsuleLayout
import Mosaico.Gauge.ColdEvidenceLayout
import Mosaico.Nand.ColdCanonical
import Mosaico.Gauge.ColdCodecs
import Mosaico.Host.TwtModel
import Mosaico.Host.TwtTracker
import Mosaico.Host.TouchSleep
import Mosaico.Host.TouchSleepRuns
import Mosaico.Gauge.OcvDiagnosticModel
import Mosaico.Gauge.OcvQualification
import Mosaico.Gauge.OcvDiagnostic
import Mosaico.Gauge.ThresholdAuditModel
import Mosaico.Gauge.ThresholdJournal
import Mosaico.Gauge.ThresholdAudit
import Mosaico.Host.SessionWindow
import Mosaico.Host.DisplaySettings
import Mosaico.Host.DisplaySettingsSaved
import Mosaico.Debug.RxIngress
import Mosaico.Debug.TxRing
import Mosaico.Host.Keepalive
import Mosaico.Host.SystemLogPage
import Mosaico.Library.FifoCache
import Mosaico.Ota.DeltaStoreModel
import Mosaico.Ota.DeltaStore
import Mosaico.Host.TailnetFetchModel
import Mosaico.Host.TailnetFetch
import Mosaico.Lan.PacketBatch
import Mosaico.Library.ListWindow
import Mosaico.Ota.DeltaDecoder
import Mosaico.Host.HistoryHours
import Mosaico.Host.WifiProfiles
import Mosaico.Host.LocalUsage
import Mosaico.Gauge.RecoveryModel
import Mosaico.Gauge.ScaleJournalModel
import Mosaico.Gauge.ScaleJournal
import Mosaico.Gauge.FactoryJournalModel
import Mosaico.Gauge.FactoryJournal
import Mosaico.Gauge.ContrastJournalModel
import Mosaico.Gauge.ContrastJournal
import Mosaico.Gauge.JournalCodecs
import Mosaico.Library.SlotJournal
import Mosaico.Gauge.JournalRuns
import Mosaico.Nand.DmaReserve
import Mosaico.View.DotRenderModel
import Mosaico.View.DotMeter
import Mosaico.View.DotIcon
