import Ultrav.Machine
import Ultrav.Lineage
import Ultrav.DirtyLog
import Ultrav.Slices
import Ultrav.Domain
import Ultrav.BackupStore
import Ultrav.BackupChain
import Ultrav.Backup
import Ultrav.BackupEffects
import Ultrav.DiskSteps
import Ultrav.Restore
import Ultrav.RestoreAtomic
import Ultrav.History
import Ultrav.Restorable
import Ultrav.RestoreFormat
import Ultrav.BlockHistory
import Ultrav.DiskFootprint
import Ultrav.RestoreRace
import Ultrav.RestoreRaceSafe
import Ultrav.Retention
import Ultrav.ScheduleStore
import Ultrav.SharedCell
import Ultrav.ScheduleUpdate
import Ultrav.ScheduleTick
import Ultrav.ScheduleOnce
import Ultrav.ScheduleMissed
import Ultrav.ScheduleService
import Ultrav.Decimal
import Ultrav.SharedSlice
import Ultrav.Tasks
import Ultrav.TaskLifecycle
import Ultrav.TaskRegistry
import Ultrav.Users
import Ultrav.LastAdmin
import Ultrav.Tokens
import Ultrav.Attempts
import Ultrav.MachineConfig
import Ultrav.UpdateMachine
import Ultrav.DomainProfile
import Ultrav.CreateMachine
import Ultrav.ProviderCalls
import Ultrav.TaskEffects
import Ultrav.Xml
import Ultrav.XmlLiteral
import Ultrav.VolumeDocument
import Ultrav.Json
import Ultrav.JsonText
import Ultrav.Utf8
import Ultrav.Rfc3339
import Ultrav.MetadataFile
import Ultrav.PointCreation
import Ultrav.RetentionKept
import Ultrav.TaskTrim
import Ultrav.NetworkHosts
import Ultrav.AuthGate
import Ultrav.ErrorConfidentiality
import Ultrav.BackupReturns
import Ultrav.PartialDeletion
import Ultrav.FailedBackup
import Ultrav.TwinProviders
import Ultrav.LibraryViews
import Ultrav.LibraryOnDisk
import Ultrav.BackupCoverage
import Ultrav.PathContainment
import Ultrav.AbortedPoint
import Ultrav.DomainDocument
import Ultrav.DomainReading
import Ultrav.DomainStructure
import Ultrav.DomainModel
import Ultrav.DomainReport
import Ultrav.ResourceUpdate
import Ultrav.InstallMedia
import Ultrav.Matcher
import Ultrav.Markup
import Ultrav.BootOrderText
import Ultrav.BootOrderBlocks
import Ultrav.BootOrderExact
import Ultrav.DomainDeletion
import Ultrav.XmlTemplate
import Ultrav.NetworkModel
import Ultrav.NetworkReadBack
import Ultrav.IpText
import Ultrav.NetworkUpdate
import Ultrav.NetworkValidation
import Ultrav.MockNetwork
import Ultrav.IsoLibrary
import Ultrav.IsoRoute
import Ultrav.IsoUploads
import Ultrav.PathText
import Ultrav.StorageVisibility
import Ultrav.Words
import Ultrav.Mountinfo
import Ultrav.VmMetrics
import Ultrav.Correlation
import Ultrav.Rfb
import Ultrav.MockConsole
import Ultrav.ConsolePixels
import Ultrav.MockPower
import Ultrav.MockShutdown
import Ultrav.MockAddresses
import Ultrav.ConcurrentChains
import Ultrav.SequentialChains
import Ultrav.ScheduledRuns
import Ultrav.RetainedChains
import Ultrav.Passwords
import Ultrav.Replacement
import Ultrav.ScheduleFile
import Ultrav.ScheduleHost
import Ultrav.SettingsHost
import Ultrav.ConsoleProxy
import Ultrav.IsoServer
import Ultrav.Daemon
import Ultrav.DaemonRuns
import Ultrav.NetworkRuns
import Ultrav.MachineRequests
import Ultrav.MachineRuns
