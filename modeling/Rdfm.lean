import Rdfm.Lib.Except
import Rdfm.Lib.Transition
import Rdfm.Lib.Walk
import Rdfm.Lib.Rows
import Rdfm.Lib.MultiDiGraph
import Rdfm.Lib.Decimal
import Rdfm.Lib.DeviceFile
import Rdfm.Lib.FileSys
import Rdfm.Lib.Trim
import Rdfm.Lib.Utf8
import Rdfm.Lib.BoundedQueue
import Rdfm.Lib.IndexedMap
import Rdfm.Lib.BootSlots
import Rdfm.Lib.Routine
import Rdfm.Lib.Pipe
import Rdfm.Lib.Pool
import Rdfm.Server.Resolver
import Rdfm.Server.ResolverGraph
import Rdfm.Server.ResolverSound
import Rdfm.Server.ResolverConverge
import Rdfm.Server.Database
import Rdfm.Server.Groups
import Rdfm.Server.DeviceAuth
import Rdfm.Server.ConnectionRegistry
import Rdfm.Server.Actions
import Rdfm.Server.ActionDelivery
import Rdfm.Server.RegistrationRaces
import Rdfm.Server.UpdateCheck
import Rdfm.Server.ManagementChannel
import Rdfm.Server.TokenGates
import Rdfm.Server.PermissionGate
import Rdfm.Linux.BlockDevice
import Rdfm.Linux.BlockDeviceWrite
import Rdfm.Linux.DeltaInstall
import Rdfm.Linux.FileStore
import Rdfm.Linux.FileStoreQueue
import Rdfm.Linux.ActionRunner
import Rdfm.Linux.HttpReader
import Rdfm.Linux.CachedFetcher
import Rdfm.Linux.UpdateCache
import Rdfm.Linux.SingleFile
import Rdfm.Linux.Install
import Rdfm.Linux.InstallGate
import Rdfm.Linux.InstallEnd
import Rdfm.Linux.UpdateRuns
import Rdfm.Linux.SingleFileFaults
import Rdfm.Linux.CheckUpdate
import Rdfm.Mcumgr.Session
import Rdfm.Mcumgr.Group
import Rdfm.Mcumgr.GroupPhases
import Rdfm.Mcumgr.GroupUpdate
import Rdfm.Mcumgr.GroupAtomic
import Rdfm.Mcumgr.GroupBookkeeping
import Rdfm.Mcumgr.Single
import Rdfm.Mcumgr.SingleBookkeeping
import Rdfm.Mcumgr.ServerClient
import Rdfm.Protocol.Messages
import Rdfm.Protocol.Agreement
import Rdfm.Linux.CommunicationLoop
import Rdfm.Lib.AccessList
import Rdfm.Server.TopicLease
import Rdfm.Server.UserPermissions
import Rdfm.Server.GroupRequests
import Rdfm.Frontend.AllowedTo
import Rdfm.Frontend.GroupDialog
import Rdfm.Frontend.DialogOutcome
import Rdfm.Server.GroupAssignment
import Rdfm.Server.PermissionRows
import Rdfm.Server.UpdateProgress
import Rdfm.Lib.PosixPath
import Rdfm.Lib.Url
import Rdfm.Server.LocalStorage
import Rdfm.Server.ResolverComplete
import Rdfm.Server.PackageUpload
import Rdfm.Lib.MapMerge
import Rdfm.Artifact.Writer
import Rdfm.Artifact.GroupArtifact
import Rdfm.Artifact.Extraction
import Rdfm.Artifact.SingleFileArtifact
import Rdfm.Artifact.DeltaArtifact
import Rdfm.Artifact.DeltaPipeline
import Rdfm.Artifact.DeltaOutcome
import Rdfm.Server.DeviceDownload
import Rdfm.Server.UploadScopes
import Rdfm.Linux.FileStoreCalls
import Rdfm.Linux.ResultSender
import Rdfm.Linux.ActionExecution
import Rdfm.Linux.ShellRunner
import Rdfm.Linux.RingBuffer
import Rdfm.Linux.LoggerTasks
import Rdfm.Linux.ProgressReports
import Rdfm.Lib.LinkTree
import Rdfm.Linux.FileAccess
import Rdfm.Protocol.ImageVersions
import Rdfm.Server.ActionLogClearing
import Rdfm.Server.DeviceLogs
import Rdfm.Android.ReconnectThread
import Rdfm.Android.ReverseShell
import Rdfm.Linux.ReaderComposition
import Rdfm.Linux.HeaderExtraction
import Rdfm.Linux.DeltaNames
import Rdfm.Linux.KeyValueFile
import Rdfm.Server.DeviceRemoval
import Rdfm.Lib.Relay
import Rdfm.Server.ShellBridge
import Rdfm.Server.ShellRelays
import Rdfm.Server.ShellEnds
import Rdfm.Server.Migrations
import Rdfm.Protocol.TokenLifetime
import Rdfm.Server.Campaign
import Rdfm.Mcumgr.Campaign
import Rdfm.Linux.Campaign
import Rdfm.Mcumgr.AgentExit
import Rdfm.Android.UpdateData
