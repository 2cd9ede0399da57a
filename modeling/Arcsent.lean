import Arcsent.Lib.Runs
import Arcsent.Lib.Latest
import Arcsent.Lib.Parties
import Arcsent.Lib.FlatKey
import Arcsent.Lib.Paths
import Arcsent.Lib.RunningStats
import Arcsent.Lib.Window
import Arcsent.Lib.Words
import Arcsent.Lib.Rounding
import Arcsent.Lib.Quantile
import Arcsent.Lib.Separators
import Arcsent.Lib.Retry
import Arcsent.Go.Basic
import Arcsent.Go.Parse
import Arcsent.Go.Float64
import Arcsent.Go.Strings
import Arcsent.Go.Flag
import Arcsent.Go.ServeMux
import Arcsent.Go.Filepath
import Arcsent.Go.CleanPath
import Arcsent.Go.MuxAlias
import Arcsent.Go.Slices
import Arcsent.Signatures.Registry
import Arcsent.Config.Types
import Arcsent.Config.Validate
import Arcsent.Config.Redacted
import Arcsent.Scanner.Types
import Arcsent.Storage.Badger
import Arcsent.Storage.LastWrite
import Arcsent.Storage.ForEach
import Arcsent.Storage.Results
import Arcsent.Storage.Prune
import Arcsent.Alerting.Engine
import Arcsent.Alerting.Suppression
import Arcsent.Alerting.Batch
import Arcsent.Alerting.Deliver
import Arcsent.Detection.Rules
import Arcsent.Detection.Correlation
import Arcsent.Detection.CorrelatorRuns
import Arcsent.Detection.Baseline
import Arcsent.Detection.Listings
import Arcsent.Detection.BaselineStore
import Arcsent.Detection.BaselineRuns
import Arcsent.Detection.Verdicts
import Arcsent.Detection.Quartiles
import Arcsent.Detection.NormalValues
import Arcsent.Detection.Isolation
import Arcsent.Detection.Streak
import Arcsent.Detection.BaselineClients
import Arcsent.State.ResultCache
import Arcsent.Scheduler.Schedule
import Arcsent.Scheduler.Jobs
import Arcsent.Scheduler.Loops
import Arcsent.Scheduler.Overlap
import Arcsent.Scheduler.Replace
import Arcsent.Scheduler.Lifecycle
import Arcsent.Scheduler.Stopping
import Arcsent.Scheduler.Restart
import Arcsent.Scheduler.DueTimes
import Arcsent.Scheduler.StartupRun
import Arcsent.Scheduler.Forward
import Arcsent.Scheduler.Accounting
import Arcsent.Signatures.Updater
import Arcsent.Signatures.Snapshot
import Arcsent.Signatures.Extract
import Arcsent.Signatures.Download
import Arcsent.Plugins.Init
import Arcsent.Servers.Listener
import Arcsent.Servers.Reload
import Arcsent.Servers.Handlers
import Arcsent.Servers.Alias
import Arcsent.Servers.ReadOnly
import Arcsent.Daemon.OnResult
import Arcsent.Daemon.Fingerprints
import Arcsent.Daemon.DriftAlerts
import Arcsent.Daemon.MapOrder
import Arcsent.Daemon.Runner
import Arcsent.Daemon.OwnSettings
import Arcsent.Daemon.Startup
import Arcsent.Daemon.Executions
import Arcsent.Daemon.NoopReload
import Arcsent.Daemon.Retention
import Arcsent.Daemon.Privileges
import Arcsent.Signatures.SourceTable
import Arcsent.Lib.FileTree
import Arcsent.Signatures.CacheFiles
import Arcsent.Signatures.FailedDownloads
import Arcsent.Signatures.Airgap
import Arcsent.Signatures.FailedImports
import Arcsent.Signatures.CacheRuns
import Arcsent.Signatures.CompletedImports
import Arcsent.State.CacheLog
import Arcsent.Signatures.BenignNames
import Arcsent.Daemon.Identity
import Arcsent.Alerting.Channels
import Arcsent.Alerting.SeverityFilter
import Arcsent.Plugins.AuthLog
import Arcsent.Plugins.CPUMemory
import Arcsent.Cmd.EnvFile
import Arcsent.Cmd.Ctl
import Arcsent.Go.Csv
import Arcsent.Go.Format
import Arcsent.Servers.Export
import Arcsent.Lib.Decimal
import Arcsent.Daemon.SavedResults
import Arcsent.Web.Proxy
import Arcsent.Web.Script
import Arcsent.Web.Metrics
import Arcsent.Lib.History
import Arcsent.Daemon.AlertPipeline
import Arcsent.Lib.Walk
import Arcsent.Plugins.FileIntegrity
import Arcsent.Daemon.Tampering
import Arcsent.Daemon.Reloads
import Arcsent.Plugins.Processes
import Arcsent.Plugins.DiskUsage
import Arcsent.Daemon.ProcessAlerts
import Arcsent.Go.Url
import Arcsent.Cmd.Answers
import Arcsent.Config.Environment
import Arcsent.Go.Json
import Arcsent.Logging.Logger
import Arcsent.Plugins.Listeners
import Arcsent.Servers.Environment
