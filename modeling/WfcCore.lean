import WfcCore.Config.Watch
import WfcCore.Config.Atomic
import WfcCore.Config.Merging
import WfcCore.Config.IniFiles
import WfcCore.Config.Generation
import WfcCore.Config.Refinement
import WfcCore.Config.Settling
import WfcCore.Core.ExitCode
import WfcCore.Core.StatusLog
import WfcCore.Core.StatusText
import WfcCore.Core.SlidingWindow
import WfcCore.Core.Stopping
import WfcCore.Core.Reconfigure
import WfcCore.Core.Lifecycle
import WfcCore.Core.Cpu
import WfcCore.Core.Stages
import WfcCore.Core.Termination
import WfcCore.Core.Callbacks
import WfcCore.Core.Daemon
import WfcCore.Core.Delivery
import WfcCore.Foundation.Feeds
import WfcCore.Foundation.Cells
import WfcCore.Logger.Banner
import WfcCore.Logger.Process
import WfcCore.Prometheus.Scrape
import WfcCore.Prometheus.Monitoring
import WfcCore.Prometheus.Messages
import WfcCore.Startup.PidLock
import WfcCore.Startup.PidRestart
import WfcCore.Startup.Restart
import WfcCore.Startup.ShutdownTimer
import WfcCore.Startup.Modes
import WfcCore.Startup.OptionParsing
import WfcCore.Startup.OptionRendering
import WfcCore.Statistics.Reconfiguration
import WfcCore.Statistics.Statlog
import WfcCore.Statistics.Backlog
import WfcCore.Statistics.Columns
import WfcCore.Statistics.Legend
import WfcCore.Statistics.Metric
import WfcCore.Statistics.Batch
import WfcCore.Statistics.Tick
import WfcCore.Statistics.SystemStatistics
import WfcCore.Statistics.Collector
import WfcCore.Statistics.Pipeline
import WfcCore.Statistics.TableLog
import WfcCore.Wfc.Timers
