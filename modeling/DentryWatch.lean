import DentryWatch.Bytes
import DentryWatch.Text.Utf8
import DentryWatch.Text.Blank
import DentryWatch.Text.Search
import DentryWatch.Text.Lines
import DentryWatch.Text.Numeral
import DentryWatch.Text.Printable
import DentryWatch.Text.Quoted
import DentryWatch.Record.Name
import DentryWatch.Record.Basic
import DentryWatch.Record.Wire
import DentryWatch.Record.Path
import DentryWatch.Lineage
import DentryWatch.GroupTable
import DentryWatch.Ring
import DentryWatch.Collector
import DentryWatch.Session
import DentryWatch.Disk.Failure
import DentryWatch.Disk.Basic
import DentryWatch.Disk.Lookup
import DentryWatch.Disk.Files
import DentryWatch.Disk.Buffered
import DentryWatch.Instant
import DentryWatch.TraceLog.Row
import DentryWatch.TraceLog.Basic
import DentryWatch.PathFilter
import DentryWatch.ExportFailure
import DentryWatch.RecordStream.Reader
import DentryWatch.RecordStream.Writer
import DentryWatch.Drain
import DentryWatch.NodeState
import DentryWatch.Cgroup.Path
import DentryWatch.Cgroup.Pod
import DentryWatch.Cgroup.Resolver
import DentryWatch.Decimal.Shortest
import DentryWatch.Decimal.Word
import DentryWatch.Report.Json
import DentryWatch.Report.Exposition
import DentryWatch.Report.Basic
import DentryWatch.Toml.Value
import DentryWatch.Toml.Quoted
import DentryWatch.Toml.Scalar
import DentryWatch.Toml.Reader
import DentryWatch.Toml.Document
import DentryWatch.Logging
import DentryWatch.Settings.Basic
import DentryWatch.Settings.Document
import DentryWatch.Replay
import DentryWatch.Churn
import DentryWatch.Command.Options
import DentryWatch.Command.Failure
import DentryWatch.Command.Decode
import DentryWatch.Command.Generate
import DentryWatch.Command.Watch
import DentryWatch.Command.Replay
import DentryWatch.Decimal.Range
import DentryWatch.Monitor.Address
import DentryWatch.Monitor.MediaType
import DentryWatch.Monitor.TraceSetting
import DentryWatch.Monitor.Service
import DentryWatch.Command.Monitor
import DentryWatch.Command.Basic
import DentryWatch.Main
import DentryWatch.Proofs.GroupTable.Chains
import DentryWatch.Proofs.GroupTable.Transitions
import DentryWatch.Proofs.GroupTable.Soundness
import DentryWatch.Proofs.GroupTable.Preservation
import DentryWatch.Proofs.Collector.Accounts
import DentryWatch.Proofs.Collector.Paths
import DentryWatch.Proofs.Collector.Separation
import DentryWatch.Proofs.Ring.Clients
import DentryWatch.Proofs.Ring.Order
import DentryWatch.Proofs.Disk.Buffers
import DentryWatch.Proofs.Disk.Children
import DentryWatch.Proofs.Disk.Directories
import DentryWatch.Proofs.Disk.Entries
import DentryWatch.Proofs.Text.Utf8
import DentryWatch.Proofs.TraceLog.Journals
import DentryWatch.Proofs.TraceLog.Lines
import DentryWatch.Proofs.TraceLog.Names
import DentryWatch.Proofs.TraceLog.Newest
import DentryWatch.Proofs.Record.Layout
import DentryWatch.Proofs.Record.Wire
import DentryWatch.Proofs.RecordStream.Delivery
import DentryWatch.Proofs.RecordStream.Items
import DentryWatch.Proofs.RecordStream.Schedules
import DentryWatch.Proofs.Settings.Fields
import DentryWatch.Proofs.Settings.Layers
import DentryWatch.Proofs.TraceLog.Failures
import DentryWatch.Proofs.Drain.BothOutputs
import DentryWatch.Proofs.Drain.FullDevice
import DentryWatch.Proofs.Monitor.Serving
import DentryWatch.Proofs.Collector.Hooks
import DentryWatch.Proofs.Disk.Listings
import DentryWatch.Proofs.Replay.Visits
import DentryWatch.Proofs.Replay.Accounts
import DentryWatch.Proofs.Report.Groups
import DentryWatch.Proofs.Report.Text
import DentryWatch.Proofs.Report.Canonical
import DentryWatch.Proofs.Churn.Windows
import DentryWatch.Proofs.Churn.Names
import DentryWatch.Proofs.Churn.Trees
import DentryWatch.Proofs.Churn.Steps
import DentryWatch.Proofs.Churn.Prepared
import DentryWatch.Proofs.Churn.Drives
import DentryWatch.Proofs.Lineage
import DentryWatch.Proofs.Command.Printing
import DentryWatch.Proofs.TraceLog.Acknowledged
import DentryWatch.Proofs.Record.Slots
import DentryWatch.Proofs.RecordStream.FullSinks
import DentryWatch.Proofs.Ring.Counters
import DentryWatch.Proofs.Cgroup.Confinement
import DentryWatch.Proofs.Cgroup.Layouts
import DentryWatch.Proofs.Cgroup.Mappings
import DentryWatch.Proofs.Sessions
import DentryWatch.Proofs.TraceLog.Moves
import DentryWatch.Proofs.TraceLog.Frames
import DentryWatch.Proofs.TraceLog.Chapters
import DentryWatch.Proofs.NodeState
import DentryWatch.Proofs.PathFilter
import DentryWatch.Proofs.Ring.Budgets
import DentryWatch.Proofs.GroupTable.Capacities
import DentryWatch.Proofs.GroupTable.Searches
