import DentryWatch.Command.Failure
import DentryWatch.Command.Options
import DentryWatch.Drain
import DentryWatch.Report.Basic
import DentryWatch.Settings.Basic

/-!
# Watching a tree

What replaying a tree once and monitoring it have in common: the options, the
attached session and the outputs of traced records.
-/

namespace DentryWatch.Command

structure WatchOptions where
  /-- The tree. -/
  dir : Path
  group : Option GroupId := none
  /-- Whether tracing starts on. -/
  trace : Bool := false
  /-- Whether missing names are looked up. -/
  probes : Bool := false
  /-- Where the trace files are. -/
  out : Option Path := none
  /-- Which paths are kept. -/
  filter : Option String := none
deriving DecidableEq, Repr

namespace WatchOptions

def specs : List OptionSpec :=
  [⟨"group", .number⟩, ⟨"trace", .flag⟩, ⟨"negative-probes", .flag⟩, ⟨"out", .path⟩,
   ⟨"filter", .text⟩]

def ofLine (line : CommandLine) : WatchOptions where
  dir := Path.ofText line.argument
  group := line.number? "group"
  trace := line.flag "trace"
  probes := line.flag "negative-probes"
  out := line.path? "out"
  filter := line.text? "filter"

/-- The group that is charged: the one asked for, or that of the process. -/
def groupOn (options : WatchOptions) (disk : Disk) (report : ReportSettings) : GroupId :=
  Cgroup.groupOrCurrent disk report.procRoot report.cgroupRoot options.group

def pathFilter (options : WatchOptions) (trace : TraceSettings) : PathFilter :=
  match options.filter with
  | some spec => PathFilter.parse spec
  | none => trace.filter

def attach (options : WatchOptions) (disk : Disk) (settings : Settings) :
    Except CommandFailure (Session ReplaySource) :=
  let source : ReplaySource :=
    { root := options.dir, group := options.groupOn disk settings.report, probes := options.probes }
  let sizes := settings.probe.collectorOptions
  let sizes := { sizes with tracing := sizes.tracing || options.trace }
  match Session.start? (ReplaySource.events disk) source sizes with
  | none => .error .oversized
  | some (.ok session) => .ok session
  | some (.error (cause, _)) => .error (.attach cause)

/-- Opens the outputs of traced records, with a file of raw records if asked. -/
def openDrain (options : WatchOptions) (raw : Option Path) (disk : Disk) (trace : TraceSettings) :
    Except CommandFailure Drain × Disk :=
  let dir := options.out.getD trace.dir
  match TraceLog.openIn disk dir trace.maxSizeBytes trace.maxFiles.toNat with
  | (.error cause, disk) => (.error (.traceOutput dir cause), disk)
  | (.ok log, disk) =>
      let drain : Drain := { log, filter := options.pathFilter trace }
      match raw with
      | none => (.ok drain, disk)
      | some path =>
          match Drain.openRaw disk path with
          | .error cause => (.error (.create path cause), log.drop disk)
          | .ok (file, disk) => (.ok { drain with raw := some file }, disk)

end WatchOptions

def clock (now : Instant) : UInt64 :=
  UInt64.ofNat (now.seconds.toNat * 1000000000 + now.nanos)

/-- A drain in which every record is seen at one instant and flushing waits for the end. -/
def drainAt (now : Instant) : DrainSchedule := { seen := fun _ => now, flushDue := fun _ => false }

/-- Empties the ring of a collector into the outputs and closes them. -/
def drainCollector (now : Instant) (drain : Drain) (collector : Collector) (disk : Disk) :
    Except ExportFailure DrainSummary × Collector × Disk :=
  let (outcome, ring, disk) := drain.run (drainAt now) collector.ring disk
  (outcome, { collector with ring }, disk)

end DentryWatch.Command
