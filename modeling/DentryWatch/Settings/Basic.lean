import DentryWatch.Collector
import DentryWatch.Disk.Lookup
import DentryWatch.PathFilter
import DentryWatch.Text.Numeral

/-!
# Settings

The settings come in five sections, each with a default for every field. A
project's settings are laid over those of the user, and the environment has the
last word on a few of them.
-/

namespace DentryWatch

structure ProbeSettings where
  /-- How many groups are counted. -/
  tableCapacity : UInt64 := 4096
  /-- How many bytes the trace ring may take. -/
  ringBytes : UInt64 := 1048576
  /-- Whether tracing starts on. -/
  tracing : Bool := false
deriving DecidableEq, Repr

structure TraceSettings where
  /-- Where the trace files are. -/
  dir : Path := Path.ofText "/data/traces"
  /-- The size in MiB from which a file is full. -/
  maxSizeMb : UInt64 := 100
  /-- How many full files are kept. -/
  maxFiles : UInt64 := 3
  /-- The patterns of the path filter. -/
  patterns : List String := []
  /-- How many milliseconds rows may stay in the buffer. -/
  flushMillis : UInt64 := 1000
deriving DecidableEq, Repr

structure ReportSettings where
  /-- The process file system. -/
  procRoot : Path := Path.ofText "/proc"
  /-- The tree of control groups. -/
  cgroupRoot : Path := Path.ofText "/sys/fs/cgroup"
deriving DecidableEq, Repr

structure GeneratorSettings where
  /-- Entries a second. -/
  rate : UInt64 := 1000
  /-- Entries a directory. -/
  perDir : UInt64 := 50000
  /-- What kind of entries. -/
  mode : String := "negative"
  /-- How many entries in all; `0` sets no end. -/
  max : UInt64 := 0
deriving DecidableEq, Repr

structure MonitorSettings where
  listen : String := "0.0.0.0:9090"
  /-- Seconds between snapshots. -/
  pollSeconds : UInt64 := 5
  /-- Seconds between readings of the control groups. -/
  resolveSeconds : UInt64 := 30
  /-- Seconds between scans of the tree; `0` asks for one scan only. -/
  rescanSeconds : UInt64 := 10
deriving DecidableEq, Repr

structure Settings where
  /-- Sizes and start of the collector. -/
  probe : ProbeSettings := {}
  /-- Output of trace rows. -/
  trace : TraceSettings := {}
  /-- Where reports find the host's files. -/
  report : ReportSettings := {}
  /-- Churn that is made on demand. -/
  generator : GeneratorSettings := {}
  /-- The long-running monitor. -/
  monitor : MonitorSettings := {}
deriving DecidableEq, Repr

def ProbeSettings.collectorOptions (probe : ProbeSettings) : CollectorOptions where
  tableCapacity := probe.tableCapacity.toNat
  ringRecords := Ring.recordsForBytes probe.ringBytes.toNat
  tracing := probe.tracing

namespace TraceSettings

def filter (trace : TraceSettings) : PathFilter := PathFilter.ofPatterns trace.patterns

/-- The size in bytes from which a file is full, at most the largest word. -/
def maxSizeBytes (trace : TraceSettings) : Nat :=
  min (trace.maxSizeMb.toNat * (1024 * 1024)) (UInt64.size - 1)

/-- Whether two settings agree, paths compared by their parts. -/
def same (trace other : TraceSettings) : Bool :=
  trace.dir.same other.dir && { trace with dir := other.dir } == other

end TraceSettings

def ReportSettings.same (report other : ReportSettings) : Bool :=
  report.procRoot.same other.procRoot && report.cgroupRoot.same other.cgroupRoot

namespace Settings

def same (settings other : Settings) : Bool :=
  settings.probe == other.probe && settings.trace.same other.trace &&
    settings.report.same other.report && settings.generator == other.generator &&
    settings.monitor == other.monitor

def isDefault (settings : Settings) : Bool := settings.same {}

def overlay {α : Type} (same : α → α → Bool) (default lower upper : α) : α :=
  if same upper default then lower else upper

/--
Lays settings over others. Of the first two sections each field that is not the
default comes from the upper settings; the other sections come as a whole from
the upper settings unless they are the default there.
-/
def layer (lower upper : Settings) : Settings :=
  let base : Settings := {}
  { probe :=
      { tableCapacity := overlay BEq.beq base.probe.tableCapacity lower.probe.tableCapacity
          upper.probe.tableCapacity
        ringBytes := overlay BEq.beq base.probe.ringBytes lower.probe.ringBytes upper.probe.ringBytes
        tracing := overlay BEq.beq base.probe.tracing lower.probe.tracing upper.probe.tracing }
    trace :=
      { dir := overlay Path.same base.trace.dir lower.trace.dir upper.trace.dir
        maxSizeMb := overlay BEq.beq base.trace.maxSizeMb lower.trace.maxSizeMb upper.trace.maxSizeMb
        maxFiles := overlay BEq.beq base.trace.maxFiles lower.trace.maxFiles upper.trace.maxFiles
        patterns := overlay BEq.beq base.trace.patterns lower.trace.patterns upper.trace.patterns
        flushMillis := overlay BEq.beq base.trace.flushMillis lower.trace.flushMillis
          upper.trace.flushMillis }
    report := overlay ReportSettings.same base.report lower.report upper.report
    generator := overlay BEq.beq base.generator lower.generator upper.generator
    monitor := overlay BEq.beq base.monitor lower.monitor upper.monitor }

def switchesOn (word : String) : Bool :=
  word.toList = ['1'] || word.toList.map Char.toLower = ['t', 'r', 'u', 'e']

/-- The number that a variable gives, or the one before if it gives none. -/
def numberOver (before : UInt64) (word : Option String) : UInt64 :=
  (word.bind fun word => Text.readWord64? word.toList).getD before

def withEnvironment (settings : Settings) (environment : String → Option String) : Settings :=
  { settings with
    probe :=
      { tableCapacity :=
          numberOver settings.probe.tableCapacity (environment "DCACHE_STATS_CAPACITY")
        ringBytes := numberOver settings.probe.ringBytes (environment "DCACHE_RINGBUF_BYTES")
        tracing := ((environment "DCACHE_TRACE").map switchesOn).getD settings.probe.tracing }
    trace :=
      { settings.trace with
        dir := ((environment "DCACHE_TRACE_DIR").map Path.ofText).getD settings.trace.dir }
    monitor :=
      { settings.monitor with
        listen := (environment "DCACHE_LISTEN").getD settings.monitor.listen } }

end Settings

end DentryWatch
