import DentryWatch.Cgroup.Resolver
import DentryWatch.Collector
import DentryWatch.Decimal.Shortest
import DentryWatch.Instant
import DentryWatch.NodeState
import DentryWatch.Report.Exposition
import DentryWatch.Report.Json

/-!
# Reports

A report shows a collector at one instant together with the counts of the node.
Its groups are sorted by number and carry the labels of their pods. It is written
as JSON or as an exposition of metrics, where groups with the same labels are
added up.
-/

namespace DentryWatch

structure GroupReport where
  group : GroupId
  /-- Its counters. -/
  counts : Counts
  pod : String
  container : String
deriving DecidableEq, Repr

/-- A collector at one instant. -/
structure Report where
  capturedAt : Instant
  /-- The trace gate in words. -/
  trace : String
  groups : List GroupReport
  /-- Reclaim passes seen. -/
  reclaims : UInt64
  /-- Events lost. -/
  drops : Drops
  /-- The pressure counters of the trace ring. -/
  ring : RingStats
  /-- The counts of the node, if they could be read. -/
  node : Option NodeState
deriving DecidableEq, Repr

namespace Report

/-- A report on a collector, with labels that name the groups by number. -/
def capture (collector : Collector) (disk : Disk) (procRoot : Path) (now : Instant) : Report where
  capturedAt := now
  trace := collector.traceState
  groups := (collector.groups.map fun (group, counts) =>
    { group, counts, pod := Resolver.fallback group, container := "" : GroupReport }).mergeSort
      fun a b => a.group ≤ b.group
  reclaims := collector.reclaims
  drops := collector.drops
  ring := collector.ring.stats
  node := (NodeState.read disk procRoot).toOption

def labelWith (report : Report) (resolver : Resolver) : Report :=
  { report with
    groups := report.groups.map fun entry =>
      let (pod, container) := resolver.labels entry.group
      { entry with pod, container } }

def jsonWord (word : UInt64) : JsonDoc := .number word.toNat

def jsonGroup (entry : GroupReport) : JsonDoc :=
  .object [
    ("group_id", jsonWord entry.group),
    ("alloc", jsonWord entry.counts.alloc),
    ("positive", jsonWord entry.counts.positive),
    ("negative", jsonWord entry.counts.negative),
    ("pod", .text entry.pod),
    ("container", .text entry.container)]

def jsonNode (node : NodeState) : JsonDoc :=
  .object [("total", .number node.total), ("unused", .number node.unused),
    ("negative", .number node.negative)]

def json (report : Report) : JsonDoc :=
  .object ([
    ("captured_at", .text (String.ofList report.capturedAt.shortText)),
    ("trace", .text report.trace),
    ("groups", .list (report.groups.map jsonGroup)),
    ("reclaim_total", jsonWord report.reclaims),
    ("drops", .object [("table_exhausted", jsonWord report.drops.tableExhausted),
      ("channel_full", jsonWord report.drops.ringFull)]),
    ("channel", .object [("pushes", jsonWord report.ring.pushes),
      ("pops", jsonWord report.ring.pops), ("drops", jsonWord report.ring.drops),
      ("max_depth", jsonWord report.ring.maxDepth)])] ++
    report.node.toList.map fun node => ("node", jsonNode node))

/-- What tells the samples of two groups apart: their label values written one after the other. -/
def sampleKey (entry : GroupReport) : List Char := entry.pod.toList ++ entry.container.toList

/-- Sums up a counter over groups with the same key. The first group gives the labels. -/
def totals (counter : Counts → UInt64) : List GroupReport → List (GroupReport × UInt64) :=
  List.foldl (fun sums entry =>
    if sums.any (fun sum => sampleKey sum.1 == sampleKey entry) then
      sums.map fun sum =>
        if sampleKey sum.1 = sampleKey entry then (sum.1, sum.2 + counter entry.counts) else sum
    else sums ++ [(entry, counter entry.counts)]) []

def groupFamily (report : Report) (name help : String) (counter : Counts → UInt64) :
    MetricFamily where
  name := name
  help := help
  kind := "counter"
  samples := (totals counter report.groups).map fun (entry, sum) =>
    { labels := [("container", entry.container), ("pod", entry.pod)]
      value := Decimal.shown sum.toNat }

def nodeSample (kind : String) (value : Int) : Sample :=
  { labels := [("type", kind)], value := Decimal.shownInt value }

def families (report : Report) : List MetricFamily := [
  report.groupFamily "dentry_alloc_total" "Total dentry allocations per container" Counts.alloc,
  report.groupFamily "dentry_positive_total"
    "Total positive dentry instantiations per container" Counts.positive,
  report.groupFamily "dentry_negative_total"
    "Total negative dentry instantiations per container" Counts.negative,
  { name := "dentry_reclaim_total", help := "Total dentry reclaim events", kind := "counter"
    samples := [{ labels := [], value := Decimal.shown report.reclaims.toNat }] },
  { name := "dentry_count", help := "Node-level dentry counts from /proc/sys/fs/dentry-state"
    kind := "gauge"
    samples := match report.node with
      | none => []
      | some node => [nodeSample "total" node.total, nodeSample "unused" node.unused,
          nodeSample "negative" node.negative] }]

def exposition (report : Report) : String := Exposition.write report.families

end Report

end DentryWatch
