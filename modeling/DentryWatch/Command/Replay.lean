import DentryWatch.Command.Watch

/-!
# Replaying a tree once

The command replays a tree, writes traced records if tracing is on, and prints a
report, either as a table or as JSON.
-/

namespace DentryWatch.Command

structure ReplayOptions extends WatchOptions where
  /-- Where raw records are written. -/
  raw : Option Path := none
  /-- Whether the report is printed as JSON. -/
  json : Bool := false
deriving DecidableEq, Repr

namespace ReplayOptions

def specs : List OptionSpec := WatchOptions.specs ++ [⟨"raw", .path⟩, ⟨"json", .flag⟩]

def ofLine (line : CommandLine) : ReplayOptions :=
  { WatchOptions.ofLine line with raw := line.path? "raw", json := line.flag "json" }

end ReplayOptions

def aligned (width : Nat) (text : List Char) : String := String.ofList (text.leftpad width ' ')

def groupRow (group alloc positive negative : List Char) (pod : String) : String :=
  s!"  {aligned 20 group}  {aligned 10 alloc}  {aligned 10 positive}  {aligned 10 negative}  {pod}\n"

def wordText (word : UInt64) : List Char := Text.decimal word.toNat

def summaryText (dir : Path) (counts : ReplayCounts) (drained : Option DrainSummary)
    (report : Report) : String :=
  let lost := report.drops.tableExhausted.toNat + report.drops.ringFull.toNat
  s!"\n  Replayed {dir.text}\n" ++
  s!"  entries={counts.entries} dirs={counts.dirs} missing={counts.missing} " ++
  s!"skipped={counts.skipped}\n\n" ++
  groupRow "group".toList "alloc".toList "positive".toList "negative".toList "pod" ++
  String.join (report.groups.map fun entry =>
    groupRow (wordText entry.group) (wordText entry.counts.alloc) (wordText entry.counts.positive)
      (wordText entry.counts.negative) entry.pod) ++
  s!"\n  reclaim events: {report.reclaims}\n" ++
  (if lost = 0 then ""
    else s!"  dropped: table_exhausted={report.drops.tableExhausted} " ++
      s!"channel_full={report.drops.ringFull}\n") ++
  match drained with
  | none => ""
  | some summary =>
      s!"  traces: received={summary.received} written={summary.written} " ++
      s!"filtered={summary.filtered}\n"

/-- The report on a collector, labelled if the control groups can be read. -/
def labelledReport (settings : ReportSettings) (collector : Collector) (disk : Disk)
    (now : Instant) : Report :=
  let report := Report.capture collector disk settings.procRoot now
  let resolver : Resolver := { procRoot := settings.procRoot, cgroupRoot := settings.cgroupRoot }
  match resolver.refresh disk with
  | (.ok _, resolver) => report.labelWith resolver
  | (.error _, _) => report

def drainInto (now : Instant) (drain : Option Drain) (collector : Collector) (disk : Disk) :
    Except CommandFailure (Option DrainSummary) × Collector × Disk :=
  match drain with
  | none => (.ok none, collector, disk)
  | some drain =>
      match drainCollector now drain collector disk with
      | (.ok summary, collector, disk) => (.ok (some summary), collector, disk)
      | (.error cause, collector, disk) => (.error (.drain cause), collector, disk)

def finishReplay (settings : Settings) (now : Instant) (options : ReplayOptions)
    (session : Session ReplaySource) (drain : Option Drain) (disk : Disk) : Outcome :=
  match session.source.replay disk (clock now) session.collector with
  | .error cause =>
      let (_, _, disk) := drainInto now drain session.collector disk
      { disk, failure := some (.replay cause) }
  | .ok (counts, collector) =>
      let stopped := { session with collector }.stop (ReplaySource.events disk)
      match drainInto now drain stopped.collector disk with
      | (.error cause, _, disk) => { disk, failure := some cause }
      | (.ok drained, collector, disk) =>
          let report := labelledReport settings.report collector disk now
          let output :=
            if options.json then report.json.render ++ "\n"
            else summaryText options.dir counts drained report
          { disk, output }

def replayTree (disk : Disk) (settings : Settings) (now : Instant) (options : ReplayOptions) :
    Outcome :=
  match options.attach disk settings with
  | .error cause => { disk, failure := some cause }
  | .ok session =>
      if session.collector.tracing then
        match options.openDrain options.raw disk settings.trace with
        | (.error cause, disk) => { disk, failure := some cause }
        | (.ok drain, disk) =>
            let session := { session with collector := session.collector.takeReader.2 }
            finishReplay settings now options session (some drain) disk
      else finishReplay settings now options session none disk

end DentryWatch.Command
