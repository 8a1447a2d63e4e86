import DentryWatch.Command.Watch
import DentryWatch.Monitor.Service

/-!
# Starting the monitor

The command attaches a tree, opens the trace outputs, replays the tree once and
listens for requests. What can fail fails in that order; intervals are looked at
first of all.
-/

namespace DentryWatch.Command

structure MonitorOptions extends WatchOptions where
  listen : Option String := none
  /-- Seconds between snapshots. -/
  poll : Option UInt64 := none
  /-- Seconds between readings of the control groups. -/
  resolve : Option UInt64 := none
  /-- Seconds between scans of the tree. -/
  rescan : Option UInt64 := none
deriving DecidableEq, Repr

namespace MonitorOptions

def specs : List OptionSpec :=
  WatchOptions.specs ++
    [⟨"listen", .text⟩, ⟨"poll-interval", .number⟩, ⟨"resolve-interval", .number⟩,
     ⟨"rescan-interval", .number⟩]

def ofLine (line : CommandLine) : MonitorOptions :=
  { WatchOptions.ofLine line with
    listen := line.text? "listen"
    poll := line.number? "poll-interval"
    resolve := line.number? "resolve-interval"
    rescan := line.number? "rescan-interval" }

def intervalsValid (options : MonitorOptions) (settings : MonitorSettings) : Bool :=
  options.poll.getD settings.pollSeconds != 0 && options.resolve.getD settings.resolveSeconds != 0

end MonitorOptions

/-- Replays the tree of an attached session for the first time and begins to listen. -/
def beginService (settings : Settings) (now : Instant) (address : String)
    (session : Session ReplaySource) (disk : Disk) : Except CommandFailure Monitor × Collector :=
  match session.source.replay disk (clock now) session.collector with
  | .error cause => (.error (.replay cause), session.collector)
  | .ok (_, collector) =>
      let empty : Resolver :=
        { procRoot := settings.report.procRoot, cgroupRoot := settings.report.cgroupRoot }
      let (_, resolver) := empty.refresh disk
      match Address.check address with
      | .error cause => (.error (.listen address cause), collector)
      | .ok () =>
          (.ok (.ofCollector collector resolver settings.report.procRoot disk now), collector)

/-- Starts the monitor. Without a failure the answer is the monitor that serves. -/
def startMonitor (disk : Disk) (settings : Settings) (now : Instant) (options : MonitorOptions) :
    Outcome × Option Monitor :=
  if !options.intervalsValid settings.monitor then
    ({ disk, failure := some .intervals }, none)
  else
    match options.attach disk settings with
    | .error cause => ({ disk, failure := some cause }, none)
    | .ok session =>
        match options.openDrain none disk settings.trace with
        | (.error cause, disk) => ({ disk, failure := some cause }, none)
        | (.ok drain, disk) =>
            let session := { session with collector := session.collector.takeReader.2 }
            let address := options.listen.getD settings.monitor.listen
            match beginService settings now address session disk with
            | (.error cause, collector) =>
                let (_, _, disk) := drainCollector now drain collector disk
                ({ disk, failure := some cause }, none)
            | (.ok service, _) =>
                ({ disk, output := s!"Listening on http://{address}\n" }, some service)

end DentryWatch.Command
