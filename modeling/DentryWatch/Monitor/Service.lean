import DentryWatch.Monitor.MediaType
import DentryWatch.Monitor.TraceSetting
import DentryWatch.Report.Basic

/-!
# The monitor's service

The monitor answers requests from a snapshot that is renewed by polling, and lets
the trace gate be read and set. A request that is refused changes nothing.
-/

namespace DentryWatch

structure Request where
  method : String
  /-- What is asked for: a path with or without host and query. -/
  target : String
  contentType : Option String := none
  body : Bytes := []
deriving DecidableEq, Repr

inductive Response where
  | success (contentType body : String)
  | refused (status : Nat)
deriving DecidableEq, Repr

inductive Endpoint where
  /-- The exposition of the snapshot. -/
  | metrics
  /-- Whether the monitor is alive. -/
  | health
  /-- The setting of the trace gate. -/
  | traces
deriving DecidableEq, Repr

namespace Endpoint

/-- The path of a target. A host may stand before it, a query after it. -/
def pathOf (target : String) : String :=
  let chars := target.toList.takeWhile fun c => c ≠ '?' && c ≠ '#'
  match chars with
  | '/' :: _ => String.ofList chars
  | _ =>
      match chars.dropWhile (· ≠ ':') with
      | ':' :: '/' :: '/' :: host =>
          match host.dropWhile (· ≠ '/') with
          | [] => "/"
          | path => String.ofList path
      | _ => ""

def ofPath? (path : String) : Option Endpoint :=
  if path = "/metrics" then some .metrics
  else if path = "/healthz" then some .health
  else if path = "/traces/config" then some .traces
  else none

end Endpoint

structure Monitor where
  collector : Collector
  /-- The map from groups to pods. -/
  resolver : Resolver
  /-- The process file system. -/
  procRoot : Path
  snapshot : Report

namespace Monitor

def capture (collector : Collector) (resolver : Resolver) (procRoot : Path) (disk : Disk)
    (now : Instant) : Report :=
  (Report.capture collector disk procRoot now).labelWith resolver

def ofCollector (collector : Collector) (resolver : Resolver) (procRoot : Path) (disk : Disk)
    (now : Instant) : Monitor :=
  { collector, resolver, procRoot, snapshot := capture collector resolver procRoot disk now }

def poll (monitor : Monitor) (disk : Disk) (now : Instant) : Monitor :=
  { monitor with
    snapshot := capture monitor.collector monitor.resolver monitor.procRoot disk now }

def settingResponse (enabled : Bool) : Response :=
  .success "application/json" (TraceSetting.write enabled)

def view (monitor : Monitor) : Endpoint → Response
  | .metrics => .success Exposition.contentType monitor.snapshot.exposition
  | .health => .success "text/plain; charset=utf-8" "ok\n"
  | .traces => settingResponse monitor.collector.tracing

def refusalStatus : TraceSetting.Refusal → Nat
  | .malformed => 400
  | .shape => 422

def maxBody : Nat := 2097152

def setTraces (monitor : Monitor) (request : Request) : Response × Monitor :=
  if !(request.contentType.map MediaType.isJson).getD false then (.refused 415, monitor)
  else if maxBody < request.body.length then (.refused 413, monitor)
  else
    match TraceSetting.read request.body with
    | .error cause => (.refused (refusalStatus cause), monitor)
    | .ok enabled =>
        (settingResponse enabled,
          { monitor with collector := (monitor.collector.setTracing enabled).2 })

def withoutBody : Response → Response
  | .success contentType _ => .success contentType ""
  | refused => refused

def answer (monitor : Monitor) (request : Request) : Response × Monitor :=
  match Endpoint.ofPath? (Endpoint.pathOf request.target) with
  | none => (.refused 404, monitor)
  | some endpoint =>
      if request.method = "GET" then (monitor.view endpoint, monitor)
      else if request.method = "HEAD" then (withoutBody (monitor.view endpoint), monitor)
      else if request.method = "PUT" && endpoint = .traces then monitor.setTraces request
      else (.refused 405, monitor)

end Monitor

end DentryWatch
