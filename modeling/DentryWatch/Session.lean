import DentryWatch.Collector
import DentryWatch.Disk.Failure

/-!
# Sessions

A session binds a fresh collector to one source of events. Starting attaches
the source, and ending detaches it, once each; a session that failed to start
never detaches. The collector outlives its session.
-/

namespace DentryWatch

inductive AttachError where
  /-- It holds a collector already. -/
  | alreadyAttached (source : String)
  /-- It refused, for a reason of its own. -/
  | source (source reason : String)
  /-- The system refused. -/
  | io (cause : IoFailure)
deriving DecidableEq, Repr

def AttachError.message : AttachError → String
  | alreadyAttached name => s!"event source '{name}' is already attached"
  | source name reason => s!"event source '{name}' failed: {reason}"
  | io cause => s!"IO error: {cause.message}"

def AttachError.chain (error : AttachError) : List String :=
  error.message ::
    match error with
    | io cause => [cause.message]
    | _ => []

/-- A source of hook calls with states in `σ`. Both calls may fire hooks themselves. -/
structure EventSource (σ : Type) where
  /-- Begins to deliver hook calls, or fails. Either way the source may change. -/
  attach : σ → Collector → Except AttachError Unit × σ × Collector
  /-- Ends the delivery of hook calls. -/
  detach : σ → Collector → σ × Collector

/-- A source that fires no hook while it is attached or detached. -/
def EventSource.quiet {σ : Type} (attach : σ → Except AttachError Unit × σ) (detach : σ → σ) :
    EventSource σ where
  attach source collector := ((attach source).1, (attach source).2, collector)
  detach source collector := (detach source, collector)

structure Session (σ : Type) where
  source : σ
  collector : Collector
  /-- Whether the session still has to detach. -/
  attached : Bool

namespace Session

variable {σ : Type}

/-- Attaches a source to a collector. A failure leaves the source's last state. -/
def startOn (events : EventSource σ) (source : σ) (collector : Collector) :
    Except (AttachError × σ) (Session σ) :=
  match events.attach source collector with
  | (.ok (), source, collector) => .ok { source, collector, attached := true }
  | (.error cause, source, _) => .error (cause, source)

def start (events : EventSource σ) (source : σ) (options : CollectorOptions) :
    Except (AttachError × σ) (Session σ) :=
  startOn events source (.ofOptions options)

/-- Starts a session, unless the program stops before it has a collector. -/
def start? (events : EventSource σ) (source : σ) (options : CollectorOptions) :
    Option (Except (AttachError × σ) (Session σ)) :=
  (Collector.ofOptions? options).map (startOn events source)

def detach (events : EventSource σ) (session : Session σ) : Session σ :=
  if session.attached then
    let (source, collector) := events.detach session.source session.collector
    { source, collector, attached := false }
  else session

/-- Ends a session and keeps its collector; the release that follows detaches nothing more. -/
def stop (events : EventSource σ) (session : Session σ) : Session σ :=
  (session.detach events).detach events

def drop (events : EventSource σ) (session : Session σ) : Session σ := session.detach events

theorem detach_detach (events : EventSource σ) (session : Session σ) :
    (session.detach events).detach events = session.detach events := by
  cases h : session.attached <;> simp [detach, h]

end Session

structure ScriptedSource where
  /-- What attaching fails with, if it is to fail. -/
  failure : Option AttachError := none
  /-- Whether it holds a collector. -/
  held : Bool := false
  /-- The calls so far, the latest first. -/
  calls : List String := []
deriving DecidableEq, Repr

namespace ScriptedSource

def name : String := "scripted"

def log (source : ScriptedSource) : List String := source.calls.reverse

/-- Logs the call, then fails as scripted, or because it holds a collector, or takes it. -/
def attach (source : ScriptedSource) : Except AttachError Unit × ScriptedSource :=
  let source := { source with calls := "attach" :: source.calls }
  match source.failure with
  | some cause => (.error cause, source)
  | none =>
      if source.held then (.error (.alreadyAttached name), source)
      else (.ok (), { source with held := true })

def detach (source : ScriptedSource) : ScriptedSource :=
  { source with held := false, calls := s!"detach:{source.held}" :: source.calls }

def events : EventSource ScriptedSource := .quiet attach detach

end ScriptedSource

end DentryWatch
