import DentryWatch.Replay
import Mathlib

/-!
# What a session calls, and when

A session attaches its source once and detaches it once, at its end, whatever is done to the
source in between. The calls are told apart by who makes them: a source that keeps a log of
them stands in for any other source, and a session does with it what it does without.
-/

namespace DentryWatch

variable {σ : Type}

/-! ## Uses of a session -/

namespace Session

inductive Use (σ : Type) where
  /-- Hooks are fired on the collector. -/
  | hooks (fire : Collector → Collector)
  /-- The source is put to work: it may change, and fire hooks. -/
  | through (act : σ → Collector → σ × Collector)
  /-- Another holder of the source attaches it, or fails to. -/
  | attach
  /-- Another holder of the source detaches it. -/
  | detach

def Use.run (events : EventSource σ) : σ × Collector → Use σ → σ × Collector
  | (source, collector), hooks fire => (source, fire collector)
  | (source, collector), through act => act source collector
  | (source, collector), attach => (events.attach source collector).2
  | (source, collector), detach => events.detach source collector

def use (events : EventSource σ) (session : Session σ) (use : Use σ) : Session σ :=
  let (source, collector) := use.run events (session.source, session.collector)
  { session with source, collector }

def useAll (events : EventSource σ) (session : Session σ) (uses : List (Use σ)) : Session σ :=
  uses.foldl (Session.use events) session

inductive Ending where
  | stop
  | drop
deriving DecidableEq, Repr

def finish (events : EventSource σ) (session : Session σ) : Ending → Session σ
  | .stop => session.stop events
  | .drop => session.drop events

theorem finish_eq_detach (events : EventSource σ) (session : Session σ) (ending : Ending) :
    session.finish events ending = session.detach events := by
  cases ending with
  | stop => exact detach_detach events session
  | drop => rfl

theorem detach_of_attached (events : EventSource σ) {session : Session σ}
    (h : session.attached = true) :
    session.detach events =
      { source := (events.detach session.source session.collector).1
        collector := (events.detach session.source session.collector).2
        attached := false } := by
  rw [detach, if_pos h]

theorem detach_of_not_attached (events : EventSource σ) {session : Session σ}
    (h : session.attached = false) : session.detach events = session := by
  simp [detach, h]

/-- No use decides whether the session still has to detach. -/
theorem attached_useAll (events : EventSource σ) (session : Session σ) (uses : List (Use σ)) :
    (session.useAll events uses).attached = session.attached := by
  induction uses generalizing session with
  | nil => rfl
  | cons use uses ih => exact ih (session.use events use)

/-- The source and the collector go through the uses as they would without a session. -/
theorem shown_useAll (events : EventSource σ) (session : Session σ) (uses : List (Use σ)) :
    ((session.useAll events uses).source, (session.useAll events uses).collector) =
      uses.foldl (Use.run events) (session.source, session.collector) := by
  induction uses generalizing session with
  | nil => rfl
  | cons use uses ih => exact ih (session.use events use)

end Session

/-! ## Sources that log who calls them -/

/-- Who calls a source: the session it was given to, or another holder of it. -/
inductive Caller where
  | session
  | other
deriving DecidableEq, Repr

inductive SourceCall where
  | attach (caller : Caller)
  | detach (caller : Caller)
deriving DecidableEq, Repr

/-- A source as one caller has it, with the calls so far beside its state. -/
def EventSource.logged (events : EventSource σ) (caller : Caller) :
    EventSource (σ × List SourceCall) where
  attach source collector :=
    let (outcome, next, collector) := events.attach source.1 collector
    (outcome, (next, source.2 ++ [.attach caller]), collector)
  detach source collector :=
    let (next, collector) := events.detach source.1 collector
    ((next, source.2 ++ [.detach caller]), collector)

/-- Once it is detached, the source holds no collector. -/
def EventSource.Releases (events : EventSource σ) (holds : σ → Bool) : Prop :=
  ∀ source collector, holds (events.detach source collector).1 = false

namespace Session

/-- A use of a source as a use of one that logs: what it does is the same, and logs nothing. -/
def Use.logged : Use σ → Use (σ × List SourceCall)
  | hooks fire => .hooks fire
  | through act => .through fun source collector =>
      let (next, collector) := act source.1 collector
      ((next, source.2), collector)
  | attach => .attach
  | detach => .detach

/-- The calls of a use on the source, none of them the session's. -/
def Use.calls : Use σ → List SourceCall
  | hooks _ | through _ => []
  | attach => [.attach .other]
  | detach => [.detach .other]

def withLog (session : Session σ) (log : List SourceCall) : Session (σ × List SourceCall) :=
  { source := (session.source, log)
    collector := session.collector
    attached := session.attached }

variable (events : EventSource σ) (session : Session σ) (log : List SourceCall)

theorem use_withLog (use : Use σ) :
    (session.withLog log).use (events.logged .other) use.logged =
      (session.use events use).withLog (log ++ use.calls) := by
  cases use with
  | hooks fire => simp [Session.use, withLog, Use.run, Use.logged, Use.calls]
  | through act => simp [Session.use, withLog, Use.run, Use.logged, Use.calls]
  | attach => rfl
  | detach => rfl

theorem useAll_withLog (uses : List (Use σ)) :
    (session.withLog log).useAll (events.logged .other) (uses.map Use.logged) =
      (session.useAll events uses).withLog (log ++ uses.flatMap Use.calls) := by
  induction uses generalizing session log with
  | nil => simp [useAll]
  | cons use uses ih =>
      have hstep := ih (session.use events use) (log ++ use.calls)
      rw [← use_withLog, List.append_assoc] at hstep
      exact hstep

theorem finish_withLog (ending : Ending) (h : session.attached = true) :
    (session.withLog log).finish (events.logged .session) ending =
      (session.finish events ending).withLog (log ++ [.detach .session]) := by
  have hlogged : (session.withLog log).attached = true := h
  rw [finish_eq_detach, finish_eq_detach, detach_of_attached _ h, detach_of_attached _ hlogged]
  rfl

theorem attached_finish (ending : Ending) : (session.finish events ending).attached = false := by
  rw [finish_eq_detach]
  cases h : session.attached with
  | true => rw [detach_of_attached events h]
  | false => rw [detach_of_not_attached events h, h]

/-! ## After the end -/

/-- Hooks that are fired on the collector itself, or sent through the source. -/
inductive Firing where
  | direct (fire : Collector → Collector)
  | sent (fire : Collector → Collector)

/-- Hooks sent through a source reach the collector while the source holds it. -/
def Firing.use (holds : σ → Bool) : Firing → Use σ
  | direct fire => .hooks fire
  | sent fire => .through fun source collector =>
      (source, if holds source then fire collector else collector)

def Firing.direct? : Firing → Option (Collector → Collector)
  | direct fire => some fire
  | sent _ => none

/-- Without a collector in the hands of the source, only what is fired directly has an effect. -/
theorem collector_useAll_firings {holds : σ → Bool} (h : holds session.source = false)
    (firings : List Firing) :
    (session.useAll events (firings.map (Firing.use holds))).collector =
      (firings.filterMap Firing.direct?).foldl (fun collector fire => fire collector)
        session.collector := by
  induction firings generalizing session with
  | nil => rfl
  | cons firing firings ih =>
      cases firing with
      | direct fire => exact ih (session.use events (.hooks fire)) h
      | sent fire =>
          have hidle : session.use events (Firing.use holds (.sent fire)) = session := by
            simp [Session.use, Use.run, Firing.use, h]
          rw [List.map_cons, useAll, List.foldl_cons, hidle]
          exact ih session h

/-! ## The whole life of a session -/

/-- The calls on the source of a session that was started and put to these uses. -/
def callsOf (uses : List (Use σ)) : List SourceCall := .attach .session :: uses.flatMap Use.calls

theorem start_of_error {events : EventSource σ} {source left : σ} {options : CollectorOptions}
    {cause : AttachError} {collector : Collector}
    (h : events.attach source (.ofOptions options) = (.error cause, left, collector)) :
    start events source options = .error (cause, left) := by
  rw [start, startOn, h]

theorem start_of_ok {events : EventSource σ} {source held : σ} {options : CollectorOptions}
    {collector : Collector}
    (h : events.attach source (.ofOptions options) = (.ok (), held, collector)) :
    start events source options = .ok ⟨held, collector, true⟩ := by
  rw [start, startOn, h]

theorem attach_logged {events : EventSource σ} {source next : σ} {outcome : Except AttachError Unit}
    {collector after : Collector} (h : events.attach source collector = (outcome, next, after))
    (caller : Caller) :
    (events.logged caller).attach (source, log) collector =
      (outcome, (next, log ++ [.attach caller]), after) := by
  simp only [EventSource.logged, h]

/--
A session calls `attach` once, as it starts, and reports the failure of that very call. One
that started calls `detach` once, as it ends, and never again, whatever its source went
through before and goes through later. The source and its collector end up as if the uses
had been made between these two calls without any session; hooks sent through a source that
lets its collector go have no effect from then on.
-/
theorem attaches_and_detaches_once (events : EventSource σ) (source : σ)
    (options : CollectorOptions) :
    (∀ cause left collector,
      events.attach source (.ofOptions options) = (.error cause, left, collector) →
      start events source options = .error (cause, left) ∧
      start (events.logged .session) (source, []) options =
        .error (cause, left, [.attach .session])) ∧
    (∀ held collector, events.attach source (.ofOptions options) = (.ok (), held, collector) →
      ∃ session, start events source options = .ok session ∧
        start (events.logged .session) (source, []) options =
          .ok (session.withLog [.attach .session]) ∧
        ∀ (uses : List (Use σ)) (ending : Ending),
          let used := (session.withLog [.attach .session]).useAll (events.logged .other)
            (uses.map Use.logged)
          let ended := (session.useAll events uses).finish events ending
          let calls := callsOf uses ++ [.detach .session]
          let left := uses.foldl (Use.run events) (held, collector)
          used = (session.useAll events uses).withLog (callsOf uses) ∧
          used.finish (events.logged .session) ending = ended.withLog calls ∧
          (∀ later : List (Use σ),
            let again := (ended.withLog calls).useAll (events.logged .other)
              (later.map Use.logged)
            again.drop (events.logged .session) =
              (ended.useAll events later).withLog (calls ++ later.flatMap Use.calls)) ∧
          (ended.source, ended.collector) = events.detach left.1 left.2 ∧
          ∀ holds : σ → Bool, events.Releases holds → ∀ firings : List Firing,
            (ended.useAll events (firings.map (Firing.use holds))).collector =
              (firings.filterMap Firing.direct?).foldl (fun collector fire => fire collector)
                ended.collector) ∧
    (∀ disk, (ReplaySource.events disk).Releases ReplaySource.attached) ∧
    (∀ (replayed : ReplaySource) (disk : Disk) (now : UInt64) (collector : Collector),
      replayed.detach.replay disk now collector = .error .notAttached) := by
  refine ⟨fun cause left collector h => ⟨start_of_error h, start_of_error (attach_logged [] h _)⟩,
    fun held collector h => ⟨⟨held, collector, true⟩, start_of_ok h,
      start_of_ok (attach_logged [] h _), fun uses ending => ?_⟩,
    fun disk source collector => rfl, fun replayed disk now collector => rfl⟩
  intro used ended calls left
  let session : Session σ := ⟨held, collector, true⟩
  have hused : used = (session.useAll events uses).withLog (callsOf uses) :=
    useAll_withLog events session _ uses
  have hattached : (session.useAll events uses).attached = true :=
    attached_useAll events session uses
  have hreleased : ended.attached = false := attached_finish events _ ending
  have hended : ended =
      ⟨(events.detach (session.useAll events uses).source (session.useAll events uses).collector).1,
        (events.detach (session.useAll events uses).source
          (session.useAll events uses).collector).2, false⟩ :=
    (finish_eq_detach events _ ending).trans (detach_of_attached events hattached)
  refine ⟨hused, hused ▸ finish_withLog events _ _ ending hattached, fun later => ?_, ?_,
    fun holds hreleases firings => ?_⟩
  · intro again
    have hagain : again = (ended.useAll events later).withLog (calls ++ later.flatMap Use.calls) :=
      useAll_withLog events ended calls later
    rw [hagain]
    exact detach_of_not_attached _ ((attached_useAll events ended later).trans hreleased)
  · have hleft : left = ((session.useAll events uses).source,
        (session.useAll events uses).collector) := (shown_useAll events session uses).symm
    rw [hleft, hended]
  · refine collector_useAll_firings events ended ?_ firings
    rw [hended]
    exact hreleases _ _

/-- Someone else lets the source go and attaches it twice; a source that is held fails. -/
theorem attaches_and_detaches_once_replay :
    let events := ReplaySource.events {}
    let source : ReplaySource := { root := Path.ofText "/", group := 7 }
    let held : ReplaySource := { source with attached := true }
    let uses : List (Use ReplaySource) := [.detach, .hooks (·.onPositive 7), .attach, .attach]
    let calls : List SourceCall := [.attach .session, .detach .other, .attach .other,
      .attach .other, .detach .session]
    start (events.logged .session) (held, []) {} =
        .error (.alreadyAttached ReplaySource.name, held, [.attach .session]) ∧
      ∃ session : Session ReplaySource, start events source {} = .ok session ∧
        let ended := (session.useAll events uses).finish events .stop
        ((session.withLog [.attach .session]).useAll (events.logged .other)
            (uses.map Use.logged)).finish (events.logged .session) .stop =
          ended.withLog calls ∧
        (ended.useAll events
            [Firing.use ReplaySource.attached (.sent (·.onNegative 7))]).collector =
          ended.collector := by
  intro events source held uses calls
  have hdir : ({} : Disk).isDirectory (Path.ofText "/") = true := by cbv
  have hok : events.attach source (.ofOptions {}) = (.ok (), held, .ofOptions {}) := by
    simp [events, ReplaySource.events, EventSource.quiet, ReplaySource.attach, source, held, hdir]
  have hfail : events.attach held (.ofOptions {}) =
      (.error (.alreadyAttached ReplaySource.name), held, .ofOptions {}) := rfl
  obtain ⟨-, hstarts, hreleases, -⟩ := attaches_and_detaches_once events source {}
  obtain ⟨session, hstart, -, hlife⟩ := hstarts held (.ofOptions {}) hok
  obtain ⟨-, hended, -, -, hafter⟩ := hlife uses .stop
  exact ⟨((attaches_and_detaches_once events held {}).1 _ held _ hfail).2, session, hstart, hended,
    hafter ReplaySource.attached (hreleases {}) [.sent (·.onNegative 7)]⟩

end Session

end DentryWatch
