import DentryWatch.Monitor.Service
import DentryWatch.Proofs.Collector.Accounts
import DentryWatch.Proofs.Collector.Hooks
import DentryWatch.Proofs.Report.Pages
import Mathlib

/-!
# What a monitor serves

The collector, the map of pods, the files and the requests change on their own, in
any order. The metrics are those of the last poll all the same, and the trace gate
is where the last accepted request put it.
-/

namespace DentryWatch

/-! ## Requests -/

/-- The request asks to read an endpoint. -/
def Request.Gets (request : Request) (endpoint : Endpoint) : Prop :=
  request.method = "GET" ∧ Endpoint.ofPath? (Endpoint.pathOf request.target) = some endpoint

/-- The setting of the trace gate that a request brings, unless it is refused. -/
def Request.setting? (request : Request) : Option Bool :=
  if request.method = "PUT" ∧
      Endpoint.ofPath? (Endpoint.pathOf request.target) = some .traces ∧
      (request.contentType.map MediaType.isJson).getD false = true ∧
      request.body.length ≤ Monitor.maxBody then
    (TraceSetting.read request.body).toOption
  else none

/-- A setting is accepted as it is shown. -/
theorem Request.setting?_of_write {request : Request} {setting : Bool}
    (hmethod : request.method = "PUT")
    (hendpoint : Endpoint.ofPath? (Endpoint.pathOf request.target) = some .traces)
    (hjson : (request.contentType.map MediaType.isJson).getD false = true)
    (hbody : request.body = Utf8.encode (TraceSetting.write setting)) :
    request.setting? = some setting := by
  have hread : (TraceSetting.read request.body).toOption = some setting := by
    rw [hbody]
    cases setting <;> decide +kernel
  have hlength : request.body.length ≤ Monitor.maxBody := by
    rw [hbody]
    cases setting <;> decide +kernel
  rw [setting?, if_pos ⟨hmethod, hendpoint, hjson, hlength⟩, hread]

namespace Monitor

variable (monitor : Monitor) (request : Request)

theorem answer_of_gets {endpoint : Endpoint} (h : request.Gets endpoint) :
    monitor.answer request = (monitor.view endpoint, monitor) := by
  unfold answer
  simp only [h.2]
  rw [if_pos h.1]

/-- What an answer can do: it sets the gate and shows the setting, or it changes nothing. -/
inductive Answered : Response × Monitor → Prop where
  | set (enabled : Bool) (setting : request.setting? = some enabled) :
      Answered (settingResponse enabled,
        { monitor with collector := { monitor.collector with tracing := enabled } })
  | refused (status : Nat) (setting : request.setting? = none) :
      Answered (.refused status, monitor)
  | read (response : Response) (setting : request.setting? = none)
      (method : request.method ≠ "PUT") : Answered (response, monitor)

theorem answered_setTraces (hmethod : request.method = "PUT")
    (hendpoint : Endpoint.ofPath? (Endpoint.pathOf request.target) = some .traces) :
    monitor.Answered request (monitor.setTraces request) := by
  unfold setTraces
  by_cases hjson : (request.contentType.map MediaType.isJson).getD false = true
  · rw [hjson, Bool.not_true, if_neg Bool.false_ne_true]
    by_cases hbody : request.body.length ≤ maxBody
    · have hsetting : request.setting? = (TraceSetting.read request.body).toOption := by
        rw [Request.setting?, if_pos ⟨hmethod, hendpoint, hjson, hbody⟩]
      rw [if_neg (Nat.not_lt.2 hbody)]
      cases hread : TraceSetting.read request.body with
      | error cause =>
          rw [hread] at hsetting
          exact .refused _ hsetting
      | ok enabled =>
          rw [hread] at hsetting
          exact .set enabled hsetting
    · rw [if_pos (Nat.lt_of_not_le hbody)]
      exact .refused _ (if_neg fun h => hbody h.2.2.2)
  · have hoff := Bool.eq_false_iff.2 hjson
    rw [hoff, Bool.not_false, if_pos rfl]
    exact .refused _ (if_neg fun h => hjson h.2.2.1)

theorem answered : monitor.Answered request (monitor.answer request) := by
  unfold answer
  cases hendpoint : Endpoint.ofPath? (Endpoint.pathOf request.target) with
  | none =>
      have hnone : request.setting? = none := if_neg fun h => by simp [hendpoint] at h
      exact .refused 404 hnone
  | some endpoint =>
      dsimp only
      by_cases hget : request.method = "GET"
      · have hput : request.method ≠ "PUT" := by simp [hget]
        rw [if_pos hget]
        exact .read _ (if_neg fun h => hput h.1) hput
      rw [if_neg hget]
      by_cases hhead : request.method = "HEAD"
      · have hput : request.method ≠ "PUT" := by simp [hhead]
        rw [if_pos hhead]
        exact .read _ (if_neg fun h => hput h.1) hput
      rw [if_neg hhead]
      by_cases hput : request.method = "PUT" ∧ endpoint = .traces
      · obtain ⟨hput, rfl⟩ := hput
        rw [if_pos (by simp [hput])]
        exact monitor.answered_setTraces request hput hendpoint
      · rw [if_neg (by simpa using hput)]
        refine .refused 405 (if_neg fun h => hput ⟨h.1, ?_⟩)
        rw [hendpoint] at h
        exact Option.some.inj h.2.1

end Monitor

/-! ## Reports -/

/-- The report shows the counters with their labels and the counts of the node. -/
structure Report.Pictures (report : Report) (collector : Collector) (resolver : Resolver)
    (disk : Disk) (procRoot : Path) : Prop where
  groups : report.groups.Perm (collector.groups.map fun entry =>
    { group := entry.1, counts := entry.2, pod := (resolver.labels entry.1).1,
      container := (resolver.labels entry.1).2 })
  reclaims : report.reclaims = collector.reclaims
  node : report.node = (NodeState.read disk procRoot).toOption
  node_iff : ∀ node, report.node = some node ↔ ∃ text,
    disk.readText (procRoot.child "sys/fs/dentry-state") = .ok text ∧
      NodeState.parse? text.toList = some node

/-- The counts of a node are those that its file lists. -/
theorem NodeState.toOption_read_eq_some_iff {disk : Disk} {procRoot : Path} {node : NodeState} :
    (read disk procRoot).toOption = some node ↔ ∃ text,
      disk.readText (procRoot.child "sys/fs/dentry-state") = .ok text ∧
        parse? text.toList = some node := by
  rw [read, pathIn]
  cases disk.readText (procRoot.child "sys/fs/dentry-state") with
  | error cause => simp [Except.toOption]
  | ok text => cases hparse : parse? text.toList <;> simp [Except.toOption, hparse]

theorem Monitor.pictures_capture (collector : Collector) (resolver : Resolver) (procRoot : Path)
    (disk : Disk) (now : Instant) :
    (capture collector resolver procRoot disk now).Pictures collector resolver disk procRoot := by
  refine ⟨?_, rfl, rfl, fun node => NodeState.toOption_read_eq_some_iff⟩
  refine ((List.mergeSort_perm _ _).map _).trans (List.Perm.of_eq ?_)
  rw [List.map_map]
  rfl

/-! ## Runs -/

/-- What happens to a monitor and around it. -/
inductive MonitorEvent : Type 1 where
  /-- A call on the collector that leaves the trace gate alone. -/
  | call (action : CollectorStep) (quiet : ∀ before, action.gate before = before)
  | poll (now : Instant)
  /-- The map of pods is read again. -/
  | refresh
  /-- The file systems change. -/
  | files (disk : Disk)
  | asked (request : Request)

namespace MonitorEvent

def isPoll : MonitorEvent → Bool
  | .poll _ => true
  | _ => false

def setting? : MonitorEvent → Option Bool
  | .asked request => request.setting?
  | _ => none

/-- What the event does to the collector, as calls on it. -/
def calls : MonitorEvent → List CollectorStep
  | .call action _ => [action]
  | .asked request => (request.setting?.map CollectorStep.setTracing).toList
  | _ => []

/-- The answer, if the event asks for one, and the monitor and the files after it. -/
def step : MonitorEvent → Monitor × Disk → Option Response × (Monitor × Disk)
  | .call action _, (monitor, disk) =>
      (none, { monitor with collector := (Collector.step action monitor.collector).2 }, disk)
  | .poll now, (monitor, disk) => (none, monitor.poll disk now, disk)
  | .refresh, (monitor, disk) =>
      (none, { monitor with resolver := (monitor.resolver.refresh disk).2 }, disk)
  | .files disk, (monitor, _) => (none, monitor, disk)
  | .asked request, (monitor, disk) =>
      let (response, monitor) := monitor.answer request
      (some response, monitor, disk)

variable (event : MonitorEvent) (state : Monitor × Disk)

/-- Only a poll renews the snapshot, and it renews it from what is there. -/
theorem snapshot_step (hpoll : event.isPoll = false) :
    (event.step state).2.1.snapshot = state.1.snapshot := by
  obtain ⟨monitor, disk⟩ := state
  cases event with
  | call action quiet => rfl
  | poll now => cases hpoll
  | refresh => rfl
  | files disk => rfl
  | asked request =>
      show (monitor.answer request).2.snapshot = monitor.snapshot
      have hanswered := monitor.answered request
      generalize monitor.answer request = result at hanswered
      cases hanswered <;> rfl

theorem procRoot_step : (event.step state).2.1.procRoot = state.1.procRoot := by
  obtain ⟨monitor, disk⟩ := state
  cases event with
  | call action quiet => rfl
  | poll now => rfl
  | refresh => rfl
  | files disk => rfl
  | asked request =>
      show (monitor.answer request).2.procRoot = monitor.procRoot
      have hanswered := monitor.answered request
      generalize monitor.answer request = result at hanswered
      cases hanswered <;> rfl

theorem collector_step :
    (event.step state).2.1.collector =
      (runAll Collector.step event.calls state.1.collector).2 := by
  obtain ⟨monitor, disk⟩ := state
  cases event with
  | call action quiet => rfl
  | poll now => rfl
  | refresh => rfl
  | files disk => rfl
  | asked request =>
      show (monitor.answer request).2.collector = _
      have hanswered := monitor.answered request
      generalize monitor.answer request = result at hanswered
      cases hanswered <;> simp only [calls, *] <;> rfl

theorem tracing_step :
    (event.step state).2.1.collector.tracing = event.setting?.getD state.1.collector.tracing := by
  rw [collector_step]
  cases event with
  | call action quiet =>
      rw [calls, runAll_cons, runAll_nil]
      exact (Collector.tracing_step action state.1.collector).trans (quiet _)
  | poll now => rfl
  | refresh => rfl
  | files disk => rfl
  | asked request =>
      rw [calls, setting?]
      cases request.setting? <;> rfl

end MonitorEvent

namespace Monitor

open MonitorEvent

variable (events : List MonitorEvent) (state : Monitor × Disk)

theorem snapshot_runAll (hquiet : ∀ event ∈ events, event.isPoll = false) :
    (runAll MonitorEvent.step events state).2.1.snapshot = state.1.snapshot := by
  induction events generalizing state with
  | nil => rfl
  | cons event rest ih =>
      have hrest := ih (event.step state).2 fun other hmem =>
        hquiet other (List.mem_cons_of_mem _ hmem)
      exact hrest.trans (event.snapshot_step state (hquiet event List.mem_cons_self))

theorem procRoot_runAll :
    (runAll MonitorEvent.step events state).2.1.procRoot = state.1.procRoot := by
  induction events generalizing state with
  | nil => rfl
  | cons event rest ih => exact (ih (event.step state).2).trans (event.procRoot_step state)

/-- For the collector an accepted request is a call on its gate, and nothing else happens to it. -/
theorem collector_runAll :
    (runAll MonitorEvent.step events state).2.1.collector =
      (runAll Collector.step (events.flatMap calls) state.1.collector).2 := by
  induction events generalizing state with
  | nil => rfl
  | cons event rest ih =>
      rw [runAll_cons, List.flatMap_cons, runAll_append]
      dsimp only
      rw [ih, event.collector_step]

/-- The gate is where the last accepted request put it. -/
theorem tracing_runAll :
    (runAll MonitorEvent.step events state).2.1.collector.tracing =
      (events.filterMap setting?).getLast?.getD state.1.collector.tracing := by
  induction events generalizing state with
  | nil => rfl
  | cons event rest ih =>
      have hstep := event.tracing_step state
      rw [runAll_cons]
      dsimp only
      rw [ih, hstep]
      cases hsetting : event.setting? with
      | none => rw [List.filterMap_cons_none hsetting, Option.getD_none]
      | some enabled =>
          rw [List.filterMap_cons_some hsetting, List.getLast?_cons, Option.getD_some,
            Option.getD_some]

/-- The snapshot is that of the last poll. -/
theorem snapshot_of_last_poll (before later : List MonitorEvent) (now : Instant)
    (hquiet : ∀ event ∈ later, event.isPoll = false) :
    let polled := (runAll MonitorEvent.step before state).2
    (runAll MonitorEvent.step (before ++ .poll now :: later) state).2.1.snapshot =
      capture polled.1.collector polled.1.resolver state.1.procRoot polled.2 now := by
  intro polled
  rw [runAll_append, runAll_cons]
  refine (snapshot_runAll later _ hquiet).trans ?_
  rw [← procRoot_runAll before state]
  rfl

/-- On a collector that began empty, the last poll lists the groups of its table. -/
theorem lists_of_last_poll {options : CollectorOptions} {actions : List CollectorStep}
    (htable : options.tableCapacity ≤ 2 ^ 62)
    (hcollector : state.1.collector = (runAll Collector.step actions (.ofOptions options)).2)
    (before later : List MonitorEvent) (now : Instant)
    (hquiet : ∀ event ∈ later, event.isPoll = false) :
    let polled := (runAll MonitorEvent.step before state).2
    (runAll MonitorEvent.step (before ++ .poll now :: later) state).2.1.snapshot.Lists
      polled.1.collector.table polled.1.resolver := by
  intro polled
  have hpolled : polled.1.collector =
      (runAll Collector.step (actions ++ before.flatMap calls) (.ofOptions options)).2 := by
    rw [runAll_append, ← hcollector]
    exact collector_runAll before state
  have hsound : polled.1.collector.table.Sound := by
    rw [hpolled]
    exact (Collector.shows_runAll htable _).1.sound
  rw [snapshot_of_last_poll state before later now hquiet]
  exact Report.lists_capture hsound polled.1.resolver polled.2 state.1.procRoot now

theorem orderly_runAll {options : CollectorOptions} {actions : List CollectorStep}
    (hrecords : options.ringRecords ≤ 2 ^ 63)
    (hcollector : state.1.collector = (runAll Collector.step actions (.ofOptions options)).2)
    (events : List MonitorEvent) :
    (runAll MonitorEvent.step events state).2.1.collector.Orderly := by
  have hbegan := ((Collector.orderly_ofOptions hrecords).runAll actions).1
  rw [collector_runAll, hcollector]
  exact (hbegan.runAll _).1

/--
A monitor that was made at some time, and whatever happened since, with no one but
accepted requests moving the trace gate. The metrics show the counters, labels and
node of the last poll, or of the beginning, line by line, and numbers of at most 53
bits exactly. The setting that is read is that of the last request that was accepted,
or the collector's own. A request that is refused, or only reads, leaves the monitor
as it is; an accepted one moves the gate and nothing else, and the two settings as
they are shown are accepted. Then allocations are traced or not as it says. Where the
collector began empty, what is shown are the groups of its table, once each, and an
allocation that is traced adds its own record to the ring, or is counted as lost there.
-/
theorem runAll_serves_last_poll (collector : Collector) (resolver : Resolver) (procRoot : Path)
    (disk : Disk) (begun : Instant) (events : List MonitorEvent) :
    let start := (ofCollector collector resolver procRoot disk begun, disk)
    let last := (runAll MonitorEvent.step events start).2.1
    let enabled := (events.filterMap setting?).getLast?.getD collector.tracing
    (∀ request : Request, request.Gets .metrics →
      last.answer request = (.success Exposition.contentType last.snapshot.exposition, last)) ∧
    last.snapshot.ShownOn last.snapshot.exposition ∧
    (∀ number : Nat, number < 2 ^ 53 → Decimal.shown number = Text.decimal number ∧
      Decimal.shownInt number = Text.decimal number ∧
      (0 < number → Decimal.shownInt (-number) = '-' :: Text.decimal number)) ∧
    ((∀ event ∈ events, event.isPoll = false) →
      last.snapshot = capture collector resolver procRoot disk begun ∧
        last.snapshot.Pictures collector resolver disk procRoot) ∧
    (∀ before now later, events = before ++ .poll now :: later →
      (∀ event ∈ later, event.isPoll = false) →
      let polled := (runAll MonitorEvent.step before start).2
      last.snapshot = capture polled.1.collector polled.1.resolver procRoot polled.2 now ∧
        last.snapshot.Pictures polled.1.collector polled.1.resolver polled.2 procRoot) ∧
    (∀ request : Request, request.Gets .traces →
      last.answer request = (settingResponse enabled, last)) ∧
    (∀ setting, settingResponse setting =
      .success "application/json" (TraceSetting.write setting)) ∧
    TraceSetting.write true = "\x7b\"enabled\":true\x7d" ∧
    TraceSetting.write false = "\x7b\"enabled\":false\x7d" ∧
    (∀ request : Request, request.method = "GET" ∨
        (∃ status, (last.answer request).1 = .refused status) →
      (last.answer request).2 = last) ∧
    (∀ request : Request, request.method = "PUT" →
      match request.setting? with
      | some setting =>
          last.answer request = (settingResponse setting,
            { last with collector := { last.collector with tracing := setting } })
      | none => ∃ status, last.answer request = (.refused status, last)) ∧
    (∀ (request : Request) (setting : Bool), request.method = "PUT" →
      Endpoint.ofPath? (Endpoint.pathOf request.target) = some .traces →
      (request.contentType.map MediaType.isJson).getD false = true →
      request.body = Utf8.encode (TraceSetting.write setting) →
      request.setting? = some setting) ∧
    last.collector = (runAll Collector.step (events.flatMap calls) collector).2 ∧
    (∀ {ν : Type} [DecidableEq ν] (now : UInt64) (lineage : Lineage ν) (group : GroupId)
        (name : Bytes) (parent : Option ν),
      let counted := last.collector.count group .alloc
      counted.ring = last.collector.ring ∧
        last.collector.onAlloc now lineage group name parent =
          if enabled then counted.trace now group (lineage.walk name parent) else counted) ∧
    ∀ (options : CollectorOptions) (actions : List CollectorStep),
      collector = (runAll Collector.step actions (.ofOptions options)).2 →
      (options.tableCapacity ≤ 2 ^ 62 → ∀ before now later, events = before ++ .poll now :: later →
        (∀ event ∈ later, event.isPoll = false) →
        let polled := (runAll MonitorEvent.step before start).2
        last.snapshot.Lists polled.1.collector.table polled.1.resolver) ∧
      (options.ringRecords ≤ 2 ^ 63 →
        ∀ {ν : Type} [DecidableEq ν] (now : UInt64) (lineage : Lineage ν) (group : GroupId)
          (name : Bytes) (parent : Option ν),
          last.collector.Gates enabled (.alloc now lineage group name parent)
            (last.collector.onAlloc now lineage group name parent)) := by
  intro start last enabled
  have hgate : last.collector.tracing = enabled := tracing_runAll events start
  refine ⟨fun request hget => last.answer_of_gets request hget,
    last.snapshot.shownOn_exposition, fun _ => Decimal.shows_of_lt, ?_, ?_, ?_, fun _ => rfl, rfl,
    rfl, ?_, ?_, ?_, collector_runAll events start, ?_, ?_⟩
  · intro hquiet
    have hsnapshot : last.snapshot = capture collector resolver procRoot disk begun :=
      snapshot_runAll events start hquiet
    exact ⟨hsnapshot, hsnapshot ▸ pictures_capture collector resolver procRoot disk begun⟩
  · intro before now later hsplit hquiet polled
    have hsnapshot : last.snapshot =
        capture polled.1.collector polled.1.resolver procRoot polled.2 now := by
      have hlast := snapshot_of_last_poll start before later now hquiet
      rwa [← hsplit] at hlast
    exact ⟨hsnapshot, hsnapshot ▸ pictures_capture _ _ _ _ _⟩
  · intro request hget
    rw [last.answer_of_gets request hget, ← hgate]
    rfl
  · intro request hcase
    have hanswered := last.answered request
    generalize last.answer request = result at hanswered hcase
    cases hanswered with
    | refused status setting => rfl
    | read response setting method => rfl
    | set flag setting =>
        rcases hcase with hget | ⟨status, hrefused⟩
        · have hnone : request.setting? = none := if_neg fun h => by simp [hget] at h
          rw [hnone] at setting
          cases setting
        · cases hrefused
  · intro request hput
    have hanswered := last.answered request
    generalize last.answer request = result at hanswered
    cases hanswered with
    | refused status setting =>
        rw [setting]
        exact ⟨status, rfl⟩
    | read response setting method => exact absurd hput method
    | set flag setting => rw [setting]
  · intro request setting hmethod hendpoint hjson hbody
    exact request.setting?_of_write hmethod hendpoint hjson hbody
  · intro ν _ now lineage group name parent counted
    have hcount := last.collector.tracing_count group .alloc
    refine ⟨hcount.2, ?_⟩
    rw [Collector.onAlloc, hcount.1, hgate]
  · rintro options actions rfl
    refine ⟨fun htable before now later hsplit hquiet => ?_, fun hrecords ν _ now lineage group
      name parent => ?_⟩
    · subst hsplit
      exact lists_of_last_poll start htable rfl before later now hquiet
    · exact hgate ▸ (orderly_runAll start hrecords rfl events).gates now lineage group name parent

/-- A poll, a later count, a setting that is accepted and one that is no text. -/
theorem runAll_serves_last_poll_once :
    let collector := Collector.ofOptions { tableCapacity := 2, ringRecords := 2 }
    let accepted : Request :=
      { method := "PUT", target := "/traces/config", contentType := some "application/json"
        body := Utf8.encode (TraceSetting.write true) }
    let refused : Request := { accepted with body := [0x22, 0xFF, 0x22] }
    let events : List MonitorEvent := [.call (.positive 20) fun _ => rfl, .poll ⟨5, 0⟩,
      .call (.negative 10) fun _ => rfl, .asked accepted, .asked refused]
    let last := (runAll MonitorEvent.step events
      (ofCollector collector { procRoot := [], cgroupRoot := [] } [] {} ⟨0, 0⟩, {})).2.1
    let lineage := Lineage.ofNodes #[([47], none)]
    (∃ page, last.answer { method := "GET", target := "/metrics" } =
        (.success Exposition.contentType page, last) ∧
      Exposition.linesFrom "dentry_positive_total" page =
        [Report.pairLine "dentry_positive_total" ("cgroup-20", "") 1] ∧
      Exposition.linesFrom "dentry_negative_total" page =
        [Report.pairLine "dentry_negative_total" ("cgroup-20", "") 0] ∧
      Exposition.linesFrom "dentry_reclaim_total" page =
        ["dentry_reclaim_total ".toList ++ Text.decimal 0] ∧
      Exposition.linesFrom "dentry_count" page = []) ∧
    last.answer { method := "GET", target := "/traces/config" } = (settingResponse true, last) ∧
    (∃ status, last.answer refused = (.refused status, last)) ∧
    ∃ record, (last.collector.onAlloc 9 lineage 1 [97] (some 0)).ring.queued = [record] ∧
      record.Recounts 9 1 [[97], [47]] True := by
  intro collector accepted refused events last lineage
  obtain ⟨hmetrics, hshown, hexact, -, hpolled, htraces, -, -, -, -, hput, -, -, -, hgates⟩ :=
    runAll_serves_last_poll collector { procRoot := [], cgroupRoot := [] } [] {} ⟨0, 0⟩ events
  have hsnapshot := (hpolled [.call (.positive 20) fun _ => rfl] ⟨5, 0⟩ _ rfl (by decide)).1
  have hgroups : last.snapshot.groups =
      [{ group := 20, counts := { positive := 1 }, pod := "cgroup-20", container := "" }] := by
    rw [hsnapshot]
    cbv
  have hreclaims : last.snapshot.reclaims = 0 := by
    rw [hsnapshot]
    cbv
  have hnode : last.snapshot.node = none := by
    rw [hsnapshot]
    cbv
  have hgate : (events.filterMap setting?).getLast?.getD collector.tracing = true := by
    decide +kernel
  have hseparated : last.snapshot.Separated := by
    intro a ha b hb _
    rw [hgroups, List.mem_singleton] at ha hb
    rw [ha, hb]
  have hpairs : last.snapshot.pairs = [("cgroup-20", "")] := by
    rw [Report.pairs, hgroups]
    rfl
  have hlines : ∀ name counter value, (name, counter) ∈ Report.groupCounters →
      last.snapshot.sum counter ("cgroup-20", "") = value → value < 2 ^ 53 →
      Exposition.linesFrom name last.snapshot.exposition =
        [Report.pairLine name ("cgroup-20", "") value] := by
    intro name counter value hfamily hsum hsmall
    have hperm := hshown.pairs hseparated name counter hfamily
    rw [hpairs, List.map_singleton, hsum] at hperm
    exact (hperm fun pair hpair => by rwa [List.mem_singleton.1 hpair, hsum]).eq_singleton
  have hpositive : last.snapshot.sum Counts.positive ("cgroup-20", "") = 1 := by
    rw [Report.sum, hgroups]
    rfl
  have hnegative : last.snapshot.sum Counts.negative ("cgroup-20", "") = 0 := by
    rw [Report.sum, hgroups]
    rfl
  have hpasses := hshown.reclaims
  have hcounts := hshown.node
  rw [hreclaims, UInt64.toNat_zero, (hexact 0 (by decide)).1] at hpasses
  rw [hnode] at hcounts
  have hbad : refused.setting? = none := by decide +kernel
  have hrefused := hput refused rfl
  rw [hbad] at hrefused
  have hrecorded := ((hgates { tableCapacity := 2, ringRecords := 2 } [] rfl).2 (by decide) 9
    lineage 1 [97] (some 0)).room hgate (by decide +kernel)
  obtain ⟨record, hqueued, hrecord⟩ := hrecorded
  refine ⟨⟨_, hmetrics _ ⟨rfl, by decide⟩, hlines _ _ 1 (.tail _ (.head _)) hpositive (by decide),
    hlines _ _ 0 (.tail _ (.tail _ (.head _))) hnegative (by decide), hpasses, hcounts.eq_nil⟩,
    ?_, hrefused, record, ?_, hrecord.below_top⟩
  · rw [htraces _ ⟨rfl, by decide⟩, hgate]
  · have hempty : last.collector.ring.queued = [] := by decide +kernel
    rw [hqueued, hempty, List.nil_append]

end Monitor

end DentryWatch
