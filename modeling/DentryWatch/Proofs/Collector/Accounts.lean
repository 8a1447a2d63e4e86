import DentryWatch.Proofs.Collector.Recounts
import DentryWatch.Proofs.GroupTable.Admission
import DentryWatch.Proofs.Ring.Backlogs

/-!
# A collector loses nothing without counting it

Whatever happened to a fresh collector, its counters and loss counters add up to
the calls it got, and the records read so far, followed by those still in the
ring, say one by one what the traced allocations said that were not lost.
-/

namespace DentryWatch

open ReservationQueue

/-- How many allocations are traced by a run that starts with the gate as given. -/
def tracedAllocs : Bool → List CollectorStep → Nat
  | _, [] => 0
  | tracing, action :: rest =>
      (if tracing && action.isAlloc then 1 else 0) + tracedAllocs (action.gate tracing) rest

namespace Collector

/-- The call, if it is an allocation that is traced and not counted as lost. -/
def keptBy (collector : Collector) (action : CollectorStep) : List CollectorStep :=
  if (collector.tracing && action.isAlloc) = true ∧
      (step action collector).2.drops.ringFull = collector.drops.ringFull then [action]
  else []

/-- The allocations of a run that are traced and not counted as lost, in order. -/
def kept (collector : Collector) : List CollectorStep → List CollectorStep
  | [] => []
  | action :: rest => collector.keptBy action ++ (step action collector).2.kept rest

theorem isAlloc_of_mem_kept {collector : Collector} {actions : List CollectorStep}
    {action : CollectorStep} (h : action ∈ collector.kept actions) : action.isAlloc = true := by
  induction actions generalizing collector with
  | nil => cases h
  | cons first rest ih =>
      rcases List.mem_append.1 h with hfirst | hrest
      · rw [keptBy, List.mem_ite_nil_right] at hfirst
        obtain ⟨⟨htraced, -⟩, hsame⟩ := hfirst
        rw [Bool.and_eq_true] at htraced
        rw [List.mem_singleton.1 hsame]
        exact htraced.2
      · exact ih hrest

/-- What the hooks keep. -/
structure Orderly (collector : Collector) : Prop where
  tidy : collector.table.Tidy
  fed : ∃ queue, collector.ring.Represents queue ∧ queue.Settled
  lost : collector.drops.ringFull = collector.ring.stats.drops

/-- What a call adds to the accounts. -/
structure Accounted (before : Collector) (action : CollectorStep) (delivered : List Record)
    (after : Collector) : Prop where
  orderly : after.Orderly
  counted : after.table.total + after.drops.tableExhausted =
    before.table.total + before.drops.tableExhausted + if action.counts then 1 else 0
  traced : after.ring.stats.pushes + after.drops.ringFull =
    before.ring.stats.pushes + before.drops.ringFull +
      if before.tracing && action.isAlloc then 1 else 0
  flow : delivered ++ after.ring.queued =
    before.ring.queued ++ (before.keptBy action).flatMap CollectorStep.records
  tracing : after.tracing = action.gate before.tracing
  reclaims : after.reclaims = before.reclaims + if action.isReclaim then 1 else 0

section Steps

variable {collector next : Collector} {action : CollectorStep}

theorem keptBy_eq_nil (hnone : (collector.tracing && action.isAlloc) = false) :
    collector.keptBy action = [] :=
  if_neg fun hboth => Bool.false_ne_true (hnone.symm.trans hboth.1)

/-- A call that traces nothing and leaves the ring alone. -/
theorem Orderly.quiet (h : collector.Orderly) (htidy : next.table.Tidy)
    (htotal : next.table.total + next.drops.tableExhausted =
      collector.table.total + collector.drops.tableExhausted + if action.counts then 1 else 0)
    (hring : next.ring = collector.ring) (hlost : next.drops.ringFull = collector.drops.ringFull)
    (hnone : (collector.tracing && action.isAlloc) = false)
    (htracing : next.tracing = action.gate collector.tracing)
    (hreclaims : next.reclaims = collector.reclaims + if action.isReclaim then 1 else 0) :
    collector.Accounted action [] next := by
  refine ⟨⟨htidy, hring ▸ h.fed, ?_⟩, htotal, ?_, ?_, htracing, hreclaims⟩
  · rw [hlost, hring]
    exact h.lost
  · rw [hring, hlost, hnone, if_neg Bool.false_ne_true, UInt64.add_zero]
  · rw [keptBy_eq_nil hnone, hring, List.flatMap_nil, List.nil_append, List.append_nil]

theorem Counted.accounted (h : collector.Orderly) (hcounted : collector.Counted next)
    (hcounts : action.counts = true)
    (hnone : (collector.tracing && action.isAlloc) = false)
    (hgate : action.gate collector.tracing = collector.tracing)
    (hreclaim : action.isReclaim = false) : collector.Accounted action [] next := by
  refine h.quiet hcounted.tidy ?_ hcounted.ring hcounted.ringFull hnone
    (hcounted.tracing.trans hgate.symm) ?_
  · rw [hcounts, if_pos rfl]
    exact hcounted.total
  · rw [hreclaim, if_neg Bool.false_ne_true, UInt64.add_zero]
    exact hcounted.reclaims

end Steps

section Allocations

variable {collector : Collector} {ν : Type} [DecidableEq ν] {now : UInt64} {lineage : Lineage ν}
  {group : GroupId} {name : Bytes} {parent : Option ν}

theorem keptBy_alloc (htracing : collector.tracing = true) {after : Collector}
    (hafter : collector.onAlloc now lineage group name parent = after) :
    collector.keptBy (.alloc now lineage group name parent) =
      if after.drops.ringFull = collector.drops.ringFull then
        [.alloc now lineage group name parent]
      else [] := by
  subst hafter
  simp only [keptBy, htracing, CollectorStep.isAlloc, Bool.and_self, true_and]
  rfl

/-- A traced allocation goes into the ring, or is counted as lost there. -/
theorem Orderly.traced (h : collector.Orderly) (htracing : collector.tracing = true) :
    collector.Accounted (.alloc now lineage group name parent) []
      (collector.onAlloc now lineage group name parent) := by
  obtain ⟨queue, hrep, hsettled⟩ := h.fed
  have hcounted := counted h.tidy group .alloc
  have hrep' : (collector.count group .alloc).ring.Represents queue := by
    rw [hcounted.ring]
    exact hrep
  have halloc : collector.onAlloc now lineage group name parent =
      (collector.count group .alloc).trace now group (lineage.walk name parent) := by
    rw [onAlloc, hcounted.tracing, if_pos htracing]
  by_cases hroom : queue.waiting.length < queue.capacity
  · obtain ⟨ring, hafter, hnext⟩ := trace_of_room hrep' hroom now group (lineage.walk name parent)
    have hsettled' := hsettled.feed (Collector.traced now group (lineage.walk name parent))
    have hkept := keptBy_alloc htracing (halloc.trans hafter)
    rw [if_pos hcounted.ringFull] at hkept
    rw [halloc, hafter]
    refine ⟨⟨hcounted.tidy, ⟨_, hnext, hsettled'⟩, ?_⟩, hcounted.total, ?_, ?_,
      hcounted.tracing, ?_⟩ <;> dsimp only
    · rw [hcounted.ringFull, h.lost, hrep.stats, hnext.stats]
      rfl
    · rw [hnext.stats, pushes_feed, ← hrep.stats, hcounted.ringFull, htracing]
      show _ + 1 + _ = _ + _ + 1
      ac_rfl
    · rw [hkept, hrep.queued_eq hsettled, hnext.queued_eq hsettled', waiting_feed hrep.taken_le,
        List.map_append, traced_eq]
      rfl
    · rw [hcounted.reclaims]
      exact (UInt64.add_zero _).symm
  · obtain ⟨ring, hafter, hnext⟩ := trace_of_full hrep' hroom now group (lineage.walk name parent)
    have hsettled' : ({ queue with refused := queue.refused + 1 } : ReservationQueue).Settled :=
      hsettled
    have hkept := keptBy_alloc htracing (halloc.trans hafter)
    have hmore : ((collector.count group .alloc).drops.note .ringFull).ringFull ≠
        collector.drops.ringFull := by
      show (collector.count group .alloc).drops.ringFull + 1 ≠ _
      rw [hcounted.ringFull]
      exact (word_add_one_ne _).symm
    rw [if_neg hmore] at hkept
    rw [halloc, hafter]
    refine ⟨⟨hcounted.tidy, ⟨_, hnext, hsettled'⟩, ?_⟩, hcounted.total, ?_, ?_,
      hcounted.tracing, ?_⟩ <;> dsimp only [Drops.note]
    · rw [hcounted.ringFull, h.lost, hrep.stats, hnext.stats]
      exact (UInt64.ofNat_add queue.refused 1).symm
    · rw [hnext.stats, hcounted.ringFull, htracing, hrep.stats, UInt64.add_assoc]
      rfl
    · rw [hkept, hrep.queued_eq hsettled, hnext.queued_eq hsettled', List.flatMap_nil,
        List.append_nil]
      rfl
    · rw [hcounted.reclaims]
      exact (UInt64.add_zero _).symm

end Allocations

theorem Orderly.alloc {collector : Collector} (h : collector.Orderly) {ν : Type}
    [DecidableEq ν] (now : UInt64) (lineage : Lineage ν) (group : GroupId) (name : Bytes)
    (parent : Option ν) :
    collector.Accounted (.alloc now lineage group name parent) []
      (collector.onAlloc now lineage group name parent) := by
  by_cases htracing : collector.tracing = true
  · exact h.traced htracing
  · have hcounted := counted h.tidy group .alloc
    have hoff : collector.tracing = false := Bool.eq_false_iff.2 htracing
    rw [onAlloc, if_neg (by rw [hcounted.tracing]; exact htracing)]
    exact hcounted.accounted h rfl (by rw [hoff, Bool.false_and]) rfl rfl

theorem Orderly.backlog {collector : Collector} (h : collector.Orderly) :
    collector.ring.Backlog collector.ring.capacity collector.ring.queued := by
  obtain ⟨queue, hrep, hsettled⟩ := h.fed
  exact ⟨queue, hrep, hsettled, hrep.sized.1.symm, (hrep.queued_eq hsettled).symm⟩

/-- With the gate open and room in the ring, an allocation is traced, whatever the table says. -/
theorem Orderly.alloc_of_room {collector : Collector} (h : collector.Orderly)
    (htracing : collector.tracing = true)
    (hroom : collector.ring.queued.length < collector.ring.capacity) {ν : Type} [DecidableEq ν]
    (now : UInt64) (lineage : Lineage ν) (group : GroupId) (name : Bytes) (parent : Option ν) :
    let after := collector.onAlloc now lineage group name parent
    after.Orderly ∧
      after.ring.queued =
        collector.ring.queued ++ [Collector.traced now group (lineage.walk name parent) .zero] ∧
      after.drops.ringFull = collector.drops.ringFull := by
  have hcounted := counted h.tidy group .alloc
  have halloc : collector.onAlloc now lineage group name parent =
      (collector.count group .alloc).trace now group (lineage.walk name parent) := by
    rw [onAlloc, hcounted.tracing, if_pos htracing]
  obtain ⟨slot, hslot, hnext⟩ := h.backlog.feed hroom
    fun before => traced_eq now group (lineage.walk name parent) before
  have horderly := (h.alloc now lineage group name parent).orderly
  rw [halloc] at horderly
  rw [halloc]
  unfold trace at horderly ⊢
  rw [hcounted.ring] at horderly ⊢
  rcases hring : collector.ring.reserve with ⟨answer, ring⟩
  rw [hring] at hslot hnext horderly
  obtain rfl : answer = some slot := hslot
  exact ⟨horderly, hnext.queued_eq, hcounted.ringFull⟩

/-- With the gate open and no room in the ring, an allocation is lost, and counted as lost. -/
theorem Orderly.alloc_of_full {collector : Collector} (h : collector.Orderly)
    (htracing : collector.tracing = true)
    (hfull : collector.ring.capacity ≤ collector.ring.queued.length) {ν : Type} [DecidableEq ν]
    (now : UInt64) (lineage : Lineage ν) (group : GroupId) (name : Bytes) (parent : Option ν) :
    let after := collector.onAlloc now lineage group name parent
    after.ring.queued = collector.ring.queued ∧
      after.drops.ringFull = collector.drops.ringFull + 1 := by
  obtain ⟨queue, hrep, hsettled⟩ := h.fed
  have hcounted := counted h.tidy group .alloc
  have hrep' : (collector.count group .alloc).ring.Represents queue := by
    rw [hcounted.ring]
    exact hrep
  have hwaiting : ¬ queue.waiting.length < queue.capacity := by
    have hcapacity : collector.ring.capacity = queue.capacity := hrep.sized.1
    rw [hrep.queued_eq hsettled, List.length_map, hcapacity] at hfull
    exact Nat.not_lt.2 hfull
  obtain ⟨ring, hafter, hnext⟩ :=
    trace_of_full hrep' hwaiting now group (lineage.walk name parent)
  have hsettled' : ({ queue with refused := queue.refused + 1 } : ReservationQueue).Settled :=
    hsettled
  rw [onAlloc, hcounted.tracing, if_pos htracing, hafter]
  refine ⟨(hnext.queued_eq hsettled').trans (hrep.queued_eq hsettled).symm, ?_⟩
  show (collector.count group .alloc).drops.ringFull + 1 = _
  rw [hcounted.ringFull]

/-- What an allocation does to the trace ring, with the gate where it is. -/
structure Gates (before : Collector) (enabled : Bool) (call : CollectorStep)
    (after : Collector) : Prop where
  closed : enabled = false → after.ring = before.ring
  room : enabled = true → before.ring.queued.length < before.ring.capacity →
    ∃ record, after.ring.queued = before.ring.queued ++ [record] ∧ call.RecordedAs record
  full : enabled = true → before.ring.capacity ≤ before.ring.queued.length →
    after.ring.queued = before.ring.queued ∧
      after.drops.ringFull = before.drops.ringFull + 1

theorem Orderly.gates {collector : Collector} (h : collector.Orderly) {ν : Type} [DecidableEq ν]
    (now : UInt64) (lineage : Lineage ν) (group : GroupId) (name : Bytes) (parent : Option ν) :
    collector.Gates collector.tracing (.alloc now lineage group name parent)
      (collector.onAlloc now lineage group name parent) := by
  refine ⟨fun hclosed => ?_, fun hopen hroom => ?_, fun hopen hfull => ?_⟩
  · have hcounted := counted h.tidy group .alloc
    rw [onAlloc, hcounted.tracing, if_neg (by rw [hclosed]; exact Bool.false_ne_true)]
    exact hcounted.ring
  · obtain ⟨-, hqueued, -⟩ := h.alloc_of_room hopen hroom now lineage group name parent
    exact ⟨_, hqueued, recordedAs_traced now lineage group name parent .zero⟩
  · exact h.alloc_of_full hopen hfull now lineage group name parent

/-! ## Other calls -/

theorem Orderly.instantiate {collector : Collector} (h : collector.Orderly) (group : GroupId)
    (positive : Bool) {action : CollectorStep} (hcounts : action.counts = true)
    (hother : action.isAlloc = false)
    (hgate : action.gate collector.tracing = collector.tracing)
    (hreclaim : action.isReclaim = false) :
    collector.Accounted action [] (collector.onInstantiate group positive) :=
  (counted h.tidy group _).accounted h hcounts (by rw [hother, Bool.and_false]) hgate hreclaim

theorem Orderly.popBatch {collector : Collector} (h : collector.Orderly) (limit : Nat) :
    collector.Accounted (.popBatch limit) (collector.ring.popBatch limit).1
      { collector with ring := (collector.ring.popBatch limit).2 } := by
  obtain ⟨queue, hrep, hsettled⟩ := h.fed
  obtain ⟨hrecords, hnext⟩ := hrep.popBatch limit
  obtain ⟨hgiven, taken, hqueue, hleft⟩ := hsettled.popBatch limit
  rw [hqueue] at hnext
  have hsettled' : ({ queue with taken } : ReservationQueue).Settled := hsettled
  have hstats := hnext.stats
  refine ⟨⟨h.tidy, ⟨_, hnext, hsettled'⟩, ?_⟩, (UInt64.add_zero _).symm, ?_, ?_, rfl,
    (UInt64.add_zero _).symm⟩ <;> dsimp only
  · rw [h.lost, hstats, hrep.stats]
    rfl
  · rw [hstats, hrep.stats]
    simp [CollectorStep.isAlloc, stats]
  · rw [keptBy_eq_nil (Bool.and_false _), List.flatMap_nil, List.append_nil, hrep.queued_eq hsettled,
      hnext.queued_eq hsettled', hrecords, hgiven, hleft, ← List.map_append,
      List.take_append_drop]

theorem Orderly.pop {collector : Collector} (h : collector.Orderly) :
    collector.Accounted .pop (Collector.step .pop collector).1
      (Collector.step .pop collector).2 := by
  have hsame : Collector.step .pop collector = Collector.step (.popBatch 1) collector := by
    rw [Collector.step, Collector.step, Collector.pop, Ring.popBatch]
    rcases collector.ring.pop with ⟨_ | record, ring⟩ <;> rfl
  have hbatch := h.popBatch 1
  have hflow := hbatch.flow
  rw [keptBy_eq_nil (Bool.and_false _)] at hflow
  rw [hsame]
  refine ⟨hbatch.orderly, hbatch.counted, hbatch.traced, ?_, hbatch.tracing, hbatch.reclaims⟩
  rw [keptBy_eq_nil (Bool.and_false _)]
  exact hflow

theorem Orderly.takeReader {collector : Collector} (h : collector.Orderly) :
    collector.Accounted .takeReader [] collector.takeReader.2 := by
  obtain ⟨queue, hrep, hsettled⟩ := h.fed
  have hnext := hrep.takeReader
  refine ⟨⟨h.tidy, ⟨queue, hnext, hsettled⟩, h.lost⟩, (UInt64.add_zero _).symm,
    ?_, ?_, rfl, (UInt64.add_zero _).symm⟩
  · show _ = _ + if collector.tracing && false then 1 else 0
    rw [Bool.and_false]
    exact (UInt64.add_zero _).symm
  · rw [keptBy_eq_nil (Bool.and_false _), List.flatMap_nil, List.nil_append, List.append_nil,
      hrep.queued_eq hsettled]
    exact hnext.queued_eq hsettled

theorem Orderly.step {collector : Collector} (h : collector.Orderly) (action : CollectorStep) :
    collector.Accounted action (Collector.step action collector).1
      (Collector.step action collector).2 := by
  cases action with
  | alloc now lineage group name parent => exact h.alloc now lineage group name parent
  | instantiate group positive => exact h.instantiate group positive rfl rfl rfl rfl
  | positive group => exact h.instantiate group true rfl rfl rfl rfl
  | negative group => exact h.instantiate group false rfl rfl rfl rfl
  | reclaim => exact h.quiet h.tidy (UInt64.add_zero _).symm rfl rfl (Bool.and_false _) rfl rfl
  | setTracing enabled =>
      exact h.quiet h.tidy (UInt64.add_zero _).symm rfl rfl (Bool.and_false _) rfl
        (UInt64.add_zero _).symm
  | takeReader => exact h.takeReader
  | pop => exact h.pop
  | popBatch limit => exact h.popBatch limit

/-! ## Runs -/

theorem ofNat_flag (flag : Bool) :
    UInt64.ofNat (if flag then 1 else 0) = if flag then 1 else 0 := by
  cases flag <;> rfl

/-- What a run adds to the accounts. -/
theorem Orderly.runAll {collector : Collector} (h : collector.Orderly)
    (actions : List CollectorStep) :
    let run := runAll Collector.step actions collector
    run.2.Orderly ∧
      run.2.table.total + run.2.drops.tableExhausted =
        collector.table.total + collector.drops.tableExhausted +
          UInt64.ofNat (actions.countP CollectorStep.counts) ∧
      run.2.ring.stats.pushes + run.2.drops.ringFull =
        collector.ring.stats.pushes + collector.drops.ringFull +
          UInt64.ofNat (tracedAllocs collector.tracing actions) ∧
      run.1.flatten ++ run.2.ring.queued =
        collector.ring.queued ++ (collector.kept actions).flatMap CollectorStep.records ∧
      run.2.reclaims =
        collector.reclaims + UInt64.ofNat (actions.countP CollectorStep.isReclaim) := by
  induction actions generalizing collector with
  | nil => simp [DentryWatch.runAll, tracedAllocs, kept, h]
  | cons action rest ih =>
      have hstep := h.step action
      obtain ⟨horderly, hcounted, htraced, hflow, hreclaims⟩ := ih hstep.orderly
      rw [runAll_cons]
      refine ⟨horderly, ?_, ?_, ?_, ?_⟩ <;> dsimp only
      · rw [hcounted, hstep.counted, List.countP_cons, UInt64.ofNat_add, ofNat_flag]
        ac_rfl
      · rw [htraced, hstep.traced, hstep.tracing, tracedAllocs, UInt64.ofNat_add, ofNat_flag]
        ac_rfl
      · rw [List.flatten_cons, List.append_assoc, hflow, ← List.append_assoc, hstep.flow, kept,
          List.flatMap_append, List.append_assoc]
      · rw [hreclaims, hstep.reclaims, List.countP_cons, UInt64.ofNat_add, ofNat_flag]
        ac_rfl

theorem orderly_ofOptions {options : CollectorOptions} (h : options.ringRecords ≤ 2 ^ 63) :
    (ofOptions options).Orderly :=
  ⟨GroupTable.tidy_ofCapacity _, ⟨_, Ring.represents_ofCapacity h, fun _ hmem => nomatch hmem⟩, rfl⟩

/--
Every call on a fresh collector is found again in its counters, its losses or its
records. The records, in the order in which they were traced, each recount one of the
allocations that were not lost, and two that recount the same at different times have
the same bytes but for the time.
-/
theorem runAll_balances {options : CollectorOptions} (h : options.ringRecords ≤ 2 ^ 63)
    (actions : List CollectorStep) :
    let run := DentryWatch.runAll step actions (ofOptions options)
    (run.2.groups.map fun entry => entry.2.alloc + entry.2.positive + entry.2.negative).sum +
        run.2.drops.tableExhausted = UInt64.ofNat (actions.countP CollectorStep.counts) ∧
      run.2.ring.stats.pushes + run.2.drops.ringFull =
        UInt64.ofNat (tracedAllocs options.tracing actions) ∧
      run.2.drops.ringFull = run.2.ring.stats.drops ∧
      List.Forall₂ CollectorStep.RecordedAs ((ofOptions options).kept actions)
        (run.1.flatten ++ run.2.ring.queued) ∧
      run.2.reclaims = UInt64.ofNat (actions.countP CollectorStep.isReclaim) ∧
      ∀ (record other : Record) (now later : UInt64) (group : GroupId) (names : List Bytes)
        (rooted : Prop), record.Recounts now group names rooted →
        other.Recounts later group names rooted →
        record.encode.length = 536 ∧ record.encode.drop 8 = other.encode.drop 8 := by
  have hstart := orderly_ofOptions h
  obtain ⟨hend, hcounted, htraced, hflow, hreclaims⟩ := hstart.runAll actions
  refine ⟨?_, ?_, hend.lost, ?_, ?_, ?_⟩
  · refine hcounted.trans ?_
    rw [ofOptions, GroupTable.total_ofCapacity, UInt64.zero_add, UInt64.zero_add]
  · refine htraced.trans ?_
    show 0 + 0 + _ = _
    rw [UInt64.zero_add, UInt64.zero_add]
    rfl
  · have hempty : (ofOptions options).ring.queued = [] :=
      (Ring.represents_ofCapacity h).queued_eq fun _ hmem => nomatch hmem
    rw [hflow, hempty, List.nil_append]
    exact CollectorStep.forall₂_records fun _ => isAlloc_of_mem_kept
  · refine hreclaims.trans ?_
    rw [ofOptions, UInt64.zero_add]
  · intro record other now later group names rooted hrecord hother
    exact ⟨Record.encode_length _, hrecord.drop_encode hother⟩

/-- Three traced allocations for two groups in a table for one and a ring for two. -/
theorem runAll_balances_three :
    let options : CollectorOptions := { tableCapacity := 1, ringRecords := 2, tracing := true }
    let lineage := Lineage.ofNodes #[([47], none)]
    let actions : List CollectorStep :=
      [.alloc 5 lineage 1 [97] (some 0), .alloc 6 lineage 2 [98] (some 0),
        .alloc 7 lineage 1 [99] none, .setTracing false, .alloc 8 lineage 1 [] none, .pop]
    let run := DentryWatch.runAll step actions (ofOptions options)
    options.ringRecords ≤ 2 ^ 63 ∧
      (run.2.groups.map fun entry => entry.2.alloc + entry.2.positive + entry.2.negative).sum +
        run.2.drops.tableExhausted = 4 ∧
      run.2.ring.stats.pushes + run.2.drops.ringFull = 3 ∧
      run.2.drops.ringFull = run.2.ring.stats.drops ∧ run.2.reclaims = 0 ∧
      ∃ first second : Record, run.1.flatten ++ run.2.ring.queued = [first, second] ∧
        first.Recounts 5 1 [[97], [47]] True ∧ second.Recounts 6 2 [[98], [47]] True ∧
        ∀ other : Record, other.Recounts 9 1 [[97], [47]] True →
          first.encode.length = 536 ∧ first.encode.drop 8 = other.encode.drop 8 := by
  intro options lineage actions
  have hrecords : options.ringRecords ≤ 2 ^ 63 := by
    show (2 : Nat) ≤ 2 ^ 63
    decide
  have hcalls : UInt64.ofNat (actions.countP CollectorStep.counts) = 4 := rfl
  have hallocs : UInt64.ofNat (tracedAllocs options.tracing actions) = 3 := rfl
  have hpasses : UInt64.ofNat (actions.countP CollectorStep.isReclaim) = 0 := rfl
  have hfirst : (ofOptions options).keptBy (.alloc 5 lineage 1 [97] (some 0)) =
      [.alloc 5 lineage 1 [97] (some 0)] := if_pos (by decide +kernel)
  have hsecond : (step (.alloc 5 lineage 1 [97] (some 0)) (ofOptions options)).2.keptBy
      (.alloc 6 lineage 2 [98] (some 0)) = [.alloc 6 lineage 2 [98] (some 0)] :=
    if_pos (by decide +kernel)
  have hthird : (step (.alloc 6 lineage 2 [98] (some 0))
      (step (.alloc 5 lineage 1 [97] (some 0)) (ofOptions options)).2).2.keptBy
        (.alloc 7 lineage 1 [99] none) = [] := if_neg (by decide +kernel)
  have hkept : (ofOptions options).kept actions = actions.take 2 := by
    show (ofOptions options).kept [_, _, _, _, _, _] = _
    rw [kept, kept, kept, hfirst, hsecond, hthird, kept, kept, kept,
      keptBy_eq_nil (Bool.and_false _), keptBy_eq_nil, keptBy_eq_nil (Bool.and_false _)]
    · rfl
    · rfl
  obtain ⟨hcounted, htraced, hlost, hflow, hreclaims, hbytes⟩ := runAll_balances hrecords actions
  refine ⟨hrecords, hcounted.trans hcalls, htraced.trans hallocs, hlost, hreclaims.trans hpasses, ?_⟩
  rw [hkept] at hflow
  obtain ⟨first, rest, hone, hrest, hqueued⟩ := List.forall₂_cons_left_iff.1 hflow
  obtain ⟨second, last, htwo, hlast, rfl⟩ := List.forall₂_cons_left_iff.1 hrest
  obtain rfl := List.forall₂_nil_left_iff.1 hlast
  exact ⟨first, second, hqueued, hone.below_top, htwo.below_top,
    fun other => hbytes first other 5 9 1 _ True hone.below_top⟩

end Collector

end DentryWatch
