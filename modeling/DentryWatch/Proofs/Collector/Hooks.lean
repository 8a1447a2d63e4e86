import DentryWatch.Proofs.Collector.Separation

/-!
# Runs of hooks

While the table has room for their groups, all hooks of a run are counted. While
the ring has room for them, all its allocations are traced, in order.
-/

namespace DentryWatch

/-! ## Counting -/

namespace GroupTable

theorem Shows.get?_eq {table : GroupTable} {accepted : List Call} (h : table.Shows accepted)
    (group : GroupId) :
    table.get? group =
      if group ∈ groupsOf accepted then some (countsOf accepted group) else none := by
  split
  · next hmem => exact h.sound.get?_eq_some_iff.2 ((h.listed _ _).2 ⟨hmem, rfl⟩)
  · next hmem =>
      rw [Option.eq_none_iff_forall_ne_some]
      intro counts hget
      exact hmem ((h.listed _ _).1 (h.sound.get?_eq_some_iff.1 hget)).1

theorem groupsOf_append (calls later : List Call) :
    groupsOf (calls ++ later) = groupsOf calls ∪ groupsOf later := by
  simp [groupsOf]

/-- No call is refused while there is room for all their groups. -/
theorem Shows.tallyAll_of_room {table : GroupTable} {accepted : List Call}
    (h : table.Shows accepted) (calls : List Call)
    (hroom : (groupsOf (accepted ++ calls)).card ≤ table.capacity) :
    (table.tallyAll calls).1 = calls := by
  induction calls generalizing table accepted with
  | nil => rfl
  | cons call rest ih =>
      obtain ⟨group, op⟩ := call
      have hall : accepted ++ (group, op) :: rest = accepted ++ [(group, op)] ++ rest := by simp
      have hadmitted : group ∈ groupsOf accepted ∨ (groupsOf accepted).card < table.capacity := by
        by_cases hmem : group ∈ groupsOf accepted
        · exact .inl hmem
        · have hle : (insert group (groupsOf accepted)).card ≤
              (groupsOf (accepted ++ (group, op) :: rest)).card := by
            rw [hall, groupsOf_append, groupsOf_concat]
            exact Finset.card_le_card Finset.subset_union_left
          rw [Finset.card_insert_of_notMem hmem] at hle
          exact .inr (Nat.lt_of_lt_of_le hle hroom)
      have hstep := h.tally group op
      rw [if_pos hadmitted] at hstep
      have hcapacity := tally_capacity h.sound.toTidy group op
      have htally : table.tally group op = (.ok (), (table.tally group op).2) :=
        Prod.ext hstep.1 rfl
      have hrest := ih hstep.2 (by rw [hcapacity, ← hall]; exact hroom)
      rw [GroupTable.tallyAll, htally]
      exact congrArg _ hrest

end GroupTable

def Hook.call? : Hook → Option GroupTable.Call
  | .counted group op => some (group, op)
  | .reclaim => none

theorem Hook.filterMap_call?_counted (group : GroupId) (op : Operation) (rest : List Hook) :
    (Hook.counted group op :: rest).filterMap Hook.call? =
      (group, op) :: rest.filterMap Hook.call? := by
  simp [Hook.call?]

def tableCalls (actions : List CollectorStep) : List GroupTable.Call :=
  (actions.filterMap CollectorStep.hook?).filterMap Hook.call?

theorem tableCalls_append (actions later : List CollectorStep) :
    tableCalls (actions ++ later) = tableCalls actions ++ tableCalls later := by
  simp [tableCalls]

namespace Counters

variable (hooks : List Hook) (counters : Counters)

theorem table_foldl_take :
    (hooks.foldl take counters).table = (counters.table.tallyAll (hooks.filterMap Hook.call?)).2 := by
  induction hooks generalizing counters with
  | nil => rfl
  | cons hook rest ih =>
      rw [List.foldl_cons, ih]
      cases hook with
      | reclaim => rfl
      | counted group op =>
          rw [Hook.filterMap_call?_counted, GroupTable.tallyAll, take]
          rcases counters.table.tally group op with ⟨_ | _, table⟩ <;> rfl

theorem exhausted_foldl_take
    (h : (counters.table.tallyAll (hooks.filterMap Hook.call?)).1 = hooks.filterMap Hook.call?) :
    (hooks.foldl take counters).exhausted = counters.exhausted := by
  have hlength : ∀ (calls : List GroupTable.Call) (table : GroupTable),
      (table.tallyAll calls).1.length ≤ calls.length := by
    intro calls
    induction calls with
    | nil => exact fun _ => Nat.le_refl _
    | cons call rest ih =>
        intro table
        rw [GroupTable.tallyAll]
        rcases table.tally call.1 call.2 with ⟨_ | _, next⟩
        · exact Nat.le_succ_of_le (ih next)
        · exact Nat.succ_le_succ (ih next)
  induction hooks generalizing counters with
  | nil => rfl
  | cons hook rest ih =>
      rw [List.foldl_cons]
      cases hook with
      | reclaim => exact ih _ h
      | counted group op =>
          rw [Hook.filterMap_call?_counted, GroupTable.tallyAll] at h
          rcases hcall : counters.table.tally group op with ⟨loss | _, table⟩
          · have hshort := hlength (rest.filterMap Hook.call?) table
            rw [hcall] at h
            have hlong := congrArg List.length h
            simp only [List.length_cons] at hlong
            omega
          · have htake : counters.take (.counted group op) = { counters with table } := by
              rw [take, hcall]
            rw [hcall] at h
            rw [htake]
            exact ih _ (List.cons.inj h).2

theorem reclaims_foldl_take :
    (hooks.foldl take counters).reclaims =
      counters.reclaims + UInt64.ofNat (hooks.count .reclaim) := by
  induction hooks generalizing counters with
  | nil => simp
  | cons hook rest ih =>
      rw [List.foldl_cons, ih]
      cases hook with
      | reclaim =>
          rw [List.count_cons_self, UInt64.ofNat_add, take, UInt64.add_assoc]
          exact congrArg _ (UInt64.add_comm _ _)
      | counted group op =>
          have hne : Hook.counted group op ≠ .reclaim := fun h => Hook.noConfusion h
          rw [List.count_cons_of_ne hne, take]
          rcases counters.table.tally group op with ⟨_ | _, table⟩ <;> rfl

end Counters

namespace Collector

/-- Whatever a collector counted since it was made, its table shows the calls it accepted. -/
theorem shows_runAll {options : CollectorOptions} (h : options.tableCapacity ≤ 2 ^ 62)
    (actions : List CollectorStep) :
    let run := runAll step actions (ofOptions options)
    let fresh := GroupTable.ofCapacity options.tableCapacity
    run.2.table.Shows (fresh.tallyAll (tableCalls actions)).1 ∧
      run.2.table.capacity = options.tableCapacity := by
  intro run fresh
  have htable : run.2.table = (fresh.tallyAll (tableCalls actions)).2 := by
    refine (congrArg Counters.table (counters_runAll actions (ofOptions options))).trans ?_
    exact Counters.table_foldl_take _ _
  have hrun := (GroupTable.shows_ofCapacity h).tallyAll (tableCalls actions)
  rw [List.nil_append] at hrun
  rw [htable]
  exact hrun

/-- All hooks are counted while the table has room for their groups. -/
theorem counted_of_room {collector : Collector} {accepted : List GroupTable.Call}
    (h : collector.table.Shows accepted) (actions : List CollectorStep)
    (hroom : (GroupTable.groupsOf (accepted ++ tableCalls actions)).card ≤
      collector.table.capacity) :
    let last := (runAll step actions collector).2
    last.table.Shows (accepted ++ tableCalls actions) ∧
      last.table.capacity = collector.table.capacity ∧
      last.drops.tableExhausted = collector.drops.tableExhausted ∧
      last.reclaims = collector.reclaims +
        UInt64.ofNat ((actions.filterMap CollectorStep.hook?).count .reclaim) := by
  intro last
  have hcounters := counters_runAll actions collector
  have hall := h.tallyAll_of_room (tableCalls actions) hroom
  have htable : last.table = (collector.table.tallyAll (tableCalls actions)).2 :=
    (congrArg Counters.table hcounters).trans (Counters.table_foldl_take _ _)
  have hrun := h.tallyAll (tableCalls actions)
  rw [hall, ← htable] at hrun
  refine ⟨hrun.1, hrun.2, ?_, ?_⟩
  · exact (congrArg Counters.exhausted hcounters).trans (Counters.exhausted_foldl_take _ _ hall)
  · exact (congrArg Counters.reclaims hcounters).trans (Counters.reclaims_foldl_take _ _)

/-! ## Tracing -/

theorem tracing_count (collector : Collector) (group : GroupId) (op : Operation) :
    (collector.count group op).tracing = collector.tracing ∧
      (collector.count group op).ring = collector.ring := by
  obtain ⟨table, exhausted, hcount⟩ := collector.count_tracing group op
  rw [hcount]
  exact ⟨rfl, rfl⟩

/-- Only the call that is meant to moves the trace gate. -/
theorem tracing_step (action : CollectorStep) (collector : Collector) :
    (step action collector).2.tracing = action.gate collector.tracing := by
  cases action with
  | alloc now lineage group name parent =>
      have hcount := (collector.tracing_count group .alloc).1
      show (collector.onAlloc now lineage group name parent).tracing = collector.tracing
      unfold onAlloc trace
      dsimp only
      split
      · rcases (collector.count group .alloc).ring.reserve with ⟨_ | slot, ring⟩ <;> exact hcount
      · exact hcount
  | instantiate group positive => exact (collector.tracing_count group _).1
  | positive group => exact (collector.tracing_count group _).1
  | negative group => exact (collector.tracing_count group _).1
  | reclaim => rfl
  | setTracing enabled => rfl
  | takeReader => rfl
  | pop => rfl
  | popBatch limit => rfl

theorem backlog_alloc {collector : Collector} {capacity : Nat} {records : List Record}
    (h : collector.ring.Backlog capacity records) (htracing : collector.tracing = true)
    (hroom : records.length < capacity) {ν : Type} [DecidableEq ν] (now : UInt64)
    (lineage : Lineage ν) (group : GroupId) (name : Bytes) (parent : Option ν) :
    (collector.onAlloc now lineage group name parent).ring.Backlog capacity
      (records ++ [traced now group (lineage.walk name parent) .zero]) := by
  have hcount := collector.tracing_count group .alloc
  obtain ⟨slot, hslot, hnext⟩ := h.feed hroom
    fun before => traced_eq now group (lineage.walk name parent) before
  rw [onAlloc, hcount.1, if_pos htracing, trace, hcount.2]
  rcases hring : collector.ring.reserve with ⟨answer, ring⟩
  rw [hring] at hslot hnext
  obtain rfl : answer = some slot := hslot
  exact hnext

/-- All allocations are traced while the ring has room for them. -/
theorem backlog_of_room {collector : Collector} {capacity : Nat} {records : List Record}
    (h : collector.ring.Backlog capacity records) (htracing : collector.tracing = true)
    (actions : List CollectorStep) (hhooks : ∀ action ∈ actions, action.hook?.isSome = true)
    (hroom : records.length + (actions.flatMap CollectorStep.records).length ≤ capacity) :
    (runAll step actions collector).2.ring.Backlog capacity
      (records ++ actions.flatMap CollectorStep.records) := by
  induction actions generalizing collector records with
  | nil => simpa using h
  | cons action rest ih =>
      have hhook := hhooks action List.mem_cons_self
      have hrest : ∀ other ∈ rest, other.hook?.isSome = true :=
        fun other hmem => hhooks other (List.mem_cons_of_mem _ hmem)
      have hgate : action.gate collector.tracing = collector.tracing := by
        cases action <;> first | rfl | cases hhook
      rw [List.flatMap_cons, List.length_append] at hroom
      have hstep : (step action collector).2.ring.Backlog capacity (records ++ action.records) := by
        cases action with
        | alloc now lineage group name parent =>
            have hless : records.length < capacity := by
              simp only [CollectorStep.records, List.length_singleton] at hroom
              omega
            exact backlog_alloc h htracing hless now lineage group name parent
        | reclaim => simpa [CollectorStep.records, step, onReclaim] using h
        | instantiate group positive =>
            simpa [CollectorStep.records, step, onInstantiate, tracing_count] using h
        | positive group =>
            simpa [CollectorStep.records, step, onPositive, onInstantiate, tracing_count] using h
        | negative group =>
            simpa [CollectorStep.records, step, onNegative, onInstantiate, tracing_count] using h
        | setTracing enabled => cases hhook
        | takeReader => cases hhook
        | pop => cases hhook
        | popBatch limit => cases hhook
      have hnext := ih hstep ((tracing_step action collector).trans (hgate.trans htracing)) hrest
        (by rw [List.length_append]; omega)
      rw [runAll_cons, List.flatMap_cons, ← List.append_assoc]
      exact hnext

end Collector

end DentryWatch
