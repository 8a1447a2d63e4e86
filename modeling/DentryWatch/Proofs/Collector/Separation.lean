import DentryWatch.Proofs.Collector.Accounts

/-!
# Counting and tracing keep apart

Counting is a fold of the hooks over the table: nothing about the gate, the ring,
its reader or the names can be seen in it. Tracing does not read the table: two
collectors with tables of any sizes deliver the same records, up to the times.
-/

namespace DentryWatch

/-! ## Times -/

def Record.untimed (record : Record) : Record := { record with timestamp := 0 }

def RingCell.untimed (cell : RingCell) : RingCell := { cell with record := cell.record.untimed }

namespace Ring

/-- A ring whose records have no times. -/
def untimed (ring : Ring) : Ring := { ring with cells := ring.cells.map RingCell.untimed }

variable (ring : Ring)

@[simp] theorem head_untimed : ring.untimed.head = ring.head := rfl

@[simp] theorem tail_untimed : ring.untimed.tail = ring.tail := rfl

@[simp] theorem stats_untimed : ring.untimed.stats = ring.stats := rfl

@[simp] theorem capacity_untimed : ring.untimed.capacity = ring.capacity := by
  simp [capacity, untimed]

@[simp] theorem index_untimed (position : UInt64) :
    ring.untimed.index position = ring.index position := by
  simp [index]

@[simp] theorem cell_untimed (position : UInt64) :
    ring.untimed.cell position = (ring.cell position).untimed := by
  unfold cell
  rw [index_untimed, Array.getD_eq_getD_getElem?, Array.getD_eq_getD_getElem?, untimed,
    Array.getElem?_map]
  rcases ring.cells[ring.index position]? with _ | cell <;> rfl

theorem modifyCell_untimed (position : UInt64) {change changed : RingCell → RingCell}
    (h : ∀ cell, changed cell.untimed = (change cell).untimed) :
    ring.untimed.modifyCell position changed = (ring.modifyCell position change).untimed := by
  have hcells : (ring.cells.map RingCell.untimed).modify (ring.index position) changed =
      (ring.cells.modify (ring.index position) change).map RingCell.untimed := by
    apply Array.ext_getElem?
    intro i
    simp only [Array.getElem?_modify, Array.getElem?_map]
    split
    · rcases ring.cells[i]? with _ | cell
      · rfl
      · simp [h]
    · rfl
  unfold modifyCell
  rw [index_untimed]
  exact congrArg (fun cells => { ring with cells }) hcells

theorem reserve_untimed : ring.untimed.reserve = (ring.reserve.1, ring.reserve.2.untimed) := by
  have hlead : ring.untimed.lead ring.head = ring.lead ring.head := by simp [lead, RingCell.untimed]
  unfold reserve
  simp only [head_untimed, hlead]
  split
  · rfl
  · split <;> rfl

theorem fill_untimed (slot : Reservation) {change changed : Record → Record}
    (h : ∀ record, changed record.untimed = (change record).untimed) :
    ring.untimed.fill slot changed = (ring.fill slot change).untimed :=
  ring.modifyCell_untimed _ fun cell =>
    congrArg (fun record => { cell with record }) (h cell.record)

theorem publish_untimed (slot : Reservation) (hole : Bool) :
    ring.untimed.publish slot hole = (ring.publish slot hole).untimed :=
  ring.modifyCell_untimed _ fun _ => rfl

theorem commit_untimed (slot : Reservation) :
    ring.untimed.commit slot = (ring.commit slot).untimed := by
  unfold commit
  rw [publish_untimed]
  rfl

theorem release_untimed : ring.untimed.release = ring.release.untimed := by
  have hfree (turn : UInt64) : ring.untimed.modifyCell ring.tail ({ · with turn }) =
      (ring.modifyCell ring.tail ({ · with turn })).untimed :=
    ring.modifyCell_untimed _ fun _ => rfl
  unfold release
  simp only [tail_untimed, capacity_untimed, hfree]
  rfl

theorem popWithin_untimed (steps : Nat) (ring : Ring) :
    ring.untimed.popWithin steps =
      ((ring.popWithin steps).1.map Record.untimed, (ring.popWithin steps).2.untimed) := by
  induction steps generalizing ring with
  | zero => rfl
  | succ steps ih =>
      have hready : ring.untimed.isReady = ring.isReady := by
        simp [isReady, RingCell.untimed]
      have hhole : (ring.cell ring.tail).untimed.hole = (ring.cell ring.tail).hole := rfl
      unfold popWithin
      simp only [hready, tail_untimed, cell_untimed, hhole, release_untimed]
      split
      · split
        · exact ih ring.release
        · rfl
      · rfl

theorem pop_untimed :
    ring.untimed.pop = (ring.pop.1.map Record.untimed, ring.pop.2.untimed) := by
  unfold pop
  rw [capacity_untimed, popWithin_untimed]

theorem popBatch_untimed (limit : Nat) (ring : Ring) :
    ring.untimed.popBatch limit =
      ((ring.popBatch limit).1.map Record.untimed, (ring.popBatch limit).2.untimed) := by
  induction limit generalizing ring with
  | zero => rfl
  | succ limit ih =>
      unfold popBatch
      rw [pop_untimed]
      rcases ring.pop with ⟨_ | record, next⟩
      · rfl
      · simp [ih]

end Ring

/-! ## Counting -/

namespace GroupTable

theorem accept_error {table : GroupTable} {place : RowPlace} {loss : Loss}
    (h : table.accept place = .error loss) : loss = .tableExhausted := by
  unfold accept at h
  split at h <;> simp_all

theorem settle_error {table : GroupTable} {place : RowPlace} {loss : Loss}
    (h : (table.settle place).1 = .error loss) : loss = .tableExhausted := by
  unfold settle at h
  split at h <;> simp_all

theorem zeroRow_error {table : GroupTable} {loss : Loss} (h : table.zeroRow.1 = .error loss) :
    loss = .tableExhausted := by
  unfold zeroRow at h
  split at h
  · exact accept_error h
  · split at h
    · simpa using h.symm
    · exact settle_error h

theorem rowFrom_error {table : GroupTable} {group : GroupId} {steps : Nat} {index : UInt64}
    {loss : Loss} (h : (table.rowFrom group steps index).1 = .error loss) :
    loss = .tableExhausted := by
  induction steps generalizing index with
  | zero => simpa [rowFrom] using h.symm
  | succ steps ih =>
      unfold rowFrom at h
      split at h
      · exact accept_error h
      · split at h
        · split at h
          · simpa using h.symm
          · exact settle_error h
        · exact ih h

/-- The table loses an operation only because it admits no further group. -/
theorem tally_error {table : GroupTable} {group : GroupId} {op : Operation} {loss : Loss}
    (h : (table.tally group op).1 = .error loss) : loss = .tableExhausted := by
  have hrow : (table.rowFor group).1 = .error loss := by
    unfold tally at h
    rcases hcall : table.rowFor group with ⟨_ | _, _⟩ <;> simp_all
  unfold rowFor at hrow
  split at hrow
  · exact zeroRow_error hrow
  · exact rowFrom_error hrow

end GroupTable

inductive Hook where
  | counted (group : GroupId) (op : Operation)
  | reclaim
deriving DecidableEq, Repr

/-- What a call counts, whatever it traces. Calls on the gate and on the reader count nothing. -/
def CollectorStep.hook? : CollectorStep → Option Hook
  | @alloc _ _ _ _ group _ _ => some (.counted group .alloc)
  | .instantiate group bound => some (.counted group (if bound then .positive else .negative))
  | .positive group => some (.counted group .positive)
  | .negative group => some (.counted group .negative)
  | .reclaim => some .reclaim
  | _ => none

/-- The side of a collector that counts. -/
structure Counters where
  table : GroupTable
  exhausted : UInt64 := 0
  reclaims : UInt64 := 0

def Counters.take (counters : Counters) : Hook → Counters
  | .counted group op =>
      match counters.table.tally group op with
      | (.ok (), table) => { counters with table }
      | (.error _, table) => { counters with table, exhausted := counters.exhausted + 1 }
  | .reclaim => { counters with reclaims := counters.reclaims + 1 }

theorem Counters.exhausted_take {counters : Counters} {group : GroupId} {op : Operation}
    {loss : Loss} (h : (counters.table.tally group op).1 = .error loss) :
    (counters.take (.counted group op)).exhausted = counters.exhausted + 1 := by
  unfold take
  rcases hcall : counters.table.tally group op with ⟨answer, table⟩
  rw [hcall] at h
  obtain rfl : answer = .error loss := h
  simp only [hcall]

namespace Collector

def counters (collector : Collector) : Counters where
  table := collector.table
  exhausted := collector.drops.tableExhausted
  reclaims := collector.reclaims

variable (collector : Collector) (group : GroupId)

theorem counters_count (op : Operation) :
    (collector.count group op).counters = collector.counters.take (.counted group op) := by
  have herror : ∀ loss, (collector.table.tally group op).1 = .error loss →
      loss = .tableExhausted := fun _ => GroupTable.tally_error
  have htable : collector.counters.table = collector.table := rfl
  simp only [count, Counters.take, htable]
  rcases hcall : collector.table.tally group op with ⟨loss | _, table⟩
  · rw [hcall] at herror
    obtain rfl := herror loss rfl
    rfl
  · rfl

theorem counters_trace (now : UInt64) (walk : Walk) :
    (collector.trace now group walk).counters = collector.counters := by
  unfold trace
  rcases collector.ring.reserve with ⟨_ | slot, ring⟩ <;> rfl

theorem counters_step (action : CollectorStep) :
    (step action collector).2.counters =
      action.hook?.elim collector.counters collector.counters.take := by
  cases action with
  | alloc now lineage group name parent =>
      show (collector.onAlloc now lineage group name parent).counters =
        collector.counters.take (.counted group .alloc)
      unfold onAlloc
      simp only
      split
      · rw [counters_trace, counters_count]
      · rw [counters_count]
  | instantiate group positive => exact collector.counters_count group _
  | positive group => exact collector.counters_count group _
  | negative group => exact collector.counters_count group _
  | reclaim => rfl
  | setTracing enabled => rfl
  | takeReader => rfl
  | pop => rfl
  | popBatch limit => rfl

/-- What a run counts depends on its hooks and on nothing else. -/
theorem counters_runAll (actions : List CollectorStep) (collector : Collector) :
    (runAll step actions collector).2.counters =
      (actions.filterMap CollectorStep.hook?).foldl Counters.take collector.counters := by
  induction actions generalizing collector with
  | nil => rfl
  | cons action rest ih =>
      have hstep := collector.counters_step action
      rw [runAll_cons, ih]
      cases hhook : action.hook? with
      | none =>
          rw [hhook] at hstep
          rw [List.filterMap_cons_none hhook, hstep, Option.elim_none]
      | some hook =>
          rw [hhook] at hstep
          rw [List.filterMap_cons_some hhook, List.foldl_cons, hstep, Option.elim_some]

end Collector

/-! ## Tracing -/

/-- A call that reads the clock at time zero. -/
def CollectorStep.untimed : CollectorStep → CollectorStep
  | @alloc _ _ _ lineage group name parent => .alloc 0 lineage group name parent
  | action => action

namespace Collector

/-- The two collectors trace in the same way, up to the times. -/
structure TracesAlike (left right : Collector) : Prop where
  ring : left.ring.untimed = right.ring.untimed
  tracing : left.tracing = right.tracing
  ringFull : left.drops.ringFull = right.drops.ringFull

theorem count_tracing (collector : Collector) (group : GroupId) (op : Operation) :
    ∃ table exhausted, collector.count group op =
      { collector with
        table, drops := { collector.drops with tableExhausted := exhausted } } := by
  have herror : ∀ loss, (collector.table.tally group op).1 = .error loss →
      loss = .tableExhausted := fun _ => GroupTable.tally_error
  unfold count
  rcases hcall : collector.table.tally group op with ⟨loss | _, table⟩
  · rw [hcall] at herror
    obtain rfl := herror loss rfl
    exact ⟨table, _, rfl⟩
  · exact ⟨table, _, rfl⟩

namespace TracesAlike

variable {left right : Collector}

theorem count (h : left.TracesAlike right) (group : GroupId) (op : Operation) :
    (left.count group op).TracesAlike (right.count group op) := by
  obtain ⟨_, _, hleft⟩ := left.count_tracing group op
  obtain ⟨_, _, hright⟩ := right.count_tracing group op
  rw [hleft, hright]
  exact ⟨h.ring, h.tracing, h.ringFull⟩

theorem trace (h : left.TracesAlike right) (now later : UInt64) (group : GroupId) (walk : Walk) :
    (left.trace now group walk).TracesAlike (right.trace later group walk) := by
  have hreserve : (left.ring.reserve.1, left.ring.reserve.2.untimed) =
      (right.ring.reserve.1, right.ring.reserve.2.untimed) := by
    rw [← Ring.reserve_untimed, ← Ring.reserve_untimed, h.ring]
  have hwritten (ring : Ring) (slot : Reservation) (time : UInt64) :
      ((ring.fill slot (traced time group walk)).commit slot).untimed =
        (ring.untimed.fill slot (traced 0 group walk)).commit slot := by
    have hfill : ring.untimed.fill slot (traced 0 group walk) =
        (ring.fill slot (traced time group walk)).untimed := ring.fill_untimed slot fun _ => rfl
    rw [← Ring.commit_untimed, hfill]
  unfold Collector.trace
  rcases hgranted : left.ring.reserve with ⟨answer, ring⟩
  rcases hother : right.ring.reserve with ⟨same, other⟩
  rw [hgranted, hother] at hreserve
  obtain ⟨hanswer, hring⟩ := Prod.mk.inj hreserve
  obtain rfl : answer = same := hanswer
  cases answer with
  | none => exact ⟨hring, h.tracing, congrArg (· + 1) h.ringFull⟩
  | some slot =>
      refine ⟨?_, h.tracing, h.ringFull⟩
      show ((ring.fill slot _).commit slot).untimed = ((other.fill slot _).commit slot).untimed
      rw [hwritten, hwritten, hring]

theorem popBatch (h : left.TracesAlike right) (limit : Nat) :
    (left.ring.popBatch limit).1.map Record.untimed =
        (right.ring.popBatch limit).1.map Record.untimed ∧
      TracesAlike { left with ring := (left.ring.popBatch limit).2 }
        { right with ring := (right.ring.popBatch limit).2 } := by
  have hbatch := left.ring.popBatch_untimed limit
  rw [h.ring, right.ring.popBatch_untimed] at hbatch
  obtain ⟨hrecords, hring⟩ := Prod.mk.inj hbatch
  exact ⟨hrecords.symm, hring.symm, h.tracing, h.ringFull⟩

/-- The step may count in different tables and read different clocks. -/
theorem step (h : left.TracesAlike right) (action : CollectorStep) :
    (Collector.step action left).1.map Record.untimed =
        (Collector.step action.untimed right).1.map Record.untimed ∧
      (Collector.step action left).2.TracesAlike (Collector.step action.untimed right).2 := by
  cases action with
  | alloc now lineage group name parent =>
      have hcount := h.count group .alloc
      refine ⟨rfl, ?_⟩
      show (left.onAlloc now lineage group name parent).TracesAlike
        (right.onAlloc 0 lineage group name parent)
      simp only [onAlloc, hcount.tracing]
      split
      · exact hcount.trace now 0 group _
      · exact hcount
  | instantiate group bound => exact ⟨rfl, h.count group _⟩
  | positive group => exact ⟨rfl, h.count group _⟩
  | negative group => exact ⟨rfl, h.count group _⟩
  | reclaim => exact ⟨rfl, h.ring, h.tracing, h.ringFull⟩
  | setTracing enabled => exact ⟨rfl, h.ring, rfl, h.ringFull⟩
  | takeReader =>
      have htaken := congrArg (fun ring : Ring => ring.takeReader.2) h.ring
      exact ⟨rfl, htaken, h.tracing, h.ringFull⟩
  | pop =>
      have hpop := left.ring.pop_untimed
      rw [h.ring, right.ring.pop_untimed] at hpop
      obtain ⟨hrecord, hring⟩ := Prod.mk.inj hpop
      refine ⟨?_, hring.symm, h.tracing, h.ringFull⟩
      show left.ring.pop.1.toList.map _ = right.ring.pop.1.toList.map _
      rw [← Option.toList_map, ← Option.toList_map, hrecord]
  | popBatch limit => exact h.popBatch limit

theorem runAll (h : left.TracesAlike right) (actions : List CollectorStep) :
    let run := DentryWatch.runAll Collector.step actions left
    let other := DentryWatch.runAll Collector.step (actions.map CollectorStep.untimed) right
    run.1.map (·.map Record.untimed) = other.1.map (·.map Record.untimed) ∧
      run.2.TracesAlike other.2 := by
  induction actions generalizing left right with
  | nil => exact ⟨rfl, h⟩
  | cons action rest ih =>
      obtain ⟨hnow, hnext⟩ := h.step action
      obtain ⟨hlater, hlast⟩ := ih hnext
      rw [List.map_cons, runAll_cons, runAll_cons]
      refine ⟨?_, hlast⟩
      rw [List.map_cons, List.map_cons, hnow]
      exact congrArg _ hlater

end TracesAlike

/--
Whatever two collectors have done. If their tables are for as many groups and
they counted the same hooks, they count alike: the gate, the names, the rings and
the readers do not matter. If their rings are as large and the same calls were
made, maybe at other times, they trace alike: the tables do not matter, and even
an allocation that the table refuses is traced when the ring has room.
-/
theorem counting_tracing_separate (left right : CollectorOptions)
    (actions others : List CollectorStep) :
    let run := runAll step actions (ofOptions left)
    let other := runAll step others (ofOptions right)
    (left.tableCapacity = right.tableCapacity →
        actions.filterMap CollectorStep.hook? = others.filterMap CollectorStep.hook? →
        (∀ group, run.2.table.get? group = other.2.table.get? group) ∧
          run.2.groups = other.2.groups ∧ run.2.reclaims = other.2.reclaims ∧
          run.2.drops.tableExhausted = other.2.drops.tableExhausted) ∧
      (left.ringRecords = right.ringRecords → left.tracing = right.tracing →
        actions.map CollectorStep.untimed = others.map CollectorStep.untimed →
        run.1.map (·.map Record.untimed) = other.1.map (·.map Record.untimed) ∧
          run.2.ring.stats = other.2.ring.stats ∧
          run.2.drops.ringFull = other.2.drops.ringFull) ∧
      (left.ringRecords ≤ 2 ^ 63 → run.2.tracing = true →
        run.2.ring.queued.length < run.2.ring.capacity →
        ∀ {ν : Type} [DecidableEq ν] (now : UInt64) (lineage : Lineage ν) (group : GroupId)
            (name : Bytes) (parent : Option ν),
          (run.2.table.tally group .alloc).1 = .error .tableExhausted →
          let after := run.2.onAlloc now lineage group name parent
          after.drops.tableExhausted = run.2.drops.tableExhausted + 1 ∧
            after.drops.ringFull = run.2.drops.ringFull ∧
            after.ring.queued =
              run.2.ring.queued ++ [traced now group (lineage.walk name parent) .zero]) := by
  intro run other
  refine ⟨?_, ?_, ?_⟩
  · intro hcapacity hhooks
    have hstart : (ofOptions left).counters = (ofOptions right).counters := by
      simp only [counters, ofOptions, hcapacity]
    have hcounters : run.2.counters = other.2.counters := by
      rw [counters_runAll, counters_runAll, hhooks, hstart]
    have htable : run.2.table = other.2.table := congrArg Counters.table hcounters
    refine ⟨fun group => by rw [htable], ?_, congrArg Counters.reclaims hcounters,
      congrArg Counters.exhausted hcounters⟩
    rw [groups, groups, htable]
  · intro hrecords htracing hcalls
    have hsame : (ofOptions left).TracesAlike (ofOptions left) := ⟨rfl, rfl, rfl⟩
    have hstart : (ofOptions right).TracesAlike (ofOptions left) := by
      simp only [ofOptions, hrecords, htracing]
      exact ⟨rfl, rfl, rfl⟩
    obtain ⟨hleft, hrun⟩ := hsame.runAll actions
    obtain ⟨hright, hother⟩ := hstart.runAll others
    rw [← hcalls] at hright hother
    have hring : run.2.ring.untimed = other.2.ring.untimed := hrun.ring.trans hother.ring.symm
    have hstats : run.2.ring.untimed.stats = other.2.ring.untimed.stats := congrArg Ring.stats hring
    exact ⟨hleft.trans hright.symm, hstats,
      hrun.ringFull.trans hother.ringFull.symm⟩
  · intro hrecords htracing hroom ν _ now lineage group name parent hrefused
    have horderly : run.2.Orderly := ((orderly_ofOptions hrecords).runAll actions).1
    obtain ⟨-, hqueued, hfull⟩ := horderly.alloc_of_room htracing hroom now lineage group name parent
    have hcounters := run.2.counters_step (.alloc now lineage group name parent)
    have hexhausted := congrArg Counters.exhausted hcounters
    exact ⟨hexhausted.trans (Counters.exhausted_take hrefused), hfull, hqueued⟩

/--
A name traced by the first collector and not by the third is counted by both; the
second counts nothing, since its table is for no group, and traces it all the same.
-/
theorem counting_tracing_separate_full :
    let left : CollectorOptions := { tableCapacity := 1, ringRecords := 2, tracing := true }
    let right : CollectorOptions := { tableCapacity := 0, ringRecords := 2, tracing := true }
    let quiet : CollectorOptions := { tableCapacity := 1, ringRecords := 4 }
    let lineage := Lineage.ofNodes #[([47], none)]
    let actions : List CollectorStep := [.alloc 5 lineage 1 [97] (some 0), .pop, .reclaim]
    let later : List CollectorStep := [.alloc 9 lineage 1 [97] (some 0), .pop, .reclaim]
    let silent : List CollectorStep := [.setTracing false, .alloc 7 lineage 1 [98] none, .reclaim]
    actions.filterMap CollectorStep.hook? = silent.filterMap CollectorStep.hook? ∧
      actions.map CollectorStep.untimed = later.map CollectorStep.untimed ∧
      (runAll step actions (ofOptions left)).2.groups =
        (runAll step silent (ofOptions quiet)).2.groups ∧
      (runAll step actions (ofOptions left)).1.map (·.map Record.untimed) =
        (runAll step later (ofOptions right)).1.map (·.map Record.untimed) ∧
      ((ofOptions right).onAlloc 11 lineage 2 [98] none).ring.queued =
        [traced 11 2 (lineage.walk [98] none) .zero] := by
  intro left right quiet lineage actions later silent
  have hhooks : actions.filterMap CollectorStep.hook? = silent.filterMap CollectorStep.hook? := rfl
  have hcalls : actions.map CollectorStep.untimed = later.map CollectorStep.untimed := rfl
  have hrecords : right.ringRecords ≤ 2 ^ 63 := by
    show (2 : Nat) ≤ 2 ^ 63
    decide
  have hempty : (ofOptions right).ring.queued = [] := (Ring.backlog_ofCapacity hrecords).queued_eq
  have hroom : (ofOptions right).ring.queued.length < (ofOptions right).ring.capacity := by
    rw [hempty]
    decide
  have hrefused : ((ofOptions right).table.tally 2 .alloc).1 = .error .tableExhausted := by decide
  obtain ⟨-, hgroups, -⟩ := (counting_tracing_separate left quiet actions silent).1 rfl hhooks
  obtain ⟨halike, -⟩ := (counting_tracing_separate left right actions later).2.1 rfl rfl hcalls
  obtain ⟨-, -, hnext⟩ := (counting_tracing_separate right right [] []).2.2 hrecords rfl hroom
    11 lineage 2 [98] none hrefused
  refine ⟨hhooks, hcalls, hgroups, halike, ?_⟩
  refine hnext.trans ?_
  rw [runAll_nil, hempty, List.nil_append]

end Collector

end DentryWatch
