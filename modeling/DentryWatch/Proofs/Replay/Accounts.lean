import DentryWatch.Proofs.Collector.Paths
import DentryWatch.Proofs.Disk.Directories
import DentryWatch.Proofs.Replay.Visits
import Mathlib

/-!
# A replay accounts for the whole tree

Each replay adds the same numbers to the counters of its group and traces the same
events: those of a depth-first walk, with the missing name of a directory between
the directory and what it holds.
-/

namespace DentryWatch

/-- Adds to the counters, modulo the size of a word. -/
def Counts.plus (counts : Counts) (more : Operation → Nat) : Counts where
  alloc := counts.alloc + UInt64.ofNat (more .alloc)
  positive := counts.positive + UInt64.ofNat (more .positive)
  negative := counts.negative + UInt64.ofNat (more .negative)

namespace GroupTable

theorem countsOf_append (calls later : List Call) (group : GroupId) :
    countsOf (calls ++ later) group =
      (countsOf calls group).plus fun op => later.count (group, op) := by
  simp [countsOf, Counts.plus, List.count_append, UInt64.ofNat_add]

/-- What calls for one group change in a table. -/
theorem Shows.get?_append {table next : GroupTable} {accepted calls : List Call} {group : GroupId}
    (h : table.Shows accepted) (hnext : next.Shows (accepted ++ calls))
    (hgroup : ∀ call ∈ calls, call.1 = group) :
    (next.get? group =
      if calls = [] then table.get? group
      else some (((table.get? group).getD {}).plus fun op => calls.count (group, op))) ∧
    ∀ other ≠ group, next.get? other = table.get? other := by
  have hbefore : (table.get? group).getD {} = countsOf accepted group := by
    rw [h.get?_eq]
    split
    · rfl
    · next hmem => exact (countsOf_eq_default hmem).symm
  refine ⟨?_, fun other hne => ?_⟩
  · by_cases hcalls : calls = []
    · rw [if_pos hcalls, hnext.get?_eq, h.get?_eq, hcalls, List.append_nil]
    · obtain ⟨call, rest, rfl⟩ := List.exists_cons_of_ne_nil hcalls
      have hmem : group ∈ groupsOf (accepted ++ call :: rest) := by
        simp [groupsOf, hgroup call List.mem_cons_self]
      rw [if_neg hcalls, hnext.get?_eq, if_pos hmem, hbefore, countsOf_append]
  · have hnot : ∀ op, calls.count (other, op) = 0 := by
      intro op
      rw [List.count_eq_zero]
      exact fun hmem => hne (hgroup _ hmem)
    have hiff : other ∈ groupsOf (accepted ++ calls) ↔ other ∈ groupsOf accepted := by
      have hout : ∀ op, (other, op) ∉ calls := fun op hmem => hne (hgroup _ hmem)
      simp [groupsOf, hout]
    have hcounts : countsOf (accepted ++ calls) other = countsOf accepted other := by
      simp [countsOf_append, Counts.plus, hnot]
    rw [hnext.get?_eq, h.get?_eq, hcounts]
    simp only [hiff]

/-- Calls for one group fit if it is admitted, or if there is room for one more. -/
theorem Shows.card_le_of_room {table : GroupTable} {accepted calls : List Call} {group : GroupId}
    (h : table.Shows accepted) (hgroup : ∀ call ∈ calls, call.1 = group)
    (hroom : table.get? group ≠ none ∨ table.live < table.capacity) :
    (groupsOf (accepted ++ calls)).card ≤ table.capacity := by
  have hsubset : groupsOf (accepted ++ calls) ⊆ insert group (groupsOf accepted) := by
    intro other hmem
    rw [groupsOf_append, Finset.mem_union] at hmem
    rcases hmem with hold | hnew
    · exact Finset.mem_insert_of_mem hold
    · obtain ⟨call, hcall, rfl⟩ := List.mem_map.1 (List.mem_toFinset.1 hnew)
      exact Finset.mem_insert.2 (.inl (hgroup call hcall))
  have hcard := Finset.card_le_card hsubset
  have hlive := h.live_eq
  have hle := h.sound.live_le
  by_cases hmem : group ∈ groupsOf accepted
  · rw [Finset.insert_eq_of_mem hmem] at hcard
    omega
  · have hnone : table.get? group = none := by rw [h.get?_eq, if_neg hmem]
    have hless := hroom.resolve_left fun hsome => hsome hnone
    rw [Finset.card_insert_of_notMem hmem] at hcard
    omega

end GroupTable

/-- How often a replay calls each operation. -/
def ReplayCounts.calls (counts : ReplayCounts) : Operation → Nat
  | .alloc => counts.entries + counts.missing
  | .positive => counts.entries
  | .negative => counts.missing

namespace ReplaySource

/-! ## The calls of a walk -/

section Walk

variable (source : ReplaySource) (now : UInt64) (root : Location) (walk : List (Location × Node))

theorem hook?_walkCalls {action : CollectorStep} (h : action ∈ source.walkCalls now root walk) :
    ∃ op, action.hook? = some (.counted source.group op) := by
  have hprobe : ∀ dir, action ∈ source.probeCalls now dir →
      ∃ op, action.hook? = some (.counted source.group op) := by
    intro dir hmem
    cases hprobes : source.probes with
    | false => simp [probeCalls, hprobes] at hmem
    | true =>
        simp only [probeCalls, hprobes, if_pos, List.mem_cons, List.not_mem_nil, or_false] at hmem
        rcases hmem with rfl | rfl
        · exact ⟨.alloc, rfl⟩
        · exact ⟨.negative, rfl⟩
  rcases List.mem_append.1 h with hroot | hmem
  · exact hprobe root hroot
  · obtain ⟨entry, -, hentry⟩ := List.mem_flatMap.1 hmem
    rcases List.mem_append.1 hentry with hself | hmissing
    · simp only [List.mem_cons, List.not_mem_nil, or_false] at hself
      rcases hself with rfl | rfl
      · exact ⟨.alloc, rfl⟩
      · exact ⟨.positive, rfl⟩
    · by_cases hdir : entry.2.isDirectory = true
      · rw [if_pos hdir] at hmissing
        exact hprobe _ hmissing
      · rw [if_neg hdir] at hmissing
        cases hmissing

theorem tableCalls_probeCalls (dir : Location) :
    tableCalls (source.probeCalls now dir) =
      if source.probes then [(source.group, .alloc), (source.group, .negative)] else [] := by
  unfold probeCalls
  split <;> rfl

theorem tableCalls_entryCalls (entry : Location × Node) :
    tableCalls (source.entryCalls now entry) =
      [(source.group, .alloc), (source.group, .positive)] ++
        if entry.2.isDirectory && source.probes then
          [(source.group, .alloc), (source.group, .negative)]
        else [] := by
  rw [entryCalls, tableCalls_append]
  congr 1
  cases entry.2.isDirectory with
  | false => rfl
  | true => exact source.tableCalls_probeCalls now entry.1

theorem tallied_concat (entry : Location × Node) (op : Operation) :
    (source.tallied (walk ++ [entry])).calls op = (source.tallied walk).calls op +
      ((if op = .negative then 0 else 1) +
        if op ≠ .positive ∧ entry.2.isDirectory && source.probes then 1 else 0) := by
  unfold tallied ReplayCounts.calls
  rw [List.length_append, List.countP_append, List.length_singleton, List.countP_singleton]
  cases entry.2.isDirectory <;> cases source.probes <;> cases op <;> simp <;> omega

theorem count_walkCalls (op : Operation) :
    (tableCalls (source.walkCalls now root walk)).count (source.group, op) =
      (source.tallied walk).calls op := by
  induction walk using List.reverseRecOn with
  | nil =>
      rw [walkCalls, List.flatMap_nil, List.append_nil, tableCalls_probeCalls]
      unfold tallied ReplayCounts.calls
      cases source.probes <;> cases op <;> simp
  | append_singleton walk entry ih =>
      rw [walkCalls_concat, tableCalls_append, List.count_append, ih, tallied_concat,
        tableCalls_entryCalls]
      congr 1
      generalize (entry.2.isDirectory && source.probes) = both
      cases both <;> cases op <;> simp

theorem length_walkCalls :
    (tableCalls (source.walkCalls now root walk)).length =
      2 * (source.tallied walk).calls .alloc := by
  induction walk using List.reverseRecOn with
  | nil =>
      rw [walkCalls, List.flatMap_nil, List.append_nil, tableCalls_probeCalls]
      unfold tallied ReplayCounts.calls
      cases source.probes <;> simp
  | append_singleton walk entry ih =>
      rw [walkCalls_concat, tableCalls_append, List.length_append, ih, tallied_concat,
        tableCalls_entryCalls, Nat.mul_add]
      congr 1
      generalize (entry.2.isDirectory && source.probes) = both
      cases both <;> simp

/-! ## The events of a walk -/

/-- The event of an entry: its name and those above it up to the root, eight names at most. -/
def event (entry : Location) : Record :=
  Collector.traced now source.group
    ⟨(entry.reverse ++ [[Path.slash]]).take maxDepth, decide (entry.length < maxDepth)⟩ .zero

theorem recounts_event (entry : Location) :
    (source.event now entry).Recounts now source.group
      ((entry.reverse ++ [[Path.slash]]).take 8) (entry.length < 8) := by
  have hdeep : ((entry.reverse ++ [[Path.slash]]).take maxDepth).length ≤ maxDepth :=
    List.length_take_le _ _
  have hrecounts : (source.event now entry).Recounts now source.group
      ((entry.reverse ++ [[Path.slash]]).take maxDepth)
      (decide (entry.length < maxDepth) = true) :=
    Collector.recounts_traced hdeep now source.group .zero
  exact { hrecounts with root := hrecounts.root.trans decide_eq_true_iff }

/-- The missing name of a directory, if it is looked up. -/
def probed (dir : Location) : List Location :=
  if source.probes then [dir ++ [missingName]] else []

/-- What is looked up, in order. -/
def lookedUp : List Location :=
  source.probed root ++ walk.flatMap fun entry =>
    entry.1 :: if entry.2.isDirectory then source.probed entry.1 else []

theorem records_alloc {entry : Location} (hne : entry ≠ []) :
    CollectorStep.records (.alloc now Location.lineage source.group (entry.getLast?.getD [])
      (some entry.dropLast)) = [source.event now entry] := by
  have habove : entry.above ≠ [] := by
    rw [← List.length_pos_iff, Location.length_above hne]
    exact List.length_pos_iff.2 hne
  have hwalk := (Location.ascent_above (maxDepth - 1) entry).walk (entry.getLast?.getD [])
  simp only [Location.names_above hne, Location.length_above hne, habove, ne_eq, not_false_eq_true,
    true_and] at hwalk
  rw [CollectorStep.records, hwalk, event]

theorem records_probeCalls (dir : Location) :
    (source.probeCalls now dir).flatMap CollectorStep.records =
      (source.probed dir).map (source.event now) := by
  have hmissing := source.records_alloc now (List.concat_ne_nil missingName dir)
  rw [List.dropLast_concat, List.getLast?_concat, Option.getD_some] at hmissing
  unfold probeCalls probed
  split
  · rw [List.flatMap_cons, hmissing]
    rfl
  · rfl

theorem records_walkCalls (hne : ∀ entry ∈ walk, entry.1 ≠ []) :
    (source.walkCalls now root walk).flatMap CollectorStep.records =
      (source.lookedUp root walk).map (source.event now) := by
  rw [walkCalls, lookedUp, List.flatMap_append, List.map_append, records_probeCalls,
    List.flatMap_assoc, List.map_flatMap]
  congr 1
  apply List.flatMap_congr
  intro entry hmem
  rw [entryCalls, List.cons_append, List.flatMap_cons, records_alloc _ _ (hne entry hmem)]
  simp only [List.singleton_append, List.map_cons, List.cons.injEq, true_and, List.flatMap_cons]
  cases entry.2.isDirectory with
  | false => rfl
  | true => exact source.records_probeCalls now entry.1

theorem length_lookedUp :
    (source.lookedUp root walk).length = (source.tallied walk).calls .alloc := by
  induction walk using List.reverseRecOn with
  | nil =>
      unfold lookedUp probed tallied ReplayCounts.calls
      cases source.probes <;> simp
  | append_singleton walk entry ih =>
      have hlast : source.lookedUp root (walk ++ [entry]) = source.lookedUp root walk ++
          entry.1 :: if entry.2.isDirectory then source.probed entry.1 else [] := by
        simp [lookedUp]
      rw [hlast, List.length_append, ih, tallied_concat]
      unfold probed
      cases entry.2.isDirectory <;> cases source.probes <;> simp

end Walk

/-! ## Several replays -/

/-- Replays a tree once. A replay that fails leaves the collector as it was. -/
def turn (source : ReplaySource) (disk : Disk) (now : UInt64) (collector : Collector) :
    Except ReplayFailure ReplayCounts × Collector :=
  match source.replay disk now collector with
  | .error failure => (.error failure, collector)
  | .ok (counts, collector) => (.ok counts, collector)

section Turns

variable (source : ReplaySource) (times : List UInt64) (root : Location)
  (walk : List (Location × Node))

/-- The calls of one replay at each of these times. -/
def callsAt : List CollectorStep := times.flatMap fun now => source.calls now root walk

theorem callsAt_cons (now : UInt64) :
    source.callsAt (now :: times) root walk =
      source.calls now root walk ++ source.callsAt times root walk := rfl

theorem tableCalls_callsAt :
    tableCalls (source.callsAt times root walk) =
      times.flatMap fun now => tableCalls (source.walkCalls now root walk) := by
  induction times with
  | nil => rfl
  | cons now rest ih =>
      have hreclaim : tableCalls (source.calls now root walk) =
          tableCalls (source.walkCalls now root walk) := by
        rw [calls, tableCalls_append]
        exact List.append_nil _
      rw [callsAt_cons, tableCalls_append, hreclaim, ih, List.flatMap_cons]

theorem count_callsAt (op : Operation) :
    (tableCalls (source.callsAt times root walk)).count (source.group, op) =
      times.length * (source.tallied walk).calls op := by
  rw [tableCalls_callsAt, List.count_flatMap]
  simp [Function.comp_def, count_walkCalls]

theorem tableCalls_callsAt_eq_nil_iff :
    tableCalls (source.callsAt times root walk) = [] ↔
      times.length * (source.tallied walk).calls .alloc = 0 := by
  rw [← List.length_eq_zero_iff, tableCalls_callsAt, List.length_flatMap]
  simp [length_walkCalls]

theorem hook?_callsAt {action : CollectorStep} (h : action ∈ source.callsAt times root walk) :
    action = .reclaim ∨ ∃ op, action.hook? = some (.counted source.group op) := by
  obtain ⟨now, -, hmem⟩ := List.mem_flatMap.1 h
  rcases List.mem_append.1 hmem with hwalk | hlast
  · exact .inr (source.hook?_walkCalls now root walk hwalk)
  · exact .inl (List.mem_singleton.1 hlast)

theorem group_of_mem_callsAt {call : GroupTable.Call}
    (h : call ∈ tableCalls (source.callsAt times root walk)) : call.1 = source.group := by
  obtain ⟨hook, hhook, hcall⟩ := List.mem_filterMap.1 h
  obtain ⟨action, hmem, haction⟩ := List.mem_filterMap.1 hhook
  rcases source.hook?_callsAt times root walk hmem with rfl | ⟨op, hop⟩
  · obtain rfl := Option.some.inj haction
    cases hcall
  · obtain rfl := Option.some.inj (hop.symm.trans haction)
    obtain rfl := Option.some.inj hcall
    rfl

theorem count_reclaim_callsAt :
    ((source.callsAt times root walk).filterMap CollectorStep.hook?).count .reclaim =
      times.length := by
  have hwalk : ∀ now,
      ((source.walkCalls now root walk).filterMap CollectorStep.hook?).count .reclaim = 0 := by
    intro now
    rw [List.count_eq_zero]
    intro hmem
    obtain ⟨action, haction, hhook⟩ := List.mem_filterMap.1 hmem
    obtain ⟨op, hop⟩ := source.hook?_walkCalls now root walk haction
    rw [hop] at hhook
    cases hhook
  induction times with
  | nil => rfl
  | cons now rest ih =>
      have hone : ((source.calls now root walk).filterMap CollectorStep.hook?).count .reclaim = 1 := by
        rw [calls, List.filterMap_append, List.count_append, hwalk]
        rfl
      rw [callsAt_cons, List.filterMap_append, List.count_append, hone, ih, List.length_cons,
        Nat.add_comm]

theorem records_callsAt (hne : ∀ entry ∈ walk, entry.1 ≠ []) :
    (source.callsAt times root walk).flatMap CollectorStep.records =
      times.flatMap fun now => (source.lookedUp root walk).map (source.event now) := by
  rw [callsAt, List.flatMap_assoc]
  apply List.flatMap_congr
  intro now _
  rw [calls, List.flatMap_append, records_walkCalls _ _ _ _ hne]
  exact List.append_nil _

end Turns

theorem runAll_turn {source : ReplaySource} {disk : Disk} {root : Location} {inode : Nat}
    (hsound : disk.Sound) (hdistinct : disk.Distinct) (hattached : source.attached = true)
    (hroot : disk.canonical source.root = .ok (root, .directory inode))
    (hreadable : disk.Readable root) (times : List UInt64) (collector : Collector) :
    runAll (source.turn disk) times collector =
      (List.replicate times.length (.ok (source.tallied (disk.below root))),
        (runAll Collector.step (source.callsAt times root (disk.below root)) collector).2) := by
  induction times generalizing collector with
  | nil => rfl
  | cons now rest ih =>
      have hturn : source.turn disk now collector =
          (.ok (source.tallied (disk.below root)),
            (runAll Collector.step (source.calls now root (disk.below root)) collector).2) := by
        rw [turn, replay_eq hsound hdistinct hattached hroot hreadable]
      rw [runAll_cons, hturn, ih, callsAt_cons, runAll_append, List.length_cons,
        List.replicate_succ]

theorem runAll_turn_detached {source : ReplaySource} (h : source.attached = false) (disk : Disk)
    (times : List UInt64) (collector : Collector) :
    runAll (source.turn disk) times collector =
      (List.replicate times.length (.error .notAttached), collector) := by
  induction times with
  | nil => rfl
  | cons now rest ih =>
      have hturn : source.turn disk now collector = (.error .notAttached, collector) := by
        rw [turn, replay, h]
        rfl
      rw [runAll_cons, hturn, ih]
      rfl

/--
Replays of a tree with directories that can be read, into a collector that was used
in any way. What is below the root is visited depth first. If the source is attached
and the table has room for its group, each replay counts every entry and adds the
same numbers to the counters of the group, and to nothing else; with the gate open
and room in the ring it traces what is looked up, in order, each by its name and those
of the directories above it up to the root, as far as eight names go. If the source is
not attached, each replay fails.
-/
theorem replays_account_for_tree {options : CollectorOptions}
    (htable : options.tableCapacity ≤ 2 ^ 62) (hring : options.ringRecords ≤ 2 ^ 63)
    (actions : List CollectorStep) (source : ReplaySource) {disk : Disk} {root : Location}
    {inode : Nat} (hsound : disk.Sound) (hdistinct : disk.Distinct)
    (hroot : disk.canonical source.root = .ok (root, .directory inode))
    (hreadable : disk.Readable root) (times : List UInt64) :
    let before := (runAll Collector.step actions (.ofOptions options)).2
    let walk := disk.below root
    let counts := source.tallied walk
    let run := runAll (source.turn disk) times before
    disk.DepthFirst root walk ∧
    (∀ now entry, (source.event now entry).Recounts now source.group
      ((entry.reverse ++ [[Path.slash]]).take 8) (entry.length < 8)) ∧
    (source.attached = true →
      (before.table.get? source.group ≠ none ∨ before.table.live < options.tableCapacity) →
      run.1 = List.replicate times.length (.ok counts) ∧
      run.2.table.get? source.group =
        (if times.length * counts.calls .alloc = 0 then before.table.get? source.group
        else some (((before.table.get? source.group).getD {}).plus fun op =>
          times.length * counts.calls op)) ∧
      (∀ group ≠ source.group, run.2.table.get? group = before.table.get? group) ∧
      run.2.drops.tableExhausted = before.drops.tableExhausted ∧
      run.2.reclaims = before.reclaims + UInt64.ofNat times.length ∧
      (before.tracing = true →
        before.ring.queued.length + times.length * counts.calls .alloc ≤ before.ring.capacity →
        run.2.ring.queued = before.ring.queued ++
          times.flatMap fun now => (source.lookedUp root walk).map (source.event now))) ∧
    (source.attached = false →
      run = (List.replicate times.length (.error .notAttached), before)) := by
  intro before walk counts run
  have hwalk : disk.DepthFirst root walk := hdistinct.depthFirst_below root
  refine ⟨hwalk, fun now entry => source.recounts_event now entry,
    fun hattached hadmitted => ?_, fun h => runAll_turn_detached h disk times before⟩
  obtain ⟨hshows, hcapacity⟩ := Collector.shows_runAll htable actions
  generalize (GroupTable.tallyAll _ (tableCalls actions)).1 = accepted at hshows
  have hgroup : ∀ call ∈ tableCalls (source.callsAt times root walk), call.1 = source.group :=
    fun _ => source.group_of_mem_callsAt times root walk
  have hroom : (GroupTable.groupsOf (accepted ++
      tableCalls (source.callsAt times root walk))).card ≤ before.table.capacity :=
    hshows.card_le_of_room hgroup (hcapacity ▸ hadmitted)
  have hrun : run = _ := runAll_turn hsound hdistinct hattached hroot hreadable times before
  obtain ⟨hlast, -, hexhausted, hreclaims⟩ :=
    Collector.counted_of_room hshows (source.callsAt times root walk) hroom
  obtain ⟨hsame, hother⟩ := hshows.get?_append hlast hgroup
  rw [hrun]
  refine ⟨rfl, ?_, hother, hexhausted, ?_, fun htracing hspace => ?_⟩
  · simpa only [tableCalls_callsAt_eq_nil_iff, count_callsAt] using hsame
  · rw [hreclaims, count_reclaim_callsAt]
  · have hne : ∀ entry ∈ walk, entry.1 ≠ [] := by
      rintro ⟨location, node⟩ hmem
      obtain ⟨⟨hbelow, hne⟩, -⟩ := (hwalk.mem_iff location node).1 hmem
      rintro rfl
      exact hne (List.prefix_nil.1 hbelow).symm
    have hrecords := source.records_callsAt times root walk hne
    have horderly := ((Collector.orderly_ofOptions hring).runAll actions).1
    have hhooks : ∀ action ∈ source.callsAt times root walk, action.hook?.isSome = true := by
      intro action hmem
      rcases source.hook?_callsAt times root walk hmem with rfl | ⟨op, hop⟩
      · rfl
      · rw [hop]
        rfl
    have hfits : before.ring.queued.length +
        ((source.callsAt times root walk).flatMap CollectorStep.records).length ≤
          before.ring.capacity := by
      rw [hrecords, List.length_flatMap]
      simpa [length_lookedUp] using hspace
    have hbacklog := Collector.backlog_of_room horderly.backlog htracing _ hhooks hfits
    rw [hrecords] at hbacklog
    exact hbacklog.queued_eq

def oneFile : Disk :=
  ((({} : Disk).create [[0x61]] .directory).2.create [[0x61], [0x62]] .file).2

theorem sound_oneFile : oneFile.Sound := by
  have hdir := (Disk.sound_empty.create Node.directory (fun _ h => nomatch h)
    (Disk.find?_empty (List.cons_ne_nil [0x61] [])) ⟨[], [0x61], 2, rfl, rfl⟩).1
  refine (hdir.create Node.file (fun _ h => (Node.file.inj h).symm) rfl ?_).1
  exact ⟨[[0x61]], [0x62], 1048576, rfl, rfl⟩

theorem distinct_oneFile : oneFile.Distinct := by
  show (oneFile.nodes.map Prod.fst).Nodup
  decide

theorem readable_oneFile : oneFile.Readable [[0x61]] := by
  intro location inode _ hfind
  have hmem := (distinct_oneFile.mem_nodes_iff location (.directory inode)).2 hfind
  have hnodes : ∀ entry ∈ oneFile.nodes, Location.isReadable entry.1 = true := by decide
  exact hnodes _ hmem

/-- Two replays of a directory with one file: the file and the missing name, twice. -/
theorem replays_account_for_tree_two :
    let source : ReplaySource := { root := [0x2F, 0x61], group := 7, probes := true, attached := true }
    let options : CollectorOptions := { tableCapacity := 1, ringRecords := 4, tracing := true }
    let run := runAll (source.turn oneFile) [5, 6] (.ofOptions options)
    oneFile.canonical source.root = .ok ([[0x61]], .directory 1048576) ∧
      run.1 = [.ok { entries := 1, dirs := 1, missing := 1 },
        .ok { entries := 1, dirs := 1, missing := 1 }] ∧
      run.2.table.get? 7 = some { alloc := 4, positive := 2, negative := 2 } ∧
      run.2.reclaims = 2 ∧
      run.2.ring.queued =
        [source.event 5 [[0x61], missingName], source.event 5 [[0x61], [0x62]],
          source.event 6 [[0x61], missingName], source.event 6 [[0x61], [0x62]]] ∧
      (source.event 5 [[0x61], missingName]).Recounts 5 7 [missingName, [0x61], [0x2F]] (2 < 8) ∧
      (source.event 6 [[0x61], [0x62]]).Recounts 6 7 [[0x62], [0x61], [0x2F]] (2 < 8) := by
  intro source options run
  have hroot : oneFile.canonical source.root = .ok ([[0x61]], .directory 1048576) := by cbv
  have hbelow : oneFile.below [[0x61]] = [([[0x61], [0x62]], .file 1048577)] := by cbv
  have htable : options.tableCapacity ≤ 2 ^ 62 := by decide
  have hring : options.ringRecords ≤ 2 ^ 63 := by decide
  obtain ⟨-, hevents, hattached, -⟩ := replays_account_for_tree htable hring [] source sound_oneFile
    distinct_oneFile hroot readable_oneFile [5, 6]
  obtain ⟨hanswers, hcounts, -, -, hreclaims, htraced⟩ := hattached rfl (.inr (by decide))
  rw [hbelow] at hanswers hcounts htraced
  have hempty : (Collector.ofOptions options).ring.queued = [] :=
    (Ring.backlog_ofCapacity hring).queued_eq
  rw [runAll_nil, hempty] at htraced
  exact ⟨hroot, hanswers, hcounts.trans (by decide), hreclaims, htraced rfl (by decide),
    hevents 5 [[0x61], missingName], hevents 6 [[0x61], [0x62]]⟩

end ReplaySource

end DentryWatch
