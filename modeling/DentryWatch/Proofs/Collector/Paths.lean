import Mathlib.Data.List.Chain
import DentryWatch.Proofs.Collector.Accounts
import DentryWatch.Proofs.Disk.Children
import DentryWatch.Proofs.Record.Paths
import DentryWatch.Replay

/-!
# Traced paths

An allocation that is traced tells its own name and those of the ancestors above
it, up to eight names in all. For an entry of a tree these are its path from the
root, or the last eight names of it.
-/

namespace DentryWatch

namespace Lineage

variable {ν : Type} [DecidableEq ν]

/--
The nodes from `start` upward, each the parent of the one before. They end at a
top node, unless there are more of them than `room`.
-/
structure Ascent (lineage : Lineage ν) (room : Nat) (start : Option ν) (chain : List ν) : Prop where
  start : chain.head? = start
  linked : chain.IsChain fun node above =>
    lineage.isTop node = false ∧ lineage.parent node = some above
  complete : chain.length ≤ room → ∀ last ∈ chain.getLast?, lineage.isTop last = true

theorem Ascent.climb {lineage : Lineage ν} {room : Nat} {start : Option ν} {chain : List ν}
    (h : lineage.Ascent room start chain) :
    lineage.climb room start =
      ⟨(chain.take room).map lineage.name, decide (chain ≠ [] ∧ chain.length ≤ room)⟩ := by
  induction room generalizing start chain with
  | zero => cases chain <;> simp [Lineage.climb]
  | succ room ih =>
      have hstart := h.start
      rcases chain with _ | ⟨node, _ | ⟨above, rest⟩⟩
      · obtain rfl : none = start := hstart
        simp [Lineage.climb]
      · obtain rfl : some node = start := hstart
        have htop : lineage.isTop node = true := h.complete (by simp) node rfl
        simp [Lineage.climb, htop]
      · obtain rfl : some node = start := hstart
        obtain ⟨⟨hnot, hparent⟩, hlinked⟩ := List.isChain_cons_cons.1 h.linked
        have habove : lineage.Ascent room (some above) (above :: rest) := by
          refine ⟨rfl, hlinked, ?_⟩
          intro hlength last hlast
          refine h.complete (Nat.succ_le_succ hlength) last ?_
          rwa [List.getLast?_cons_cons]
        simp [Lineage.climb, hnot, hparent, ih habove]

theorem Ascent.walk {lineage : Lineage ν} {start : Option ν} {chain : List ν}
    (h : lineage.Ascent (maxDepth - 1) start chain) (self : Bytes) :
    lineage.walk self start =
      ⟨(self :: chain.map lineage.name).take maxDepth,
        decide (chain ≠ [] ∧ chain.length < maxDepth)⟩ := by
  have hflag : chain.length ≤ maxDepth - 1 ↔ chain.length < maxDepth := by
    simp only [maxDepth]
    omega
  have htake : (self :: chain.map lineage.name).take maxDepth =
      self :: (chain.map lineage.name).take (maxDepth - 1) := rfl
  unfold Lineage.walk
  rw [h.climb, htake, List.map_take]
  simp only [hflag]

/-- Every parent graph has an ascent from every node, cycles included. -/
theorem exists_ascent (lineage : Lineage ν) (room : Nat) (start : Option ν) :
    ∃ chain, lineage.Ascent room start chain := by
  induction room generalizing start with
  | zero =>
      refine ⟨start.toList, ?_, ?_, ?_⟩ <;> cases start <;> simp
  | succ room ih =>
      rcases start with _ | node
      · exact ⟨[], rfl, by simp, by simp⟩
      · cases htop : lineage.isTop node with
        | true => exact ⟨[node], rfl, by simp, by simpa using htop⟩
        | false =>
            have hparent : ∃ above, lineage.parent node = some above := by
              cases hnone : lineage.parent node with
              | none => simp [Lineage.isTop, hnone] at htop
              | some above => exact ⟨above, rfl⟩
            obtain ⟨above, hparent⟩ := hparent
            obtain ⟨chain, hchain⟩ := ih (some above)
            obtain ⟨rest, rfl⟩ := List.head?_eq_some_iff.1 hchain.start
            refine ⟨node :: above :: rest, rfl, ?_, ?_⟩
            · exact List.isChain_cons_cons.2 ⟨⟨htop, hparent⟩, hchain.linked⟩
            · intro hlength last hlast
              rw [List.getLast?_cons_cons] at hlast
              exact hchain.complete (Nat.le_of_succ_le_succ hlength) last hlast

end Lineage

/-! ## Trees -/

/-- A name that stands for an entry in the path of a tree. -/
structure FileName.Component (name : FileName) : Prop where
  ne_nil : name ≠ []
  nul : 0 ∉ name
  slash : Path.slash ∉ name
  ne_dot : name ≠ [0x2E]
  ne_dots : name ≠ [0x2E, 0x2E]

namespace Location

theorem isTop_lineage_iff (location : Location) :
    lineage.isTop location = true ↔ location = [] := by
  cases location using List.reverseRecOn <;> simp [Lineage.isTop, lineage]

/-- The directories from one upward. The names are listed from the last one on. -/
def upward (names : List FileName) : List Location := names.tails.map List.reverse

@[simp] theorem upward_nil : upward [] = [[]] := rfl

@[simp] theorem upward_cons (name : FileName) (rest : List FileName) :
    upward (name :: rest) = (rest.reverse ++ [name]) :: upward rest := by
  simp [upward]

theorem head?_upward (names : List FileName) : (upward names).head? = some names.reverse := by
  cases names <;> simp

theorem getLast?_upward (names : List FileName) : (upward names).getLast? = some [] := by
  induction names with
  | nil => rfl
  | cons name rest ih => rw [upward_cons, List.getLast?_cons, ih, Option.getD_some]

theorem length_upward (names : List FileName) : (upward names).length = names.length + 1 := by
  simp [upward]

theorem map_name_upward (names : List FileName) :
    (upward names).map lineage.name = names ++ [[Path.slash]] := by
  induction names with
  | nil => rfl
  | cons name rest ih =>
      rw [upward_cons, List.map_cons, ih]
      simp [lineage]

theorem ascent_upward (room : Nat) (names : List FileName) :
    lineage.Ascent room (some names.reverse) (upward names) := by
  refine ⟨head?_upward names, ?_, ?_⟩
  · induction names with
    | nil => simp
    | cons name rest ih =>
        rw [upward_cons]
        apply List.IsChain.cons ih
        intro above habove
        rw [head?_upward] at habove
        obtain rfl := Option.some.inj habove
        refine ⟨?_, ?_⟩
        · rw [Bool.eq_false_iff, Ne, isTop_lineage_iff]
          simp
        · simp [lineage]
  · intro _ last hlast
    rw [getLast?_upward] at hlast
    obtain rfl := Option.some.inj hlast
    exact (isTop_lineage_iff []).2 rfl

theorem bare_flatMap {location : Location}
    (h : ∀ name ∈ location, FileName.Component name) :
    Path.bare (location.flatMap fun name => Path.slash :: name) = location := by
  induction location with
  | nil => rfl
  | cons name rest ih =>
      have hname := h name List.mem_cons_self
      have hrest := ih fun other hmem => h other (List.mem_cons_of_mem _ hmem)
      have hfirst := Path.bare_of_slash_not_mem hname.ne_nil hname.slash
      have hslash (tail : Path) : Path.bare (Path.slash :: tail) = tail.bare :=
        Path.bare_append_slash [] tail
      rw [List.flatMap_cons, List.cons_append, hslash]
      cases rest with
      | nil => rwa [List.flatMap_nil, List.append_nil]
      | cons next rest =>
          rw [List.flatMap_cons, List.cons_append, hslash] at hrest
          rw [List.flatMap_cons, List.cons_append, Path.bare_append_slash, hfirst, hrest]
          rfl

section Entries

variable {entry : Location}

/-- The directories above an entry, the nearest first. -/
def above (entry : Location) : List Location := upward entry.dropLast.reverse

theorem ascent_above (room : Nat) (entry : Location) :
    lineage.Ascent room (some entry.dropLast) entry.above := by
  have hascent := ascent_upward room entry.dropLast.reverse
  rwa [List.reverse_reverse] at hascent

theorem length_above (hne : entry ≠ []) : entry.above.length = entry.length := by
  have hpos := List.length_pos_iff.2 hne
  rw [above, length_upward, List.length_reverse, List.length_dropLast]
  omega

theorem names_above (hne : entry ≠ []) :
    entry.getLast?.getD [] :: entry.above.map lineage.name = entry.reverse ++ [[Path.slash]] := by
  rw [above, map_name_upward, ← List.cons_append, List.getLast?_eq_some_getLast hne,
    Option.getD_some, ← List.reverse_concat, List.dropLast_concat_getLast hne]

end Entries

/-- Of the names upward from an entry only the root is left out. -/
theorem kept_upward {names : List FileName} (h : ∀ name ∈ names, FileName.Component name) :
    (((names.reverse ++ [[Path.slash]]).take 8).filter (· ≠ [Path.slash])).reverse =
      names.drop (names.length - 8) := by
  have hnames : ∀ name ∈ names.reverse.take 8, name ≠ [Path.slash] := by
    intro name hname heq
    have hcomponent := h name (List.mem_reverse.1 (List.mem_of_mem_take hname))
    rw [heq] at hcomponent
    exact hcomponent.slash List.mem_cons_self
  have hroot : ∀ name ∈ [[Path.slash]].take (8 - names.reverse.length), name = [Path.slash] := by
    intro name hname
    exact List.mem_singleton.1 (List.mem_of_mem_take hname)
  rw [List.take_append, List.filter_append, List.filter_eq_self.2 (by simpa using hnames),
    List.filter_eq_nil_iff.2 (by simpa using hroot), List.append_nil, List.reverse_take,
    List.reverse_reverse, List.length_reverse]

/-- The text of a location names its directories. -/
theorem parts_path {location : Location} (h : ∀ name ∈ location, FileName.Component name) :
    Path.parts location.path = (true, location) := by
  cases location with
  | nil => decide
  | cons name rest =>
      have hbare := bare_flatMap h
      have hname := (h name List.mem_cons_self).ne_dot
      have hrest : ∀ other ∈ rest, other ≠ [0x2E] := by
        intro other hmem
        exact (h other (List.mem_cons_of_mem _ hmem)).ne_dot
      unfold Path.bare at hbare
      unfold Path.parts Location.path
      rw [if_neg (by simp), hbare]
      simpa [hname] using hrest

end Location

namespace Collector

theorem holds_traced {ν : Type} [DecidableEq ν] (now : UInt64) (lineage : Lineage ν)
    (group : GroupId) (name : Bytes) (parent : Option ν) :
    (traced now group (lineage.walk name parent) .zero).Holds (lineage.walk name parent) :=
  ⟨rfl, fun i hi => Walk.getElem_writeInto _ _ i hi, lineage.walk_names_length_le name parent⟩

/-- What is traced below an ascent. -/
theorem Orderly.tells {collector : Collector} (h : collector.Orderly)
    (htracing : collector.tracing = true)
    (hroom : collector.ring.queued.length < collector.ring.capacity) {ν : Type} [DecidableEq ν]
    {lineage : Lineage ν} {start : Option ν} {chain : List ν} (hchain : lineage.Ascent 7 start chain)
    (now : UInt64) (group : GroupId) (self : Bytes)
    (hnames : ∀ name ∈ (self :: chain.map lineage.name).take 8, name ≠ [] ∧ 0 ∉ name) :
    ∃ event : Record,
      (collector.onAlloc now lineage group self start).ring.queued =
          collector.ring.queued ++ [event] ∧
        event.Tells (decide (chain ≠ [] ∧ chain.length ≤ 7))
          (((self :: chain.map lineage.name).take 8).filter (· ≠ [Path.slash])).reverse := by
  obtain ⟨-, hqueued, -⟩ := h.alloc_of_room htracing hroom now lineage group self start
  have hwalk := hchain.walk self
  have hholds := holds_traced now lineage group self start
  rw [hwalk] at hholds hqueued
  refine ⟨_, hqueued, ?_⟩
  have htells := hholds.tells hnames
  simpa only [maxDepth, Nat.lt_succ_iff] using htells

/-- Probing and binding an entry only count. -/
theorem queued_entryHooks {collector : Collector} (h : collector.Orderly) (source : ReplaySource)
    (now : UInt64) (entry : Location) :
    (source.entryHooks now entry collector).ring.queued =
      (collector.onAlloc now Location.lineage source.group (entry.getLast?.getD [])
        (some entry.dropLast)).ring.queued := by
  have halloc := (h.alloc now Location.lineage source.group (entry.getLast?.getD [])
    (some entry.dropLast)).orderly
  unfold ReplaySource.entryHooks onPositive onInstantiate
  rw [(counted halloc.tidy _ _).ring]

/-- What is traced for an entry of a tree. -/
theorem Orderly.tells_entry {collector : Collector} (h : collector.Orderly)
    (htracing : collector.tracing = true)
    (hroom : collector.ring.queued.length < collector.ring.capacity) (source : ReplaySource)
    (now : UInt64) {entry : Location} (hne : entry ≠ [])
    (hcomponents : ∀ name ∈ entry, FileName.Component name) :
    ∃ event : Record,
      (source.entryHooks now entry collector).ring.queued = collector.ring.queued ++ [event] ∧
        event.Tells (decide (entry.length ≤ 7)) (entry.drop (entry.length - 8)) := by
  have hnames : ∀ name ∈ (entry.getLast?.getD [] :: entry.above.map Location.lineage.name).take 8,
      name ≠ [] ∧ 0 ∉ name := by
    intro name hname
    rw [Location.names_above hne] at hname
    rcases List.mem_append.1 (List.mem_of_mem_take hname) with hmem | hmem
    · have hcomponent := hcomponents name (List.mem_reverse.1 hmem)
      exact ⟨hcomponent.ne_nil, hcomponent.nul⟩
    · obtain rfl := List.mem_singleton.1 hmem
      decide
  have hsome : entry.above ≠ [] := by
    rw [← List.length_pos_iff, Location.length_above hne]
    exact List.length_pos_iff.2 hne
  obtain ⟨event, hqueued, htells⟩ := h.tells htracing hroom (Location.ascent_above 7 entry) now
    source.group (entry.getLast?.getD []) hnames
  refine ⟨event, (queued_entryHooks h source now entry).trans hqueued, ?_⟩
  rw [Location.names_above hne, Location.kept_upward hcomponents, Location.length_above hne]
    at htells
  simpa only [hsome, ne_eq, not_false_eq_true, true_and] using htells

/--
A fresh collector that was used in any way, with the gate open and room in the
ring. The event of an entry of a tree tells its path: all of it and the root up
to seven names, the last eight names from eight on. In any parent graph the event
tells up to eight names, the mount roots among them left out.
-/
theorem traced_path_is_real {options : CollectorOptions} (h : options.ringRecords ≤ 2 ^ 63)
    (actions : List CollectorStep) :
    let collector := (runAll step actions (ofOptions options)).2
    collector.tracing = true → collector.ring.queued.length < collector.ring.capacity →
    (∀ (source : ReplaySource) (now : UInt64) (names : Location), names ≠ [] →
      (∀ name ∈ names, FileName.Component name) →
      Path.parts (Location.path names.dropLast) = (true, names.dropLast) ∧
      ∃ event : Record,
        (source.entryHooks now names collector).ring.queued =
            collector.ring.queued ++ [event] ∧
          event.Tells (decide (names.length ≤ 7)) (names.drop (names.length - 8))) ∧
    (∀ {ν : Type} [DecidableEq ν] (lineage : Lineage ν) (now : UInt64) (group : GroupId)
      (self : Bytes) (start : Option ν),
      (∃ chain, lineage.Ascent 7 start chain) ∧
      ∀ chain, lineage.Ascent 7 start chain →
        (∀ name ∈ (self :: chain.map lineage.name).take 8, name ≠ [] ∧ 0 ∉ name) →
        ∃ event : Record,
          (collector.onAlloc now lineage group self start).ring.queued =
              collector.ring.queued ++ [event] ∧
            event.Tells (decide (chain ≠ [] ∧ chain.length ≤ 7))
              (((self :: chain.map lineage.name).take 8).filter (· ≠ [Path.slash])).reverse) := by
  intro collector htracing hroom
  have horderly : collector.Orderly := ((orderly_ofOptions h).runAll actions).1
  refine ⟨?_, ?_⟩
  · intro source now names hne hcomponents
    refine ⟨Location.parts_path fun name hname => ?_, ?_⟩
    · exact hcomponents name (List.mem_of_mem_dropLast hname)
    · exact horderly.tells_entry htracing hroom source now hne hcomponents
  · intro ν _ lineage now group self start
    refine ⟨lineage.exists_ascent 7 start, ?_⟩
    intro chain hchain hnames
    exact horderly.tells htracing hroom hchain now group self hnames

/-- An entry nine names deep, and a file on a mount of a cyclic graph. -/
theorem traced_path_is_real_nine :
    let options : CollectorOptions := { tableCapacity := 1, ringRecords := 2, tracing := true }
    let collector := ofOptions options
    let source : ReplaySource := { root := [47], group := 7 }
    let names : Location := [[97], [98], [99], [100], [101], [102], [103], [104], [105]]
    let mounted := Lineage.ofNodes #[([47], some 1), ([109], some 0)]
    collector.tracing = true ∧ collector.ring.queued.length < collector.ring.capacity ∧
      (∀ name ∈ names, FileName.Component name) ∧
      (∃ event : Record, (source.entryHooks 5 names collector).ring.queued = [event] ∧
        event.Tells false [[98], [99], [100], [101], [102], [103], [104], [105]]) ∧
      ∃ event : Record, (collector.onAlloc 5 mounted 7 [97] (some 0)).ring.queued = [event] ∧
        event.Tells false [[109], [109], [109], [97]] := by
  intro options collector source names mounted
  have hrecords : options.ringRecords ≤ 2 ^ 63 := by
    show (2 : Nat) ≤ 2 ^ 63
    decide
  have hempty : collector.ring.queued = [] := (Ring.backlog_ofCapacity hrecords).queued_eq
  have hroom : collector.ring.queued.length < collector.ring.capacity := by
    rw [hempty]
    decide
  have hcomponents : ∀ name ∈ names, FileName.Component name := by
    intro name hname
    simp only [names, List.mem_cons, List.not_mem_nil, or_false] at hname
    rcases hname with rfl | rfl | rfl | rfl | rfl | rfl | rfl | rfl | rfl <;>
      exact ⟨by decide, by decide, by decide, by decide, by decide⟩
  have hascent : mounted.Ascent 7 (some 0) [0, 1, 0, 1, 0, 1, 0, 1] :=
    ⟨rfl, by decide, fun hlength => absurd hlength (by decide)⟩
  obtain ⟨htree, hgraph⟩ := traced_path_is_real hrecords [] rfl hroom
  obtain ⟨-, event, hqueued, htells⟩ := htree source 5 names (by decide) hcomponents
  obtain ⟨other, hother, htold⟩ := (hgraph mounted 5 7 [97] (some 0)).2 _ hascent (by decide)
  rw [runAll_nil, hempty, List.nil_append] at hqueued hother
  exact ⟨rfl, hroom, hcomponents, ⟨event, hqueued, htells⟩, other, hother, htold⟩

end Collector

end DentryWatch
