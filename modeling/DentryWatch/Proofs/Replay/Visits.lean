import DentryWatch.Proofs.Collector.Hooks
import DentryWatch.Proofs.Disk.Listings
import DentryWatch.Replay

/-!
# What a replay calls

A replay makes the calls of each entry in the order of the walk. Every entry finds
its directory among those met before it, so none is skipped.
-/

namespace DentryWatch

/-- Every directory from one down can be read. -/
def Disk.Readable (disk : Disk) (root : Location) : Prop :=
  ∀ (location : Location) inode, root <+: location → disk.find? location = some (.directory inode) →
    location.isReadable = true

namespace ReplaySource

section Calls

variable (source : ReplaySource) (now : UInt64)

def probeCalls (dir : Location) : List CollectorStep :=
  if source.probes then
    [.alloc now Location.lineage source.group missingName (some dir), .negative source.group]
  else []

/-- The calls for an entry; those of a directory end with its missing name. -/
def entryCalls (entry : Location × Node) : List CollectorStep :=
  [.alloc now Location.lineage source.group (entry.1.getLast?.getD []) (some entry.1.dropLast),
    .positive source.group] ++
  if entry.2.isDirectory then source.probeCalls now entry.1 else []

def walkCalls (root : Location) (walk : List (Location × Node)) : List CollectorStep :=
  source.probeCalls now root ++ walk.flatMap (source.entryCalls now)

def calls (root : Location) (walk : List (Location × Node)) : List CollectorStep :=
  source.walkCalls now root walk ++ [.reclaim]

/-- What a replay of a root that is a directory counts. -/
def tallied (walk : List (Location × Node)) : ReplayCounts :=
  let dirs := 1 + walk.countP fun entry => entry.2.isDirectory
  { entries := walk.length, dirs, missing := if source.probes then dirs else 0 }

theorem walkCalls_concat (root : Location) (walk : List (Location × Node))
    (entry : Location × Node) :
    source.walkCalls now root (walk ++ [entry]) =
      source.walkCalls now root walk ++ source.entryCalls now entry := by
  simp [walkCalls]

end Calls

/-! ## One entry -/

variable {source : ReplaySource} {now : UInt64}

theorem probeHooks_eq (hprobes : source.probes = true) (dir : Location) (collector : Collector) :
    source.probeHooks now dir collector =
      (runAll Collector.step (source.probeCalls now dir) collector).2 := by
  rw [probeCalls, if_pos hprobes]
  rfl

/-- What entering a directory that was met adds. -/
theorem enter_directory {state : ReplayState} {location : Location} {inode : Nat}
    (hread : location.isReadable = true) (hmet : state.dirs.lookup location = some location) :
    source.enter now state location (.directory inode) =
      { counts :=
          { state.counts with
            dirs := state.counts.dirs + 1
            missing := state.counts.missing + if source.probes then 1 else 0 }
        dirs := state.dirs
        collector := (runAll Collector.step (source.probeCalls now location) state.collector).2 } := by
  cases hprobes : source.probes with
  | false => simp [enter, Node.isDirectory, hread, hprobes, probeCalls]
  | true =>
      have hhooks : source.probeHooks now location state.collector = _ :=
        probeHooks_eq hprobes location state.collector
      simp [enter, Node.isDirectory, hread, hprobes, hmet, hhooks]

theorem enter_other {state : ReplayState} {location : Location} {node : Node}
    (h : node.isDirectory = false) : source.enter now state location node = state := by
  simp [enter, h]

/-- What a replay has done once it visited these entries below the root. -/
structure Visited (source : ReplaySource) (now : UInt64) (root : Location) (collector : Collector)
    (walk : List (Location × Node)) (state : ReplayState) : Prop where
  counts : state.counts = source.tallied walk
  root_met : state.dirs.lookup root = some root
  met : ∀ location inode, (location, .directory inode) ∈ walk →
    state.dirs.lookup location = some location
  collector : state.collector =
    (runAll Collector.step (source.walkCalls now root walk) collector).2

variable {root : Location} {collector : Collector} {walk : List (Location × Node)}

theorem visited_root {inode : Nat} (hread : root.isReadable = true) :
    source.Visited now root collector []
      (source.enter now { dirs := [(root, root)], collector } root (.directory inode)) := by
  have hmet : ([(root, root)] : List (Location × Location)).lookup root = some root := by simp
  rw [enter_directory hread hmet]
  refine ⟨?_, hmet, ?_, ?_⟩
  · simp [tallied]
  · intro location inode hmem
    cases hmem
  · simp [walkCalls]

theorem Visited.visit {state : ReplayState} (h : source.Visited now root collector walk state)
    {location : Location} {node : Node} (hne : location ≠ [])
    (hparent : location.dropLast = root ∨
      ∃ inode, (location.dropLast, .directory inode) ∈ walk)
    (hread : node.isDirectory = true → location.isReadable = true) :
    source.Visited now root collector (walk ++ [(location, node)])
      (source.visit now state (location, node)) := by
  have hlookup : state.dirs.lookup location.dropLast = some location.dropLast := by
    rcases hparent with hroot | ⟨inode, hmem⟩
    · rw [hroot]
      exact h.root_met
    · exact h.met _ _ hmem
  have hchild : location.dropLast ++ [location.getLast?.getD []] = location := by
    rw [List.getLast?_eq_some_getLast hne, Option.getD_some, List.dropLast_concat_getLast hne]
  have hhooks : source.entryHooks now location state.collector =
      (runAll Collector.step
        [.alloc now Location.lineage source.group (location.getLast?.getD [])
          (some location.dropLast), .positive source.group] state.collector).2 := rfl
  unfold ReplaySource.visit
  simp only [hlookup, hchild]
  by_cases hdir : node.isDirectory = true
  · obtain ⟨inode, rfl⟩ : ∃ inode, node = .directory inode := by
      cases node <;> simp_all [Node.isDirectory]
    have hkept : ∀ other, state.dirs.lookup other = some other →
        ((location, location) :: state.dirs).lookup other = some other := by
      intro other hother
      by_cases heq : other = location
      · simp [heq]
      · simpa [List.lookup_cons, beq_false_of_ne heq] using hother
    rw [if_pos hdir, enter_directory (hread hdir) (by simp)]
    refine ⟨?_, hkept _ h.root_met, ?_, ?_⟩
    · simp only [h.counts, tallied, List.length_append, List.countP_append, List.length_singleton,
        List.countP_singleton, Node.isDirectory]
      cases source.probes <;> simp <;> omega
    · intro other number hmem
      rcases List.mem_append.1 hmem with hold | hnew
      · exact hkept _ (h.met other number hold)
      · obtain ⟨rfl, -⟩ := Prod.mk.inj (List.mem_singleton.1 hnew)
        simp
    · rw [walkCalls_concat, entryCalls, if_pos hdir, runAll_append, runAll_append, hhooks,
        h.collector]
  · have hother := Bool.eq_false_iff.2 hdir
    rw [if_neg hdir, enter_other hother]
    refine ⟨?_, h.root_met, ?_, ?_⟩
    · simp [h.counts, tallied, hother]
    · intro other number hmem
      rcases List.mem_append.1 hmem with hold | hnew
      · exact h.met other number hold
      · obtain ⟨-, rfl⟩ := Prod.mk.inj (List.mem_singleton.1 hnew)
        cases hother
    · rw [walkCalls_concat, entryCalls, if_neg hdir, List.append_nil, runAll_append, hhooks,
        h.collector]

/-! ## A whole tree -/

/-- A walk in depth-first order skips nothing. -/
theorem Visited.foldl {disk : Disk} (hsound : disk.Sound) (hreadable : disk.Readable root)
    {rest : List (Location × Node)} {state : ReplayState}
    (horder : disk.DepthFirst root (walk ++ rest))
    (h : source.Visited now root collector walk state) :
    source.Visited now root collector (walk ++ rest) (rest.foldl (source.visit now) state) := by
  induction rest generalizing walk state with
  | nil => simpa using h
  | cons entry rest ih =>
      obtain ⟨location, node⟩ := entry
      obtain ⟨hne, hparent⟩ := horder.parent_met hsound
      obtain ⟨⟨hbelow, -⟩, hfind⟩ := (horder.mem_iff location node).1 (by simp)
      have hread : node.isDirectory = true → location.isReadable = true := by
        intro hdir
        cases node with
        | directory inode => exact hreadable location inode hbelow hfind
        | _ => cases hdir
      have hnext := h.visit hne hparent hread
      have hsplit : walk ++ (location, node) :: rest = walk ++ [(location, node)] ++ rest := by simp
      rw [hsplit] at horder ⊢
      exact ih horder hnext

theorem tree_eq_below {disk : Disk} (hsound : disk.Sound) (hdistinct : disk.Distinct)
    (hreadable : disk.Readable root) : tree disk root = disk.below root := by
  rw [tree, List.filter_eq_self]
  rintro ⟨location, node⟩ hmem
  obtain ⟨⟨hbelow, hne⟩, hfind⟩ := ((hdistinct.depthFirst_below root).mem_iff _ _).1 hmem
  obtain ⟨tail, rfl⟩ := hbelow
  obtain ⟨before, last, rfl⟩ := (List.eq_nil_or_concat' tail).resolve_left (by simpa using hne)
  rw [← List.append_assoc] at hfind
  obtain ⟨inode, hparent⟩ := hsound.parents _ _ _ hfind
  dsimp only
  rw [← List.append_assoc, List.dropLast_concat]
  exact hreadable _ inode (List.prefix_append _ _) hparent

theorem find?_of_canonical {disk : Disk} {path : Path} {node : Node}
    (h : disk.canonical path = .ok (root, node)) : disk.find? root = some node := by
  unfold Disk.canonical Disk.stat at h
  cases hlocate : disk.locate path .followed with
  | error cause => simp [hlocate, bind, Except.bind] at h
  | ok location =>
      cases hnode : disk.find? location with
      | none => simp [hlocate, hnode, bind, Except.bind] at h
      | some other =>
          cases hcheck : Path.check (Location.path location) with
          | error cause => simp [hlocate, hnode, hcheck, bind, Except.bind] at h
          | ok _ =>
              simp only [hlocate, hnode, hcheck, bind, Except.bind, Except.ok.injEq,
                Prod.mk.injEq] at h
              obtain ⟨rfl, rfl⟩ := h
              exact hnode

/-- What a replay of a tree returns, and what it calls. -/
theorem replay_eq {disk : Disk} {inode : Nat} (hsound : disk.Sound) (hdistinct : disk.Distinct)
    (hattached : source.attached = true)
    (hroot : disk.canonical source.root = .ok (root, .directory inode))
    (hreadable : disk.Readable root) (collector : Collector) :
    source.replay disk now collector =
      .ok (source.tallied (disk.below root),
        (runAll Collector.step (source.calls now root (disk.below root)) collector).2) := by
  have hread := hreadable root inode List.prefix_rfl (find?_of_canonical hroot)
  have hstart : source.Visited now root collector []
      (source.enter now { dirs := [(root, root)], collector } root (.directory inode)) :=
    visited_root hread
  have horder : disk.DepthFirst root ([] ++ disk.below root) := hdistinct.depthFirst_below root
  have hwalk := hstart.foldl hsound hreadable horder
  rw [List.nil_append] at hwalk
  rw [replay, hattached, Bool.not_true, if_neg Bool.false_ne_true, hroot]
  dsimp only
  rw [tree_eq_below hsound hdistinct hreadable, hwalk.counts, hwalk.collector, calls, runAll_append]
  rfl

end ReplaySource

end DentryWatch
