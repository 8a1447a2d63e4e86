import DentryWatch.Proofs.Cgroup.Mappings
import DentryWatch.Proofs.Report.Pages
import Mathlib

/-!
# Reports are canonical

A report shows what was counted and not how it came about. Its exposition has one
sample for each pair of labels in each family that counts per group.
-/

namespace DentryWatch.Report

open Exposition

theorem exposition_congr {left right : Report} (hgroups : left.groups = right.groups)
    (hreclaims : left.reclaims = right.reclaims) (hnode : left.node = right.node) :
    left.exposition = right.exposition := by
  simp only [exposition, families, groupFamily, hgroups, hreclaims, hnode]

/--
Any use of a collector and any scans of a resolver. The report lists the admitted
groups once each, by number, with their counters and labels. Where labels are told
apart, as they are when those of all pods have the same length, each pair of them
has one line in each family that counts per group, with the sum over the groups that
carry it, and these sums add up to the sum over all groups. So do the sums that are
shown where labels are not told apart, and the page shows nothing but its report.
Only groups in pods share labels. Another use of a collector that counts the same calls in another
order, with none refused in either, gives the same groups and, with the same counts
of the node, the same exposition.
-/
theorem report_is_canonical {options : CollectorOptions} (htable : options.tableCapacity ≤ 2 ^ 62)
    (actions : List CollectorStep) (procRoot cgroupRoot : Path) (disks : List Disk) (disk : Disk)
    (now : Instant) :
    let collector := (runAll Collector.step actions (.ofOptions options)).2
    let resolver := ({ procRoot, cgroupRoot } : Resolver).refreshAll disks
    let report := (capture collector disk procRoot now).labelWith resolver
    report.Lists collector.table resolver ∧
    (report.Separated → ∀ name counter, (name, counter) ∈ groupCounters →
      (∀ pair ∈ report.pairs, report.sum counter pair < 2 ^ 53) →
      (sampleLines name report.exposition).Perm
        (report.pairs.map fun pair => pairLine name pair (report.sum counter pair))) ∧
    (∀ name pair other value number, pairLine name pair value = pairLine name other number →
      pair = other ∧ value = number) ∧
    (∀ length, (∀ entry ∈ resolver.pods, entry.2.pod.toList.length = length) →
      report.Separated) ∧
    (∀ counter, (report.pairs.map (report.sum counter)).sum =
      (report.groups.map fun entry => (counter entry.counts).toNat).sum) ∧
    report.ShownOn report.exposition ∧
    (∀ counter sums, Sums counter report.groups sums →
      (sums.map fun sum => keySum counter report.groups (sampleKey sum.1)).sum =
        (report.groups.map fun entry => (counter entry.counts).toNat).sum) ∧
    (∀ a b, a ≠ b → resolver.labels a = resolver.labels b →
      (resolver.resolve a).isSome = true ∧ (resolver.resolve b).isSome = true) ∧
    (∀ a b, Resolver.fallback a = Resolver.fallback b → a = b) ∧
    (∀ group (pod : String), "pod-".toList <+: pod.toList → Resolver.fallback group ≠ pod) ∧
    (∀ (others : CollectorOptions) (later : List CollectorStep) (elsewhere : Disk) (root : Path)
      (moment : Instant), others.tableCapacity ≤ 2 ^ 62 →
      (actions.filterMap CollectorStep.hook?).Perm (later.filterMap CollectorStep.hook?) →
      Collector.CountsAll options actions → Collector.CountsAll others later →
      let other := (capture (runAll Collector.step later (.ofOptions others)).2 elsewhere root
        moment).labelWith resolver
      other.groups = report.groups ∧
        ((NodeState.read elsewhere root).toOption = (NodeState.read disk procRoot).toOption →
          other.exposition = report.exposition)) := by
  intro collector resolver report
  have hsound : ∀ {options : CollectorOptions} (_ : options.tableCapacity ≤ 2 ^ 62)
      (actions : List CollectorStep),
      (runAll Collector.step actions (.ofOptions options)).2.table.Sound :=
    fun h actions => (Collector.shows_runAll h actions).1.sound
  have hlists : report.Lists collector.table resolver :=
    lists_capture (hsound htable actions) resolver disk procRoot now
  have hpods : resolver.NamesPods := by
    apply Resolver.NamesPods.refreshAll
    intro entry hmem
    cases hmem
  refine ⟨hlists, ?_, fun _ _ _ _ _ => pairLine_inj, fun _ => separated_of_length hlists hpods,
    report.sum_pairs, report.shownOn_exposition, fun _ _ => Sums.conserve, ?_,
    fun _ _ => Resolver.fallback_inj, fun group _ => Resolver.fallback_ne_podLabel group, ?_⟩
  · intro hseparated name counter hfamily hsmall
    exact (report.sampleLines_exposition hfamily).trans (hseparated.pairLines hfamily hsmall)
  · intro a b hne hlabels
    exact ⟨hpods.resolve_isSome hne hlabels, hpods.resolve_isSome hne.symm hlabels.symm⟩
  · intro others later elsewhere root moment hothers hperm hall hlater other
    have hother : other.Lists (runAll Collector.step later (.ofOptions others)).2.table resolver :=
      lists_capture (hsound hothers later) resolver elsewhere root moment
    have hgroups : other.groups = report.groups :=
      hother.groups_eq hlists fun group =>
        (Collector.get?_of_perm htable hothers hperm hall hlater group).symm
    have hreclaims : other.reclaims = report.reclaims :=
      (Collector.reclaims_of_perm hperm).symm
    exact ⟨hgroups, exposition_congr hgroups hreclaims⟩

/-- Processes 7 and 9 are in two groups of one container. -/
def oneContainer : Disk where
  nodes :=
    let process (name : String) := [Path.ofText name]
    let container := ["kubepods", "poda", "cri-containerd-b"].map Path.ofText
    [([], .directory 2), (process "7", .directory 5),
      (process "7" ++ [Path.ofText "cgroup"], .file 6), (process "9", .directory 7),
      (process "9" ++ [Path.ofText "cgroup"], .file 8), (container.take 1, .directory 9),
      (container.take 2, .directory 10), (container, .directory 11),
      (container ++ [Path.ofText "x"], .directory 12),
      (container ++ [Path.ofText "y"], .directory 13)]
  contents := [(6, Path.ofText "0::/kubepods/poda/cri-containerd-b/x\n"),
    (8, Path.ofText "0::/kubepods/poda/cri-containerd-b/y\n")]

/-- Processes and control groups are both found below the root. -/
def atRoot : Resolver where
  procRoot := Path.ofText "/"
  cgroupRoot := Path.ofText "/"

theorem refreshAll_oneContainer : atRoot.refreshAll [oneContainer] =
    { atRoot with pods := [(13, ⟨"pod-a", "b", 13⟩), (12, ⟨"pod-a", "b", 12⟩)] } := by
  have hlist : oneContainer.list (Path.ofText "/") = .ok [(Path.ofText "7", .directory 5),
      (Path.ofText "9", .directory 7), (Path.ofText "kubepods", .directory 9)] := by
    cbv
  have hprocesses : (["7", "9", "kubepods"].map Path.ofText).filter Resolver.isProcess =
      [Path.ofText "7", Path.ofText "9"] := by
    decide +kernel
  have hseven : atRoot.Shows oneContainer (Path.ofText "7")
      "/kubepods/poda/cri-containerd-b/x".toList ⟨"pod-a", "b", 12⟩ :=
    ⟨Resolver.isProcess_iff.1 (by decide +kernel),
      ⟨"0::/kubepods/poda/cri-containerd-b/x\n", by cbv, by decide +kernel⟩,
      ⟨"pod-a", "b", 0⟩, 12, by decide +kernel, by cbv, rfl⟩
  have hnine : atRoot.Shows oneContainer (Path.ofText "9")
      "/kubepods/poda/cri-containerd-b/y".toList ⟨"pod-a", "b", 13⟩ :=
    ⟨Resolver.isProcess_iff.1 (by decide +kernel),
      ⟨"0::/kubepods/poda/cri-containerd-b/y\n", by cbv, by decide +kernel⟩,
      ⟨"pod-a", "b", 0⟩, 13, by decide +kernel, by cbv, rfl⟩
  have hfirst := (Resolver.podOfProcess?_eq_some_iff.2 ⟨_, hseven⟩).2
  have hsecond := (Resolver.podOfProcess?_eq_some_iff.2 ⟨_, hnine⟩).2
  have hscan := congrArg (List.filterMap (atRoot.podOfProcess? oneContainer)) hprocesses
  rw [List.filterMap_cons_some hfirst, List.filterMap_cons_some hsecond] at hscan
  rw [Resolver.refreshAll, List.foldl_cons, List.foldl_nil, Resolver.refresh_of_ok hlist]
  refine congrArg (Resolver.mk _ _) ((congrArg (List.foldl Resolver.insert []) hscan).trans ?_)
  decide

/-- Two groups of one container are shown as one, and a group in no pod beside them. -/
theorem report_is_canonical_two :
    let options : CollectorOptions := { tableCapacity := 3, ringRecords := 2 }
    let actions : List CollectorStep :=
      [.positive 20, .negative 12, .negative 13, .negative 13, .reclaim]
    let later : List CollectorStep :=
      [.negative 13, .reclaim, .negative 12, .positive 20, .negative 13]
    let resolver := atRoot.refreshAll [oneContainer]
    let reportOf (actions : List CollectorStep) (now : Instant) : Report :=
      (capture (runAll Collector.step actions (.ofOptions options)).2 oneContainer
        (Path.ofText "/") now).labelWith resolver
    options.tableCapacity ≤ 2 ^ 62 ∧
      Collector.CountsAll options actions ∧ Collector.CountsAll options later ∧
      (reportOf later ⟨5, 0⟩).exposition = (reportOf actions ⟨0, 0⟩).exposition ∧
      (sampleLines "dentry_negative_total" (reportOf actions ⟨0, 0⟩).exposition).Perm
        [pairLine "dentry_negative_total" ("pod-a", "b") 3,
          pairLine "dentry_negative_total" ("cgroup-20", "") 0] := by
  intro options actions later resolver reportOf
  have htable : options.tableCapacity ≤ 2 ^ 62 := by decide
  have hall : Collector.CountsAll options actions := by
    rw [Collector.CountsAll]
    decide +kernel
  have hlater : Collector.CountsAll options later := by
    rw [Collector.CountsAll]
    decide +kernel
  have hperm : (actions.filterMap CollectorStep.hook?).Perm
      (later.filterMap CollectorStep.hook?) := by decide
  have hgroups : (reportOf actions ⟨0, 0⟩).groups =
      [{ group := 12, counts := { negative := 1 }, pod := "pod-a", container := "b" },
        { group := 13, counts := { negative := 2 }, pod := "pod-a", container := "b" },
        { group := 20, counts := { positive := 1 }, pod := "cgroup-20", container := "" }] := by
    dsimp only [reportOf, resolver]
    rw [refreshAll_oneContainer]
    cbv
  obtain ⟨-, hlines, -, hseparated, -, -, -, -, -, -, hsame⟩ :=
    report_is_canonical htable actions (Path.ofText "/") (Path.ofText "/") [oneContainer]
      oneContainer ⟨0, 0⟩
  have hpairs : (reportOf actions ⟨0, 0⟩).pairs = [("pod-a", "b"), ("cgroup-20", "")] := by
    rw [pairs, hgroups]
    decide
  have hpod : (reportOf actions ⟨0, 0⟩).sum Counts.negative ("pod-a", "b") = 3 := by
    rw [sum, hgroups]
    decide
  have hnone : (reportOf actions ⟨0, 0⟩).sum Counts.negative ("cgroup-20", "") = 0 := by
    rw [sum, hgroups]
    decide
  have hexposition := (hsame options later oneContainer (Path.ofText "/") ⟨5, 0⟩ htable hperm
    hall hlater).2 rfl
  refine ⟨htable, hall, hlater, hexposition, ?_⟩
  have hsmall : ∀ pair ∈ (reportOf actions ⟨0, 0⟩).pairs,
      (reportOf actions ⟨0, 0⟩).sum Counts.negative pair < 2 ^ 53 := by
    rw [hpairs]
    simp [hpod, hnone]
  have hlength : ∀ entry ∈ resolver.pods, entry.2.pod.toList.length = 5 := by
    rw [show resolver = _ from refreshAll_oneContainer]
    decide
  have hnegative : (sampleLines "dentry_negative_total" (reportOf actions ⟨0, 0⟩).exposition).Perm
      ((reportOf actions ⟨0, 0⟩).pairs.map fun pair => pairLine "dentry_negative_total" pair
        ((reportOf actions ⟨0, 0⟩).sum Counts.negative pair)) :=
    hlines (hseparated 5 hlength) _ _ (.tail _ (.tail _ (.head _))) hsmall
  rwa [hpairs, List.map_cons, List.map_cons, List.map_nil, hpod, hnone] at hnegative

end DentryWatch.Report
