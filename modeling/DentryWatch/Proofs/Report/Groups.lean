import Mathlib.Data.List.Sort
import DentryWatch.Proofs.Collector.Hooks
import DentryWatch.Report.Basic

/-!
# The groups of a report

A report lists the groups of a table once each, in the order of their numbers, with
the labels of a resolver. The list shows neither the order in which the groups came
nor their place in the table. Only groups in pods can have the same labels.
-/

namespace DentryWatch

/-! ## Labels -/

namespace Resolver

theorem toList_fallback (group : GroupId) :
    (fallback group).toList = "cgroup-".toList ++ Text.decimal group.toNat := by
  have htext : fallback group = "cgroup-" ++ Nat.repr group.toNat := rfl
  rw [htext, String.toList_append, Nat.toList_repr]
  rfl

theorem fallback_inj {a b : GroupId} (h : fallback a = fallback b) : a = b := by
  have hchars := congrArg String.toList h
  rw [toList_fallback, toList_fallback, List.append_cancel_left_eq] at hchars
  exact UInt64.toNat_inj.1 (Text.decimal_inj hchars)

def NamesPods (resolver : Resolver) : Prop :=
  ∀ entry ∈ resolver.pods, "pod-".toList <+: entry.2.pod.toList

theorem fallback_ne_podLabel (group : GroupId) {pod : String} (h : "pod-".toList <+: pod.toList) :
    fallback group ≠ pod := by
  rintro rfl
  rw [toList_fallback] at h
  obtain ⟨tail, htail⟩ := h
  simp at htail

theorem podLabel_of_path {path : List Char} {info : PodInfo}
    (h : Cgroup.podOfPath? path = some info) : "pod-".toList <+: info.pod.toList := by
  unfold Cgroup.podOfPath? at h
  split at h
  · cases h
  · obtain ⟨uid, -, rfl⟩ := Option.map_eq_some_iff.1 h
    simp

theorem NamesPods.refresh {resolver : Resolver} (h : resolver.NamesPods) (disk : Disk) :
    (resolver.refresh disk).2.NamesPods := by
  have hfound : ∀ name info, resolver.podOfProcess? disk name = some info →
      "pod-".toList <+: info.pod.toList := by
    intro name info hinfo
    unfold podOfProcess? at hinfo
    obtain ⟨contents, -, hinfo⟩ := Option.bind_eq_some_iff.1 hinfo
    obtain ⟨path, -, hinfo⟩ := Option.bind_eq_some_iff.1 hinfo
    obtain ⟨pod, hpod, hinfo⟩ := Option.bind_eq_some_iff.1 hinfo
    obtain ⟨group, -, hinfo⟩ := Option.bind_eq_some_iff.1 hinfo
    obtain rfl := Option.some.inj hinfo
    have hprefix := podLabel_of_path hpod
    exact hprefix
  have hkept : ∀ (infos : List PodInfo) (pods : List (GroupId × PodInfo)),
      (∀ info ∈ infos, "pod-".toList <+: info.pod.toList) →
      (∀ entry ∈ pods, "pod-".toList <+: entry.2.pod.toList) →
      ∀ entry ∈ infos.foldl insert pods, "pod-".toList <+: entry.2.pod.toList := by
    intro infos
    induction infos with
    | nil => exact fun pods _ hpods => hpods
    | cons info rest ih =>
        intro pods hinfos hpods
        apply ih _ fun other hmem => hinfos other (List.mem_cons_of_mem _ hmem)
        intro entry hmem
        rcases List.mem_cons.1 hmem with rfl | hold
        · exact hinfos info List.mem_cons_self
        · exact hpods entry (List.mem_of_mem_filter hold)
  unfold Resolver.refresh
  cases disk.list resolver.procRoot with
  | error code => exact h
  | ok entries =>
      apply hkept
      · intro info hmem
        obtain ⟨name, -, hname⟩ := List.mem_filterMap.1 hmem
        exact hfound name info hname
      · intro entry hmem
        cases hmem

def refreshAll (resolver : Resolver) (disks : List Disk) : Resolver :=
  disks.foldl (fun resolver disk => (resolver.refresh disk).2) resolver

theorem NamesPods.refreshAll {resolver : Resolver} (h : resolver.NamesPods) (disks : List Disk) :
    (resolver.refreshAll disks).NamesPods := by
  induction disks generalizing resolver with
  | nil => exact h
  | cons disk rest ih => exact ih (h.refresh disk)

/-- Only groups in pods share their labels with another. -/
theorem NamesPods.resolve_isSome {resolver : Resolver} (h : resolver.NamesPods) {a b : GroupId}
    (hne : a ≠ b) (hlabels : resolver.labels a = resolver.labels b) :
    (resolver.resolve a).isSome = true := by
  have hpod : ∀ group info, resolver.resolve group = some info →
      "pod-".toList <+: info.pod.toList := by
    intro group info hresolve
    obtain ⟨before, after, hsplit, -⟩ := List.lookup_eq_some_iff.1 hresolve
    exact h (group, info) (by rw [hsplit]; simp)
  cases ha : resolver.resolve a with
  | some info => rfl
  | none =>
      have hfirst := congrArg Prod.fst hlabels
      unfold labels at hfirst
      rw [ha] at hfirst
      cases hb : resolver.resolve b with
      | none =>
          rw [hb] at hfirst
          exact absurd (fallback_inj hfirst) hne
      | some info =>
          rw [hb] at hfirst
          exact absurd hfirst (fallback_ne_podLabel a (hpod b info hb))

end Resolver

/-! ## Listings -/

def GroupReport.labels (entry : GroupReport) : String × String := (entry.pod, entry.container)

/-- The report has every group of the table once, by number, with its counters and labels. -/
structure Report.Lists (report : Report) (table : GroupTable) (resolver : Resolver) : Prop where
  ordered : report.groups.Pairwise fun a b => a.group < b.group
  mem_iff : ∀ entry, entry ∈ report.groups ↔
    table.get? entry.group = some entry.counts ∧ entry.labels = resolver.labels entry.group

namespace Report

theorem lists_capture {collector : Collector} (h : collector.table.Sound) (resolver : Resolver)
    (disk : Disk) (procRoot : Path) (now : Instant) :
    ((capture collector disk procRoot now).labelWith resolver).Lists collector.table resolver := by
  have hperm : (capture collector disk procRoot now).groups.Perm
      (collector.groups.map fun entry =>
        { group := entry.1, counts := entry.2, pod := Resolver.fallback entry.1, container := "" }) :=
    List.mergeSort_perm _ _
  have hsorted : (capture collector disk procRoot now).groups.Pairwise
      fun a b => decide (a.group ≤ b.group) = true :=
    List.pairwise_mergeSort
      (fun a b c hab hbc => by
        rw [decide_eq_true_eq] at hab hbc ⊢
        exact UInt64.le_trans hab hbc)
      (fun a b => by simpa using UInt64.le_total a.group b.group) _
  have hnodup : ((capture collector disk procRoot now).groups.map GroupReport.group).Nodup := by
    refine (hperm.map GroupReport.group).nodup_iff.2 ?_
    rw [List.map_map]
    exact h.nodup_groups
  have hdistinct := List.pairwise_map.1 hnodup
  constructor
  · refine List.pairwise_map.2 ((hsorted.and hdistinct).imp fun {a b} hboth => ?_)
    exact UInt64.lt_of_le_of_ne (of_decide_eq_true hboth.1) hboth.2
  · intro entry
    have hmem : entry ∈ ((capture collector disk procRoot now).labelWith resolver).groups ↔
        ∃ group counts, (group, counts) ∈ collector.table.toList ∧
          { group, counts, pod := (resolver.labels group).1,
            container := (resolver.labels group).2 : GroupReport } = entry := by
      show entry ∈ ((capture collector disk procRoot now).groups.map _) ↔ _
      rw [(hperm.map _).mem_iff, List.map_map, List.mem_map, Prod.exists]
      rfl
    rw [hmem]
    constructor
    · rintro ⟨group, counts, hlisted, rfl⟩
      exact ⟨h.get?_eq_some_iff.2 hlisted, rfl⟩
    · rintro ⟨hget, hlabels⟩
      refine ⟨entry.group, entry.counts, h.get?_eq_some_iff.1 hget, ?_⟩
      rw [← hlabels]
      rfl

/-- The list is settled by what the table holds of each group. -/
theorem Lists.groups_eq {left right : Report} {table other : GroupTable} {resolver : Resolver}
    (hleft : left.Lists table resolver) (hright : right.Lists other resolver)
    (hsame : ∀ group, table.get? group = other.get? group) : left.groups = right.groups := by
  have hnodup : ∀ {report : Report} {table : GroupTable}, report.Lists table resolver →
      report.groups.Nodup := by
    intro report table h
    refine List.Pairwise.imp ?_ h.ordered
    rintro a _ hless rfl
    exact UInt64.lt_irrefl _ hless
  have hperm : left.groups.Perm right.groups := by
    refine (List.perm_ext_iff_of_nodup (hnodup hleft) (hnodup hright)).2 fun entry => ?_
    rw [hleft.mem_iff, hright.mem_iff, hsame]
  refine List.Perm.eq_of_pairwise ?_ hleft.ordered hright.ordered hperm
  intro a b _ _ hab hba
  exact absurd (UInt64.lt_trans hab hba) (UInt64.lt_irrefl _)

end Report

/-! ## Histories -/

namespace Collector

/-- No call of the run was refused by the table. -/
def CountsAll (options : CollectorOptions) (actions : List CollectorStep) : Prop :=
  ((GroupTable.ofCapacity options.tableCapacity).tallyAll (tableCalls actions)).1 =
    tableCalls actions

/-- What is counted does not depend on the order of the calls, as long as all are counted. -/
theorem get?_of_perm {options others : CollectorOptions} (h : options.tableCapacity ≤ 2 ^ 62)
    (hother : others.tableCapacity ≤ 2 ^ 62) {actions later : List CollectorStep}
    (hperm : (actions.filterMap CollectorStep.hook?).Perm (later.filterMap CollectorStep.hook?))
    (hall : CountsAll options actions) (hlater : CountsAll others later) (group : GroupId) :
    (runAll step actions (ofOptions options)).2.table.get? group =
      (runAll step later (ofOptions others)).2.table.get? group := by
  have hcalls : (tableCalls actions).Perm (tableCalls later) := hperm.filterMap _
  have hshows := (shows_runAll h actions).1
  have hshown := (shows_runAll hother later).1
  rw [hall] at hshows
  rw [hlater] at hshown
  have hgroups : GroupTable.groupsOf (tableCalls actions) =
      GroupTable.groupsOf (tableCalls later) :=
    List.toFinset_eq_of_perm _ _ (hcalls.map Prod.fst)
  have hcounts : GroupTable.countsOf (tableCalls actions) group =
      GroupTable.countsOf (tableCalls later) group := by
    simp only [GroupTable.countsOf, hcalls.count_eq]
  rw [hshows.get?_eq, hshown.get?_eq, hgroups, hcounts]

theorem reclaims_of_perm {options others : CollectorOptions} {actions later : List CollectorStep}
    (hperm : (actions.filterMap CollectorStep.hook?).Perm (later.filterMap CollectorStep.hook?)) :
    (runAll step actions (ofOptions options)).2.reclaims =
      (runAll step later (ofOptions others)).2.reclaims := by
  have hcount : ∀ (options : CollectorOptions) (actions : List CollectorStep),
      (runAll step actions (ofOptions options)).2.reclaims =
        0 + UInt64.ofNat ((actions.filterMap CollectorStep.hook?).count .reclaim) := by
    intro options actions
    refine (congrArg Counters.reclaims (counters_runAll actions (ofOptions options))).trans ?_
    exact Counters.reclaims_foldl_take _ _
  rw [hcount, hcount, hperm.count_eq]

end Collector

end DentryWatch
