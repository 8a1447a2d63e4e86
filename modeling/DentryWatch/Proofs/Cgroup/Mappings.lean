import DentryWatch.Proofs.Cgroup.Confinement
import DentryWatch.Proofs.Disk.Listings
import Mathlib

/-!
# What a scan maps

A scan maps a group to a pod exactly if some process shows that pod in that group.
A path determines both the group and the pod, so while no two listed paths share a
group, neither the order of the processes nor those without a pod make a difference.
-/

namespace DentryWatch.Resolver

variable {disk : Disk} {resolver : Resolver} {name : FileName} {path : List Char}
  {pod other : PodInfo} {group : GroupId} {found : List PodInfo} {names others : List FileName}

/-! ## Processes that show a pod -/

/-- An entry is a process whose listed path is that of a pod, and stands below the root. -/
structure Shows (resolver : Resolver) (disk : Disk) (name : FileName) (path : List Char)
    (pod : PodInfo) : Prop where
  /-- The name is the number of a process. -/
  process : ∃ text pid, Utf8.decode? name = some text ∧
    Text.readWord32? text.toList = some pid ∧ pid ≠ 0
  /-- The path is the one that the process lists. -/
  listed : ∃ contents, disk.readText ((resolver.procRoot.join name).child "cgroup") = .ok contents ∧
    Cgroup.unifiedPath? contents.toList = some path
  /-- The pod is that of the path, in the group that the path has on the disk. -/
  placed : ∃ parsed inode, Cgroup.podOfPath? path = some parsed ∧
    disk.inodeOf (Cgroup.place resolver.cgroupRoot path) = .ok inode ∧
    pod = { parsed with group := UInt64.ofNat inode }

theorem isProcess_iff : isProcess name = true ↔ ∃ text pid, Utf8.decode? name = some text ∧
    Text.readWord32? text.toList = some pid ∧ pid ≠ 0 := by
  unfold isProcess
  cases hdecode : Utf8.decode? name with
  | none => simp
  | some text => cases hread : Text.readWord32? text.toList <;> simp [hread]

theorem inode_eq_ok_iff {root : Path} : Cgroup.inode disk root path = .ok group ↔
    ∃ inode, disk.inodeOf (Cgroup.place root path) = .ok inode ∧ UInt64.ofNat inode = group := by
  rw [Cgroup.inode_eq]
  cases disk.inodeOf (Cgroup.place root path) <;> simp

theorem podOfProcess?_eq_some_iff :
    isProcess name = true ∧ resolver.podOfProcess? disk name = some pod ↔
      ∃ path, resolver.Shows disk name path pod := by
  have htoOption : ∀ {ε α : Type} {result : Except ε α} {value : α},
      result.toOption = some value ↔ result = .ok value := by
    intro ε α result value
    cases result <;> simp [Except.toOption]
  rw [isProcess_iff]
  unfold podOfProcess?
  constructor
  · rintro ⟨hprocess, hpod⟩
    obtain ⟨contents, hread, hpod⟩ := Option.bind_eq_some_iff.1 hpod
    obtain ⟨path, hpath, hpod⟩ := Option.bind_eq_some_iff.1 hpod
    obtain ⟨parsed, hparsed, hpod⟩ := Option.bind_eq_some_iff.1 hpod
    obtain ⟨group, hgroup, hpod⟩ := Option.bind_eq_some_iff.1 hpod
    obtain ⟨inode, hinode, rfl⟩ := inode_eq_ok_iff.1 (htoOption.1 hgroup)
    exact ⟨path, hprocess, ⟨contents, htoOption.1 hread, hpath⟩, parsed, inode, hparsed, hinode,
      (Option.some.inj hpod).symm⟩
  · rintro ⟨path, hprocess, ⟨contents, hread, hpath⟩, parsed, inode, hparsed, hinode, rfl⟩
    refine ⟨hprocess, ?_⟩
    have hgroup := inode_eq_ok_iff.2 ⟨inode, hinode, rfl⟩
    simp [hread, hpath, hparsed, hgroup, Except.toOption]

/-- A path has one pod in one group. -/
theorem Shows.unique {name' : FileName} (h : resolver.Shows disk name path pod)
    (hother : resolver.Shows disk name' path other) : pod = other := by
  obtain ⟨parsed, inode, hparsed, hinode, rfl⟩ := h.placed
  obtain ⟨parsed', inode', hparsed', hinode', rfl⟩ := hother.placed
  cases hparsed.symm.trans hparsed'
  cases hinode.symm.trans hinode'
  rfl

/-- What a process lists is read off its file. -/
theorem Shows.path_eq (h : resolver.Shows disk name path pod) {contents : String}
    {listed : List Char}
    (hread : disk.readText ((resolver.procRoot.join name).child "cgroup") = .ok contents)
    (hlisted : Cgroup.unifiedPath? contents.toList = some listed) : path = listed := by
  obtain ⟨contents', hread', hpath⟩ := h.listed
  cases hread'.symm.trans hread
  exact Option.some.inj (hpath.symm.trans hlisted)

/-! ## Insertions -/

theorem mem_insert {pods : List (GroupId × PodInfo)} :
    (group, pod) ∈ insert pods other ↔
      group = other.group ∧ pod = other ∨ group ≠ other.group ∧ (group, pod) ∈ pods := by
  simp only [insert, List.mem_cons, Prod.mk.injEq, List.mem_filter, bne_iff_ne]
  tauto

theorem nodup_foldl_insert (found : List PodInfo) :
    ((found.foldl insert []).map Prod.fst).Nodup := by
  induction found using List.reverseRecOn with
  | nil => exact List.nodup_nil
  | append_singleton found pod ih =>
      rw [List.foldl_append, List.foldl_cons, List.foldl_nil, insert, List.map_cons,
        List.nodup_cons]
      refine ⟨fun hmem => ?_, (List.filter_sublist.map Prod.fst).nodup ih⟩
      obtain ⟨entry, hentry, hgroup⟩ := List.mem_map.1 hmem
      have hne := (List.mem_filter.1 hentry).2
      rw [hgroup, bne_self_eq_false] at hne
      cases hne

/-- Where pods of one group are one pod, no insertion replaces another. -/
theorem mem_foldl_insert (h : ∀ a ∈ found, ∀ b ∈ found, a.group = b.group → a = b) :
    (group, pod) ∈ found.foldl insert [] ↔ pod ∈ found ∧ pod.group = group := by
  induction found using List.reverseRecOn generalizing group pod with
  | nil => simp
  | append_singleton found last ih =>
      have hlast : last ∈ found ++ [last] := List.mem_append_right _ List.mem_cons_self
      have hfound := fun a ha b hb =>
        h a (List.mem_append_left [last] ha) b (List.mem_append_left [last] hb)
      rw [List.foldl_append, List.foldl_cons, List.foldl_nil, mem_insert, ih hfound,
        List.mem_append, List.mem_singleton]
      constructor
      · rintro (⟨rfl, rfl⟩ | ⟨-, hmem, hgroup⟩)
        · exact ⟨.inr rfl, rfl⟩
        · exact ⟨.inl hmem, hgroup⟩
      · rintro ⟨hmem | rfl, rfl⟩
        · by_cases hsame : pod.group = last.group
          · exact .inl ⟨hsame, h pod (List.mem_append_left _ hmem) last hlast hsame⟩
          · exact .inr ⟨hsame, hmem, rfl⟩
        · exact .inl ⟨rfl, rfl⟩

/-! ## Scans -/

/-- The map that a scan makes of the processes of a list, in its order. -/
def scan (resolver : Resolver) (disk : Disk) (names : List FileName) : List (GroupId × PodInfo) :=
  ((names.filter isProcess).filterMap (resolver.podOfProcess? disk)).foldl insert []

theorem refresh_of_ok {entries : List (FileName × Node)}
    (h : disk.list resolver.procRoot = .ok entries) :
    resolver.refresh disk = (.ok (resolver.scan disk (entries.map Prod.fst)).length,
      { resolver with pods := resolver.scan disk (entries.map Prod.fst) }) := by
  unfold refresh
  rw [h]
  rfl

theorem refresh_of_error {cause : SystemError} (h : disk.list resolver.procRoot = .error cause) :
    resolver.refresh disk = (.error (.system cause), resolver) := by
  unfold refresh
  rw [h]

/-- No two different paths that the processes of a list show are in one group. -/
def Unshared (resolver : Resolver) (disk : Disk) (names : List FileName) : Prop :=
  ∀ name ∈ names, ∀ name' ∈ names, ∀ path path' pod pod',
    resolver.Shows disk name path pod → resolver.Shows disk name' path' pod' →
    pod.group = pod'.group → path = path'

theorem mem_shown : pod ∈ (names.filter isProcess).filterMap (resolver.podOfProcess? disk) ↔
    ∃ name ∈ names, ∃ path, resolver.Shows disk name path pod := by
  rw [List.mem_filterMap]
  constructor
  · rintro ⟨name, hmem, hpod⟩
    obtain ⟨hname, hprocess⟩ := List.mem_filter.1 hmem
    exact ⟨name, hname, podOfProcess?_eq_some_iff.1 ⟨hprocess, hpod⟩⟩
  · rintro ⟨name, hname, hshows⟩
    obtain ⟨hprocess, hpod⟩ := podOfProcess?_eq_some_iff.2 hshows
    exact ⟨name, List.mem_filter.2 ⟨hname, hprocess⟩, hpod⟩

theorem nodup_scan (resolver : Resolver) (disk : Disk) (names : List FileName) :
    ((resolver.scan disk names).map Prod.fst).Nodup := nodup_foldl_insert _

theorem mem_scan (h : resolver.Unshared disk names) :
    (group, pod) ∈ resolver.scan disk names ↔
      (∃ name ∈ names, ∃ path, resolver.Shows disk name path pod) ∧ pod.group = group := by
  rw [scan, mem_foldl_insert, mem_shown]
  intro a ha b hb hgroup
  obtain ⟨name, hname, path, hshows⟩ := mem_shown.1 ha
  obtain ⟨name', hname', path', hshows'⟩ := mem_shown.1 hb
  obtain rfl := h name hname name' hname' path path' a b hshows hshows' hgroup
  exact hshows.unique hshows'

/-- Processes that show the same pods are scanned to the same map. -/
theorem scan_perm (h : resolver.Unshared disk names)
    (hsame : ∀ name path pod, resolver.Shows disk name path pod → (name ∈ others ↔ name ∈ names)) :
    (resolver.scan disk others).Perm (resolver.scan disk names) := by
  have hothers : resolver.Unshared disk others := by
    intro name hname name' hname' path path' pod pod' hshows hshows' hgroup
    exact h name ((hsame _ _ _ hshows).1 hname) name' ((hsame _ _ _ hshows').1 hname') path path'
      pod pod' hshows hshows' hgroup
  rw [List.perm_ext_iff_of_nodup (List.Nodup.of_map _ (nodup_scan resolver disk others))
    (List.Nodup.of_map _ (nodup_scan resolver disk names))]
  rintro ⟨group, pod⟩
  rw [mem_scan hothers, mem_scan h]
  refine and_congr_left fun _ => exists_congr fun name => ?_
  constructor
  · rintro ⟨hname, path, hshows⟩
    exact ⟨(hsame _ _ _ hshows).1 hname, path, hshows⟩
  · rintro ⟨hname, path, hshows⟩
    exact ⟨(hsame _ _ _ hshows).2 hname, path, hshows⟩

/-! ## The headline -/

/-- What a refresh maps, given the names that the process directory lists. -/
structure Refreshed (resolver : Resolver) (disk : Disk) (names : List FileName)
    (fresh : Resolver) : Prop where
  procRoot : fresh.procRoot = resolver.procRoot
  cgroupRoot : fresh.cgroupRoot = resolver.cgroupRoot
  /-- Each group is mapped once. -/
  nodup : (fresh.pods.map Prod.fst).Nodup
  /-- A group is mapped to a pod exactly if a process shows the pod in the group. -/
  resolve_iff : ∀ group pod, fresh.resolve group = some pod ↔
    (∃ name ∈ names, ∃ path, resolver.Shows disk name path pod) ∧ pod.group = group
  mem_iff : ∀ group pod, (group, pod) ∈ fresh.pods ↔ fresh.resolve group = some pod
  /-- The map is the same whatever the order of the names. -/
  order : ∀ others, others.Perm names → (resolver.scan disk others).Perm fresh.pods
  /-- The map is the same with any other entries that show no pod, or without them. -/
  others : ∀ others, (∀ name path pod, resolver.Shows disk name path pod →
    (name ∈ others ↔ name ∈ names)) → (resolver.scan disk others).Perm fresh.pods

/--
If the processes can be listed, and no two paths that they list are in one group, a
refresh maps exactly the pods that they show, each in its group, whatever the order of the
processes and whatever was mapped before, and answers how many groups are mapped. If they
cannot be listed, it fails and leaves the map as it was.
-/
theorem refresh_maps_shown (resolver : Resolver) (disk : Disk) :
    (∀ entries, disk.list resolver.procRoot = .ok entries →
      resolver.Unshared disk (entries.map Prod.fst) →
      ∃ fresh, resolver.Refreshed disk (entries.map Prod.fst) fresh ∧
        ∀ pods, { resolver with pods }.refresh disk = (.ok fresh.pods.length, fresh)) ∧
      ∀ cause, disk.list resolver.procRoot = .error cause →
        resolver.refresh disk = (.error (.system cause), resolver) := by
  refine ⟨fun entries hlist hunshared => ?_, fun cause hlist => refresh_of_error hlist⟩
  have hnodup := nodup_scan resolver disk (entries.map Prod.fst)
  have hmem : ∀ group pod, (group, pod) ∈ resolver.scan disk (entries.map Prod.fst) ↔
      (resolver.scan disk (entries.map Prod.fst)).lookup group = some pod :=
    fun group pod => (Disk.lookup_eq_some_iff hnodup group pod).symm
  refine ⟨{ resolver with pods := resolver.scan disk (entries.map Prod.fst) },
    ⟨rfl, rfl, hnodup, fun group pod => ?_, hmem, fun others hperm => ?_,
      fun others hsame => scan_perm hunshared hsame⟩,
    fun pods => refresh_of_ok hlist⟩
  · exact (hmem group pod).symm.trans (mem_scan hunshared)
  · exact scan_perm hunshared fun name path pod _ => hperm.mem_iff

/-! ## Two processes of one pod -/

/-- Processes 7 and 9 are in one pod, 12 is in none, and `self` is no process. -/
def onePod : Disk where
  nodes :=
    let top (name : String) := [Path.ofText name]
    let process (name : String) := [Path.ofText "p", Path.ofText name]
    [([], .directory 2), (top "p", .directory 3), (top "c", .directory 4),
      (process "7", .directory 5), (process "7" ++ top "cgroup", .file 6),
      (process "9", .directory 7), (process "9" ++ top "cgroup", .file 8),
      (process "12", .directory 9), (process "12" ++ top "cgroup", .file 10),
      (process "self", .directory 11),
      ([Path.ofText "c", Path.ofText "kubepods"], .directory 12),
      ([Path.ofText "c", Path.ofText "kubepods", Path.ofText "poda"], .directory 13)]
  contents := [(6, Path.ofText "0::/kubepods/poda\n"), (8, Path.ofText "0::/../kubepods/poda\n"),
    (10, Path.ofText "0::/user.slice\n")]

theorem refresh_maps_shown_two :
    let resolver : Resolver := { procRoot := Path.ofText "/p", cgroupRoot := Path.ofText "/c" }
    let names : List FileName := ["12", "7", "9", "self"].map Path.ofText
    ∃ entries, onePod.list resolver.procRoot = .ok entries ∧ entries.map Prod.fst = names ∧
      resolver.Unshared onePod names ∧
      ∃ fresh, resolver.Refreshed onePod names fresh ∧
        resolver.refresh onePod = (.ok fresh.pods.length, fresh) ∧
        fresh.resolve 13 = some ⟨"pod-a", "", 13⟩ ∧
        (resolver.scan onePod names.reverse).Perm fresh.pods := by
  intro resolver names
  have hlist : onePod.list resolver.procRoot = .ok [(Path.ofText "12", .directory 9),
      (Path.ofText "7", .directory 5), (Path.ofText "9", .directory 7),
      (Path.ofText "self", .directory 11)] := by
    cbv
  have hread7 : onePod.readText ((resolver.procRoot.join (Path.ofText "7")).child "cgroup") =
      .ok "0::/kubepods/poda\n" := by
    cbv
  have hread9 : onePod.readText ((resolver.procRoot.join (Path.ofText "9")).child "cgroup") =
      .ok "0::/../kubepods/poda\n" := by
    cbv
  have hread12 : onePod.readText ((resolver.procRoot.join (Path.ofText "12")).child "cgroup") =
      .ok "0::/user.slice\n" := by
    cbv
  have hlisted7 : Cgroup.unifiedPath? "0::/kubepods/poda\n".toList =
      some "/kubepods/poda".toList := by
    decide +kernel
  have hpath : ∀ name ∈ names, ∀ path pod, resolver.Shows onePod name path pod →
      path = "/kubepods/poda".toList := by
    simp only [names, List.map_cons, List.map_nil, List.forall_mem_cons]
    refine ⟨?_, ?_, ?_, ?_, fun _ hnil => absurd hnil List.not_mem_nil⟩ <;>
      intro path pod hshows
    · obtain rfl : path = "/user.slice".toList := hshows.path_eq hread12 (by decide +kernel)
      obtain ⟨parsed, inode, hparsed, -⟩ := hshows.placed
      have hnone : Cgroup.podOfPath? "/user.slice".toList = none := by decide +kernel
      cases hnone.symm.trans hparsed
    · exact hshows.path_eq hread7 hlisted7
    · exact hshows.path_eq hread9 (by decide +kernel)
    · have hprocess := isProcess_iff.2 hshows.process
      have hself : isProcess (Path.ofText "self") = false := by decide +kernel
      rw [hself] at hprocess
      cases hprocess
  have hunshared : resolver.Unshared onePod names := by
    intro name hname name' hname' path path' pod pod' hshows hshows' _
    rw [hpath name hname path pod hshows, hpath name' hname' path' pod' hshows']
  obtain ⟨fresh, hfresh, hrefresh⟩ := (refresh_maps_shown resolver onePod).1 _ hlist hunshared
  have hshows : resolver.Shows onePod (Path.ofText "7") "/kubepods/poda".toList
      ⟨"pod-a", "", 13⟩ := by
    have hinode : onePod.inodeOf (Cgroup.place resolver.cgroupRoot "/kubepods/poda".toList) =
        .ok 13 := by
      cbv
    exact ⟨isProcess_iff.1 (by decide +kernel), ⟨_, hread7, hlisted7⟩,
      ⟨"pod-a", "", 0⟩, 13, by decide +kernel, hinode, rfl⟩
  have hmapped : fresh.resolve 13 = some ⟨"pod-a", "", 13⟩ :=
    (hfresh.resolve_iff 13 _).2 ⟨⟨_, by simp, _, hshows⟩, rfl⟩
  exact ⟨_, hlist, rfl, hunshared, fresh, hfresh, hrefresh [], hmapped,
    hfresh.order _ names.reverse_perm⟩

end DentryWatch.Resolver
