import DentryWatch.Cgroup.Pod
import DentryWatch.Proofs.Cgroup.Unified

/-!
# Layouts of pod paths

The control groups of pods are laid out in two ways, by nested slices or by plain
directories. In either way just one component is read as a pod and just one as a
container, so both name the same pod and the same container.
-/

namespace DentryWatch

namespace Text

variable {α : Type} [BEq α] [LawfulBEq α] {first : α} {pattern s rest : List α}

theorem afterLast?_eq_none (h : ¬ pattern <:+: s) : afterLast? pattern s = none := by
  induction s with
  | nil =>
      rw [List.infix_nil] at h
      rw [afterLast?, if_neg fun hnil => h (List.isEmpty_iff.1 hnil)]
  | cons item tail ih =>
      rw [List.infix_cons_iff, not_or] at h
      rw [afterLast?, ih h.2]
      exact (isPrefixOf?_eq_none_iff pattern _).2 h.1

/-- An occurrence behind which the first item is gone is the last. -/
theorem afterLast?_append (h : first ∉ pattern ++ rest) (front : List α) :
    afterLast? (first :: pattern) (front ++ first :: (pattern ++ rest)) = some rest := by
  induction front with
  | nil =>
      have hnone : afterLast? (first :: pattern) (pattern ++ rest) = none :=
        afterLast?_eq_none fun hin => h (hin.subset List.mem_cons_self)
      rw [List.nil_append, afterLast?, hnone]
      exact List.isPrefixOf?_eq_some_iff_append_eq.2 rfl
  | cons item front ih => rw [List.cons_append, afterLast?, ih]

end Text

namespace Cgroup

variable {component part stem uid id : List Char} {c : Char} {parts : List (List Char)}

/-! ## What a component is read as -/

theorem withoutSuffix_append (suffix part : List Char) :
    withoutSuffix suffix (part ++ suffix) = part := by
  rw [withoutSuffix, List.isSuffixOf?_eq_some_iff_append_eq.2 rfl, Option.getD_some]

theorem withoutSuffix_of_not_mem {suffix : List Char} (hc : c ∈ suffix) (h : c ∉ part) :
    withoutSuffix suffix part = part := by
  rw [withoutSuffix]
  cases hrest : suffix.isSuffixOf? part with
  | none => rfl
  | some rest =>
      rw [← List.isSuffixOf?_eq_some_iff_append_eq.1 hrest] at h
      exact absurd (List.mem_append_right rest hc) h

theorem podUid?_of_prefix (hstem : withoutSuffix ".slice".toList component = "pod".toList ++ uid)
    (hne : uid ≠ []) : podUid? component = some uid := by
  have hfound : "pod".toList.isPrefixOf? ("pod".toList ++ uid) = some uid :=
    List.isPrefixOf?_eq_some_iff_append_eq.2 rfl
  unfold podUid?
  rw [hstem]
  dsimp only
  rw [hfound]
  simpa using hne

theorem podUid?_of_unmarked (hstem : withoutSuffix ".slice".toList component = stem)
    (hfront : ¬ "pod".toList <+: stem) :
    podUid? component =
      (Text.afterLast? "-pod".toList stem).filter fun uid => !uid.isEmpty := by
  unfold podUid?
  rw [hstem]
  dsimp only
  rw [(isPrefixOf?_eq_none_iff _ stem).2 hfront]

/-- What does not begin with a hexadecimal digit names no container. -/
theorem containerId?_of_head (hhead : component.head? = some c) (hc : isHexDigit c = false) :
    containerId? component = none := by
  obtain ⟨rest, rfl⟩ := List.head?_eq_some_iff.1 hhead
  have hfront : "cri-containerd-".toList.isPrefixOf? (c :: rest) = none := by
    rw [isPrefixOf?_eq_none_iff]
    intro hprefix
    obtain rfl : 'c' = c := (List.cons_prefix_cons.1 (by simpa using hprefix)).1
    cases hc
  unfold containerId?
  rw [hfront]
  simp [hc]

theorem podMark_eq : podMark = ['k', 'u', 'b', 'e', 'p', 'o', 'd', 's'] := by decide

/-! ## Identifiers -/

def isUidChar (c : Char) : Bool := c = '-' || c.isDigit || ('a' ≤ c && c ≤ 'f')

structure IsUid (uid : List Char) : Prop where
  ne_nil : uid ≠ []
  chars : ∀ c ∈ uid, isUidChar c = true

structure IsContainerId (id : List Char) : Prop where
  length : id.length = 64
  chars : ∀ c ∈ id, isHexDigit c = true

theorem IsUid.not_mem (h : IsUid uid) (hc : isUidChar c = false) : c ∉ uid := by
  intro hmem
  rw [h.chars c hmem] at hc
  cases hc

theorem IsContainerId.not_mem (h : IsContainerId id) (hc : isHexDigit c = false) : c ∉ id := by
  intro hmem
  rw [h.chars c hmem] at hc
  cases hc

theorem IsContainerId.ne_nil (h : IsContainerId id) : id ≠ [] := by
  rintro rfl
  cases h.length

/-- An identifier as it is written in the name of a slice, where a dash goes one level down. -/
def escapedUid (uid : List Char) : List Char := uid.map fun c => if c = '-' then '_' else c

theorem dash_not_mem_escapedUid (uid : List Char) : '-' ∉ escapedUid uid := by
  intro hmem
  obtain ⟨c, -, hc⟩ := List.mem_map.1 hmem
  split at hc
  · cases hc
  · next hne => exact hne hc

theorem IsUid.not_mem_escaped (h : IsUid uid) (hc : isUidChar c = false) (hne : c ≠ '_') :
    c ∉ escapedUid uid := by
  intro hmem
  obtain ⟨d, hd, heq⟩ := List.mem_map.1 hmem
  split at heq
  · exact hne heq.symm
  · exact h.not_mem hc (heq ▸ hd)

theorem IsUid.escaped_ne_nil (h : IsUid uid) : escapedUid uid ≠ [] :=
  fun hnil => h.ne_nil (List.map_eq_nil_iff.1 hnil)

theorem IsUid.shortenUid (h : IsUid uid) : shortenUid uid = uid.take shownUidLength := by
  have hsame : uid.map (fun c => if c = '_' then '-' else c) = uid := by
    refine (List.map_congr_left fun c hmem => if_neg ?_).trans (List.map_id uid)
    rintro rfl
    exact h.not_mem (by decide) hmem
  rw [Cgroup.shortenUid, hsame]

/-- The dashes come back when an identifier is shown. -/
theorem IsUid.shortenUid_escaped (h : IsUid uid) :
    Cgroup.shortenUid (escapedUid uid) = uid.take shownUidLength := by
  have hback : (escapedUid uid).map (fun c => if c = '_' then '-' else c) = uid := by
    rw [escapedUid, List.map_map]
    refine (List.map_congr_left fun c hmem => ?_).trans (List.map_id uid)
    by_cases hdash : c = '-'
    · simp [hdash]
    · have hplain : c ≠ '_' := by
        rintro rfl
        exact h.not_mem (by decide) hmem
      simp [hdash, hplain]
  rw [Cgroup.shortenUid, hback]

/-! ## Layouts -/

/-- How well a pod is served. Only two levels have a class of their own in a path. -/
inductive ServiceLevel where
  | guaranteed
  | burstable
  | bestEffort
deriving DecidableEq, Repr

def ServiceLevel.className? : ServiceLevel → Option (List Char)
  | guaranteed => none
  | burstable => some "burstable".toList
  | bestEffort => some "besteffort".toList

def slice (name : List Char) : List Char := name ++ ".slice".toList

/-- The component of a container in the layout by slices. -/
def scope (id : List Char) : List Char := "cri-containerd-".toList ++ id ++ ".scope".toList

/-- The name of the slice of a pod, after that of the slice above it. -/
def podSlice (above uid : List Char) : List Char :=
  slice (above ++ "-pod".toList ++ escapedUid uid)

/-- The layout by slices: the name of each begins with that of the slice above it. -/
def slicedParts (level : ServiceLevel) (uid id : List Char) : List (List Char) :=
  match level.className? with
  | none => [slice podMark, podSlice podMark uid, scope id]
  | some name =>
      let above := podMark ++ '-' :: name
      [slice podMark, slice above, podSlice above uid, scope id]

def podDirectory (uid : List Char) : List Char := "pod".toList ++ uid

/-- The layout by plain directories. -/
def plainParts (level : ServiceLevel) (uid id : List Char) : List (List Char) :=
  podMark :: (level.className?.toList ++ [podDirectory uid, id])

example :
    absolute (slicedParts .burstable "1b2c-3d".toList "0f".toList) =
        ("/kubepods.slice/kubepods-burstable.slice/kubepods-burstable-pod1b2c_3d.slice/" ++
          "cri-containerd-0f.scope").toList ∧
      absolute (plainParts .guaranteed "1b2c-3d".toList "0f".toList) =
        "/kubepods/pod1b2c-3d/0f".toList := by
  decide

/-- The pod and the container that both layouts are to name. -/
def podNamed (uid id : List Char) : PodInfo where
  pod := String.ofList ("pod-".toList ++ uid.take shownUidLength)
  container := String.ofList id
  group := 0

/-! ## The components of the layouts -/

theorem podUid?_podSlice (huid : IsUid uid) (tail : List Char) :
    podUid? (podSlice (podMark ++ tail) uid) = some (escapedUid uid) := by
  have hstem : withoutSuffix ".slice".toList (podSlice (podMark ++ tail) uid) =
      podMark ++ tail ++ "-pod".toList ++ escapedUid uid := withoutSuffix_append _ _
  have hfront : ¬ "pod".toList <+: podMark ++ tail ++ "-pod".toList ++ escapedUid uid := by
    simp [podMark_eq]
  have hdash : '-' ∉ "pod".toList ++ escapedUid uid := by
    rw [List.mem_append, not_or]
    exact ⟨by decide, dash_not_mem_escapedUid uid⟩
  have hfound : Text.afterLast? "-pod".toList
      (podMark ++ tail ++ "-pod".toList ++ escapedUid uid) = some (escapedUid uid) := by
    rw [List.append_assoc]
    exact Text.afterLast?_append hdash (podMark ++ tail)
  rw [podUid?_of_unmarked hstem hfront, hfound]
  simpa using huid.escaped_ne_nil

theorem containerId?_podSlice (tail uid : List Char) :
    containerId? (podSlice (podMark ++ tail) uid) = none :=
  containerId?_of_head (c := 'k') (by unfold podSlice slice; simp [podMark_eq]) (by decide)

/-- The only `p` of a scope stands near its end. -/
theorem podUid?_scope (hid : IsContainerId id) : podUid? (scope id) = none := by
  have hplain : 'l' ∉ scope id := by
    unfold scope
    simp only [List.mem_append, not_or]
    exact ⟨⟨by decide, hid.not_mem (by decide)⟩, by decide⟩
  have hstem : withoutSuffix ".slice".toList (scope id) = scope id :=
    withoutSuffix_of_not_mem (by decide) hplain
  have hfront : ¬ "pod".toList <+: scope id := by
    unfold scope
    simp
  have hinfix : ¬ "-pod".toList <:+: scope id := by
    rintro ⟨before, after, heq⟩
    have hcut : ("cri-containerd-".toList ++ id ++ ".sco".toList) ++ 'p' :: ['e'] =
        (before ++ ['-']) ++ 'p' :: ("od".toList ++ after) := by
      unfold scope at heq
      simpa using heq.symm
    have hbody : 'p' ∉ "cri-containerd-".toList ++ id ++ ".sco".toList := by
      simp only [List.mem_append, not_or]
      exact ⟨⟨by decide, hid.not_mem (by decide)⟩, by decide⟩
    have hrest := ((List.append_cons_inj_of_notMem hbody (by decide)).1 hcut).2.2
    simp at hrest
  rw [podUid?_of_unmarked hstem hfront, Text.afterLast?_eq_none hinfix]
  rfl

theorem containerId?_scope (id : List Char) : containerId? (scope id) = some id := by
  have hfound : "cri-containerd-".toList.isPrefixOf? (scope id) = some (id ++ ".scope".toList) := by
    rw [List.isPrefixOf?_eq_some_iff_append_eq, ← List.append_assoc]
    rfl
  unfold containerId?
  rw [hfound]
  exact congrArg some (withoutSuffix_append _ id)

theorem podUid?_podDirectory (huid : IsUid uid) : podUid? (podDirectory uid) = some uid := by
  refine podUid?_of_prefix (withoutSuffix_of_not_mem (c := '.') (by decide) ?_) huid.ne_nil
  rw [podDirectory, List.mem_append, not_or]
  exact ⟨by decide, huid.not_mem (by decide)⟩

theorem containerId?_podDirectory (uid : List Char) : containerId? (podDirectory uid) = none :=
  containerId?_of_head (c := 'p') (by unfold podDirectory; simp) (by decide)

theorem podUid?_id (hid : IsContainerId id) : podUid? id = none := by
  have hstem : withoutSuffix ".slice".toList id = id :=
    withoutSuffix_of_not_mem (c := '.') (by decide) (hid.not_mem (by decide))
  have hfront : ¬ "pod".toList <+: id := fun hstart =>
    hid.not_mem (c := 'p') (by decide) (hstart.subset List.mem_cons_self)
  have hinfix : ¬ "-pod".toList <:+: id := fun hin =>
    hid.not_mem (c := '-') (by decide) (hin.subset List.mem_cons_self)
  rw [podUid?_of_unmarked hstem hfront, Text.afterLast?_eq_none hinfix]
  rfl

theorem containerId?_id (hid : IsContainerId id) : containerId? id = some id := by
  have hfront : "cri-containerd-".toList.isPrefixOf? id = none := by
    rw [isPrefixOf?_eq_none_iff]
    exact fun hstart => hid.not_mem (c := 'r') (by decide) (hstart.subset (by decide))
  unfold containerId?
  rw [hfront]
  simp [hid.length, List.all_eq_true.2 hid.chars]

/-! ## Paths by their components -/

/-- A component that is read as neither a pod nor a container. -/
structure Silent (part : List Char) : Prop where
  pod : podUid? part = none
  container : containerId? part = none
  slash : '/' ∉ part

/-- A component that is read as a pod and not as a container. -/
structure NamesPod (part uid : List Char) : Prop where
  pod : podUid? part = some uid
  container : containerId? part = none
  slash : '/' ∉ part

/-- A component that is read as a container and not as a pod. -/
structure NamesContainer (part id : List Char) : Prop where
  pod : podUid? part = none
  container : containerId? part = some id
  slash : '/' ∉ part

theorem podMark_infix_absolute {first : List Char} (h : podMark <+: first)
    (rest : List (List Char)) : podMark <:+: absolute (first :: rest) := by
  obtain ⟨tail, rfl⟩ := h
  cases rest with
  | nil => exact ⟨['/'], tail, by simp⟩
  | cons next rest => exact ⟨['/'], tail ++ absolute (next :: rest), by simp⟩

/-- A path below `kubepods` is read as the one pod and the one container at its end. -/
theorem podOfPath?_of_parts {first podPart containerPart : List Char} {front : List (List Char)}
    (hmark : podMark <+: first) (hfront : ∀ part ∈ first :: front, Silent part)
    (hpod : NamesPod podPart uid) (hcontainer : NamesContainer containerPart id) :
    podOfPath? (absolute (first :: (front ++ [podPart, containerPart]))) = some
      { pod := String.ofList ("pod-".toList ++ shortenUid uid), container := String.ofList id
        group := 0 } := by
  have hoccurs := Text.occursIn_iff.2
    (podMark_infix_absolute hmark (front ++ [podPart, containerPart]))
  have hslash : ∀ part ∈ first :: (front ++ [podPart, containerPart]), '/' ∉ part := by
    intro part hmem
    rw [← List.cons_append] at hmem
    rcases List.mem_append.1 hmem with hmem | hmem
    · exact (hfront part hmem).slash
    · rcases List.mem_pair.1 hmem with rfl | rfl
      · exact hpod.slash
      · exact hcontainer.slash
  have hnone : podUid? [] = none ∧ containerId? [] = none := by decide
  have hsplit := splitOn_absolute (List.cons_ne_nil _ _) hslash
  rw [← List.cons_append, ← List.cons_append] at hsplit
  have hpods : (first :: front).filterMap podUid? = [] :=
    List.filterMap_eq_nil_iff.2 fun part hmem => (hfront part hmem).pod
  have hcontainers : (first :: front).filterMap containerId? = [] :=
    List.filterMap_eq_nil_iff.2 fun part hmem => (hfront part hmem).container
  have huid : (([] :: first :: front) ++ [podPart, containerPart]).filterMap podUid? = [uid] := by
    rw [List.filterMap_append, List.filterMap_cons_none hnone.1, hpods]
    simp [hpod.pod, hcontainer.pod]
  have hid : (([] :: first :: front) ++ [podPart, containerPart]).filterMap containerId? =
      [id] := by
    rw [List.filterMap_append, List.filterMap_cons_none hnone.2, hcontainers]
    simp [hpod.container, hcontainer.container]
  unfold podOfPath?
  rw [hoccurs, ← List.cons_append, hsplit]
  simp only [lastSome?, huid, hid]
  rfl

/-- Neither the name of a class nor that of its slice is mistaken for a pod or a container. -/
theorem ServiceLevel.silent {level : ServiceLevel} {name : List Char}
    (h : level.className? = some name) :
    Silent name ∧ Silent (slice (podMark ++ '-' :: name)) := by
  cases level with
  | guaranteed => cases h
  | burstable =>
      cases h
      exact ⟨⟨by decide, by decide, by decide⟩, by decide, by decide, by decide⟩
  | bestEffort =>
      cases h
      exact ⟨⟨by decide, by decide, by decide⟩, by decide, by decide, by decide⟩

theorem podOfPath?_sliced (level : ServiceLevel) (huid : IsUid uid) (hid : IsContainerId id) :
    podOfPath? (absolute (slicedParts level uid id)) = some (podNamed uid id) := by
  have hnamed : podNamed uid id =
      { pod := String.ofList ("pod-".toList ++ shortenUid (escapedUid uid))
        container := String.ofList id, group := 0 } := by
    rw [huid.shortenUid_escaped]
    rfl
  have hmark : podMark <+: slice podMark := List.prefix_append podMark _
  have hroot : Silent (slice podMark) := ⟨by decide, by decide, by decide⟩
  have hpod : ∀ tail, '/' ∉ tail → NamesPod (podSlice (podMark ++ tail) uid) (escapedUid uid) := by
    intro tail htail
    refine ⟨podUid?_podSlice huid tail, containerId?_podSlice tail uid, ?_⟩
    unfold podSlice slice
    simp only [List.mem_append, not_or]
    exact ⟨⟨⟨⟨by decide, htail⟩, by decide⟩, huid.not_mem_escaped (by decide) (by decide)⟩,
      by decide⟩
  have hscope : NamesContainer (scope id) id := by
    refine ⟨podUid?_scope hid, containerId?_scope id, ?_⟩
    unfold scope
    simp only [List.mem_append, not_or]
    exact ⟨⟨by decide, hid.not_mem (by decide)⟩, by decide⟩
  rw [hnamed, slicedParts]
  cases hname : level.className? with
  | none =>
      have hplain := hpod [] List.not_mem_nil
      rw [List.append_nil] at hplain
      exact podOfPath?_of_parts hmark (List.forall_mem_singleton.2 hroot) hplain hscope
  | some name =>
      obtain ⟨hclass, hsilent⟩ := ServiceLevel.silent hname
      have hslash : '/' ∉ '-' :: name := by simpa using hclass.slash
      exact podOfPath?_of_parts hmark
        (List.forall_mem_cons.2 ⟨hroot, List.forall_mem_singleton.2 hsilent⟩) (hpod _ hslash) hscope

theorem podOfPath?_plain (level : ServiceLevel) (huid : IsUid uid) (hid : IsContainerId id) :
    podOfPath? (absolute (plainParts level uid id)) = some (podNamed uid id) := by
  have hnamed : podNamed uid id =
      { pod := String.ofList ("pod-".toList ++ shortenUid uid)
        container := String.ofList id, group := 0 } := by
    rw [huid.shortenUid]
    rfl
  have hroot : Silent podMark := ⟨by decide, by decide, by decide⟩
  have hpod : NamesPod (podDirectory uid) uid := by
    refine ⟨podUid?_podDirectory huid, containerId?_podDirectory uid, ?_⟩
    rw [podDirectory, List.mem_append, not_or]
    exact ⟨by decide, huid.not_mem (by decide)⟩
  have hcontainer : NamesContainer id id :=
    ⟨podUid?_id hid, containerId?_id hid, hid.not_mem (by decide)⟩
  have hclass : ∀ name ∈ level.className?.toList, Silent name := fun name hmem =>
    (ServiceLevel.silent (Option.mem_toList.1 hmem)).1
  rw [hnamed]
  exact podOfPath?_of_parts List.prefix_rfl (List.forall_mem_cons.2 ⟨hroot, hclass⟩) hpod hcontainer

/-! ## Seen from another namespace -/

theorem ServiceLevel.mem_classNames {level : ServiceLevel} {name : List Char}
    (h : level.className? = some name) : name ∈ classNames := by
  cases level <;> cases h <;> decide

theorem podDirectory_not_mem_classNames (uid : List Char) : podDirectory uid ∉ classNames := by
  have hheads : ∀ name ∈ classNames, name.head? ≠ some 'p' := by decide
  intro hmem
  refine hheads _ hmem ?_
  unfold podDirectory
  simp

theorem IsContainerId.not_mem_classNames (h : IsContainerId id) : id ∉ classNames := by
  have hlengths : ∀ name ∈ classNames, name.length ≠ 64 := by decide
  exact fun hmem => hlengths id hmem h.length

/-- A path that has lost its beginning gets it back in front of its class. -/
theorem restore_plain {level : ServiceLevel} {name : List Char}
    (hname : level.className? = some name) (huid : IsUid uid) (hid : IsContainerId id) :
    (∀ part ∈ [name, podDirectory uid, id], Proper part) ∧
      restore (absolute [name, podDirectory uid, id]) = absolute (plainParts level uid id) := by
  have hclass := ServiceLevel.mem_classNames hname
  have hpod : Proper (podDirectory uid) := by
    have hslash : '/' ∉ podDirectory uid := by
      rw [podDirectory, List.mem_append, not_or]
      exact ⟨by decide, huid.not_mem (by decide)⟩
    exact ⟨nofun, nofun, nofun, hslash⟩
  have hcontainer : Proper id := by
    refine ⟨hid.ne_nil, ?_, ?_, hid.not_mem (by decide)⟩ <;>
      exact fun heq => absurd hid.length (heq ▸ by decide)
  have hproper : ∀ part ∈ [name, podDirectory uid, id], Proper part := by
    rw [List.forall_mem_cons, List.forall_mem_cons, List.forall_mem_singleton]
    exact ⟨proper_className hclass, hpod, hcontainer⟩
  refine ⟨hproper, ?_⟩
  have hlost : ¬ podMark <:+: absolute [name, podDirectory uid, id] := by
    have hk : 'k' ∉ absolute [name, podDirectory uid, id] := by
      refine not_mem_absolute (by decide) ?_
      rw [List.forall_mem_cons, List.forall_mem_cons, List.forall_mem_singleton, podDirectory,
        List.mem_append, not_or]
      have hnames : ∀ name ∈ classNames, 'k' ∉ name := by decide
      exact ⟨hnames name hclass, ⟨by decide, huid.not_mem (by decide)⟩, hid.not_mem (by decide)⟩
    exact fun hin => hk (hin.subset (by decide))
  have hrestores := restores hproper
  generalize restore (absolute [name, podDirectory uid, id]) = path at hrestores
  cases hrestores with
  | kept h =>
      rcases h with hinfix | hnone
      · exact absurd hinfix hlost
      · exact absurd List.mem_cons_self (hnone name hclass)
  | @regained earlier later front rest found hlost' horder hearlier hparts hfront hrest =>
      have hfound : found ∈ classNames := by simp [horder]
      cases front with
      | nil =>
          obtain ⟨rfl, rfl⟩ := List.cons_eq_cons.1 hparts
          rw [plainParts, hname]
          simp
      | cons skipped front =>
          -- only the class itself can be the class that was found
          have hmem : found ∈ [podDirectory uid, id] := by
            rw [(List.cons_eq_cons.1 hparts).2]
            exact List.mem_append_right _ List.mem_cons_self
          rcases List.mem_pair.1 hmem with rfl | rfl
          · exact absurd hfound (podDirectory_not_mem_classNames uid)
          · exact absurd hfound hid.not_mem_classNames

/-! ## The headline -/

/--
Both layouts name a pod by the beginning of its identifier and a container by its whole
one, on every level of service. On the levels with a class of their own, so does the path
that a process in another namespace lists, however far it climbs.
-/
theorem layouts_name_same_pod (level : ServiceLevel) (uid id : List Char) (huid : IsUid uid)
    (hid : IsContainerId id) :
    podOfPath? (absolute (slicedParts level uid id)) = some (podNamed uid id) ∧
      podOfPath? (absolute (plainParts level uid id)) = some (podNamed uid id) ∧
      ∀ name, level.className? = some name →
        ∀ (climbs : Nat) (text : List Char) (earlier later : List (List Char)),
          Text.lines text = earlier ++ ("0::".toList ++
            ((List.replicate climbs "/..".toList).flatten ++
              absolute [name, podDirectory uid, id])) :: later →
          (∀ line ∈ earlier, ¬ "0::".toList <+: line) →
          (unifiedPath? text).bind podOfPath? = some (podNamed uid id) := by
  refine ⟨podOfPath?_sliced level huid hid, podOfPath?_plain level huid hid, ?_⟩
  intro name hname climbs text earlier later hlines hearlier
  obtain ⟨hproper, hrestore⟩ := restore_plain hname huid hid
  have hdetours : ∀ piece ∈ List.replicate climbs "/..".toList, piece ∈ detours := by
    intro piece hmem
    rw [(List.mem_replicate.1 hmem).2]
    decide
  have hclean : clean ((List.replicate climbs "/..".toList).flatten ++
      absolute [name, podDirectory uid, id]) = absolute [name, podDirectory uid, id] :=
    (clean_detours hdetours _).trans (clean_absolute hproper)
  have hpath : unifiedPath? text = some (absolute (plainParts level uid id)) := by
    refine unifiedPath?_eq_some_iff.2 ⟨earlier, _, later, hlines, hearlier, ?_⟩
    rw [hclean, hrestore]
  rw [hpath]
  exact podOfPath?_plain level huid hid

/-- A burstable pod whose identifier is short, with a container of sixty-four digits. -/
theorem layouts_name_same_pod_burstable :
    let uid : List Char := "1b2c-3d".toList
    let id : List Char := List.replicate 64 '0'
    let text : List Char := "4:cpu:/a\n0::/../..".toList ++
      absolute ["burstable".toList, podDirectory uid, id] ++ "\n0::/b\n".toList
    IsUid uid ∧ IsContainerId id ∧
      podOfPath? (absolute (slicedParts .burstable uid id)) = some (podNamed uid id) ∧
      podOfPath? (absolute (plainParts .burstable uid id)) = some (podNamed uid id) ∧
      (unifiedPath? text).bind podOfPath? = some (podNamed uid id) := by
  intro uid id text
  have huid : IsUid uid := ⟨by decide, List.all_eq_true.1 (by decide)⟩
  have hid : IsContainerId id := ⟨by decide, List.all_eq_true.1 (by decide)⟩
  obtain ⟨hsliced, hplain, hlisted⟩ := layouts_name_same_pod .burstable uid id huid hid
  exact ⟨huid, hid, hsliced, hplain, hlisted "burstable".toList rfl 2 text ["4:cpu:/a".toList]
    ["0::/b".toList] (by decide +kernel) (by decide)⟩

end Cgroup

end DentryWatch
