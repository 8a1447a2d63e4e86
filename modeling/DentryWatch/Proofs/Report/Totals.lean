import Mathlib.Algebra.BigOperators.Group.List.Basic
import DentryWatch.Proofs.Report.Groups

/-!
# Sums over groups with the same labels

Groups whose samples cannot be told apart are added up, and each of the sums is
shown once. What is added up is never lost, and as long as different labels can be
told apart the sums are those of the pairs of labels.
-/

namespace DentryWatch

/-- Sums over the parts of a list add up to the sum over the list. -/
theorem sum_parts {α κ : Type} [DecidableEq κ] (part : α → κ) (weight : α → Nat) {keys : List κ}
    (hkeys : keys.Nodup) {l : List α} (hl : ∀ a ∈ l, part a ∈ keys) :
    (keys.map fun key => ((l.filter fun a => part a = key).map weight).sum).sum =
      (l.map weight).sum := by
  induction l with
  | nil => simp
  | cons a rest ih =>
      have hrest := ih fun b hmem => hl b (List.mem_cons_of_mem _ hmem)
      have hsplit : ∀ key, (((a :: rest).filter fun b => part b = key).map weight).sum =
          (if part a = key then weight a else 0) +
            ((rest.filter fun b => part b = key).map weight).sum := by
        intro key
        by_cases hkey : part a = key <;> simp [hkey]
      have hone : (keys.map fun key => if part a = key then weight a else 0).sum = weight a := by
        rw [List.sum_map_eq_nsmul_single (part a) _ fun key hne _ => if_neg (Ne.symm hne),
          List.count_eq_one_of_mem hkeys (hl a List.mem_cons_self)]
        simp
      simp only [hsplit, List.sum_map_add, hone, hrest, List.map_cons, List.sum_cons]

namespace Report

/-- The sum of a counter over the groups with this key. -/
def keySum (counter : Counts → UInt64) (groups : List GroupReport) (key : List Char) : Nat :=
  ((groups.filter fun entry => sampleKey entry = key).map fun entry =>
    (counter entry.counts).toNat).sum

/-- Each key of the groups has one sum, which stands with the first group that has the key. -/
structure Sums (counter : Counts → UInt64) (groups : List GroupReport)
    (sums : List (GroupReport × UInt64)) : Prop where
  nodup : (sums.map fun sum => sampleKey sum.1).Nodup
  first_mem : ∀ sum ∈ sums, sum.1 ∈ groups
  key_mem : ∀ entry ∈ groups, sampleKey entry ∈ sums.map fun sum => sampleKey sum.1
  value : ∀ sum ∈ sums, sum.2 = UInt64.ofNat (keySum counter groups (sampleKey sum.1))

section Sums

variable {counter : Counts → UInt64} {groups : List GroupReport}

theorem keySum_concat (entry : GroupReport) (key : List Char) :
    keySum counter (groups ++ [entry]) key =
      keySum counter groups key + if sampleKey entry = key then (counter entry.counts).toNat else 0 := by
  unfold keySum
  by_cases hkey : sampleKey entry = key <;> simp [hkey]

theorem Sums.found {sums : List (GroupReport × UInt64)} (h : Sums counter groups sums)
    {entry : GroupReport} (hkey : sampleKey entry ∈ sums.map fun sum => sampleKey sum.1) :
    Sums counter (groups ++ [entry]) (sums.map fun sum =>
      if sampleKey sum.1 = sampleKey entry then (sum.1, sum.2 + counter entry.counts) else sum) := by
  have hfirst : ∀ sum : GroupReport × UInt64,
      (if sampleKey sum.1 = sampleKey entry then (sum.1, sum.2 + counter entry.counts)
        else sum).1 = sum.1 := by
    intro sum
    split <;> rfl
  have hkeys : (sums.map fun sum =>
      if sampleKey sum.1 = sampleKey entry then (sum.1, sum.2 + counter entry.counts)
        else sum).map (fun sum => sampleKey sum.1) = sums.map fun sum => sampleKey sum.1 := by
    rw [List.map_map]
    apply List.map_congr_left
    intro sum _
    rw [Function.comp_apply, hfirst]
  refine ⟨hkeys ▸ h.nodup, ?_, ?_, ?_⟩
  · intro sum hmem
    obtain ⟨old, hold, rfl⟩ := List.mem_map.1 hmem
    rw [hfirst]
    exact List.mem_append_left _ (h.first_mem old hold)
  · intro other hmem
    rw [hkeys]
    rcases List.mem_append.1 hmem with hold | hnew
    · exact h.key_mem other hold
    · obtain rfl := List.mem_singleton.1 hnew
      exact hkey
  · intro sum hmem
    obtain ⟨old, hold, rfl⟩ := List.mem_map.1 hmem
    have hvalue := h.value old hold
    rw [hfirst, keySum_concat]
    by_cases hsame : sampleKey old.1 = sampleKey entry
    · rw [if_pos hsame, if_pos hsame.symm, UInt64.ofNat_add, UInt64.ofNat_toNat, hvalue]
    · rw [if_neg hsame, if_neg (Ne.symm hsame), Nat.add_zero, hvalue]

theorem Sums.new {sums : List (GroupReport × UInt64)} (h : Sums counter groups sums)
    {entry : GroupReport} (hkey : sampleKey entry ∉ sums.map fun sum => sampleKey sum.1) :
    Sums counter (groups ++ [entry]) (sums ++ [(entry, counter entry.counts)]) := by
  have hnone : keySum counter groups (sampleKey entry) = 0 := by
    have hfilter : (groups.filter fun other => sampleKey other = sampleKey entry) = [] := by
      rw [List.filter_eq_nil_iff]
      intro other hmem hsame
      exact hkey (of_decide_eq_true hsame ▸ h.key_mem other hmem)
    rw [keySum, hfilter]
    rfl
  constructor
  · rw [List.map_append, List.nodup_append]
    refine ⟨h.nodup, by simp, ?_⟩
    rintro key hmem other hother rfl
    obtain rfl := List.mem_singleton.1 hother
    exact hkey hmem
  · intro sum hmem
    rcases List.mem_append.1 hmem with hold | hnew
    · exact List.mem_append_left _ (h.first_mem sum hold)
    · obtain rfl := List.mem_singleton.1 hnew
      simp
  · intro other hmem
    rw [List.map_append, List.mem_append]
    rcases List.mem_append.1 hmem with hold | hnew
    · exact .inl (h.key_mem other hold)
    · obtain rfl := List.mem_singleton.1 hnew
      exact .inr (List.mem_singleton.2 rfl)
  · intro sum hmem
    rw [keySum_concat]
    rcases List.mem_append.1 hmem with hold | hnew
    · have hne : sampleKey entry ≠ sampleKey sum.1 := by
        intro hsame
        exact hkey (hsame ▸ List.mem_map.2 ⟨sum, hold, rfl⟩)
      rw [if_neg hne, Nat.add_zero, h.value sum hold]
    · obtain rfl := List.mem_singleton.1 hnew
      rw [if_pos rfl, hnone, Nat.zero_add, UInt64.ofNat_toNat]

theorem sums_totals (counter : Counts → UInt64) (groups : List GroupReport) :
    Sums counter groups (totals counter groups) := by
  induction groups using List.reverseRecOn with
  | nil => exact ⟨List.nodup_nil, nofun, nofun, nofun⟩
  | append_singleton groups entry ih =>
      rw [totals, List.foldl_append]
      show Sums counter _ (if (totals counter groups).any _ then _ else _)
      split
      · next hany =>
          apply ih.found
          obtain ⟨sum, hmem, hsame⟩ := List.any_eq_true.1 hany
          exact List.mem_map.2 ⟨sum, hmem, beq_iff_eq.1 hsame⟩
      · next hany =>
          apply ih.new
          intro hmem
          obtain ⟨sum, hsum, hsame⟩ := List.mem_map.1 hmem
          exact hany (List.any_eq_true.2 ⟨sum, hsum, beq_iff_eq.2 hsame⟩)

/-- Merging conserves the counts, whichever labels are merged. -/
theorem Sums.conserve {sums : List (GroupReport × UInt64)} (h : Sums counter groups sums) :
    (sums.map fun sum => keySum counter groups (sampleKey sum.1)).sum =
      (groups.map fun entry => (counter entry.counts).toNat).sum := by
  rw [← sum_parts sampleKey _ h.nodup h.key_mem, List.map_map]
  rfl

end Sums

/-! ## Pairs of labels -/

variable (report : Report)

def pairs : List (String × String) := (report.groups.map GroupReport.labels).dedup

def sum (counter : Counts → UInt64) (pair : String × String) : Nat :=
  ((report.groups.filter fun entry => entry.labels = pair).map fun entry =>
    (counter entry.counts).toNat).sum

/--
Groups whose samples have one key carry the same labels. The key is made of the
values of the labels without a mark between them, so this is the assumption that a
tuple of labels has one sample.
-/
def Separated : Prop :=
  ∀ a ∈ report.groups, ∀ b ∈ report.groups, sampleKey a = sampleKey b → a.labels = b.labels

theorem sum_pairs (counter : Counts → UInt64) :
    (report.pairs.map (report.sum counter)).sum =
      (report.groups.map fun entry => (counter entry.counts).toNat).sum :=
  sum_parts GroupReport.labels _ (List.nodup_dedup _)
    fun _ hmem => List.mem_dedup.2 (List.mem_map_of_mem hmem)

theorem sampleKey_of_labels {a b : GroupReport} (h : a.labels = b.labels) :
    sampleKey a = sampleKey b := by
  obtain ⟨hpod, hcontainer⟩ := Prod.mk.inj h
  rw [sampleKey, sampleKey, hpod, hcontainer]

variable {report}

theorem Separated.sum_eq (h : report.Separated) (counter : Counts → UInt64) {entry : GroupReport}
    (hmem : entry ∈ report.groups) :
    keySum counter report.groups (sampleKey entry) = report.sum counter entry.labels := by
  have hfilter : (report.groups.filter fun other => sampleKey other = sampleKey entry) =
      report.groups.filter fun other => other.labels = entry.labels := by
    apply List.filter_congr
    intro other hother
    exact decide_eq_decide.2 ⟨h other hother entry hmem, sampleKey_of_labels⟩
  rw [keySum, hfilter, sum]

/-- The samples of a family are those of the pairs of labels. -/
theorem Separated.samples_perm (h : report.Separated) (name help : String)
    (counter : Counts → UInt64) :
    (report.groupFamily name help counter).samples.Perm (report.pairs.map fun pair =>
      { labels := [("container", pair.2), ("pod", pair.1)]
        value := Decimal.shown (UInt64.ofNat (report.sum counter pair)).toNat }) := by
  have hsums := sums_totals counter report.groups
  have hnodup : ((totals counter report.groups).map fun sum => sum.1.labels).Nodup := by
    refine List.pairwise_map.2 ((List.pairwise_map.1 hsums.nodup).imp ?_)
    exact fun hne hsame => hne (sampleKey_of_labels hsame)
  have hperm : ((totals counter report.groups).map fun sum => sum.1.labels).Perm report.pairs := by
    refine (List.perm_ext_iff_of_nodup hnodup (List.nodup_dedup _)).2 fun pair => ?_
    rw [List.mem_dedup, List.mem_map, List.mem_map]
    constructor
    · rintro ⟨sum, hmem, rfl⟩
      exact ⟨sum.1, hsums.first_mem sum hmem, rfl⟩
    · rintro ⟨entry, hmem, rfl⟩
      obtain ⟨sum, hsum, hkey⟩ := List.mem_map.1 (hsums.key_mem entry hmem)
      exact ⟨sum, hsum, h _ (hsums.first_mem sum hsum) _ hmem hkey⟩
  refine List.Perm.trans (List.Perm.of_eq ?_) (hperm.map _)
  rw [List.map_map]
  apply List.map_congr_left
  intro sum hmem
  have hvalue := hsums.value sum hmem
  rw [h.sum_eq counter (hsums.first_mem sum hmem)] at hvalue
  rw [Function.comp_apply, ← hvalue]
  rfl

/-- Labels are told apart when the labels of all pods have the same length. -/
theorem separated_of_length {table : GroupTable} {resolver : Resolver}
    (hlists : report.Lists table resolver) (hpods : resolver.NamesPods) {length : Nat}
    (hlength : ∀ entry ∈ resolver.pods, entry.2.pod.toList.length = length) :
    report.Separated := by
  have hcases : ∀ entry ∈ report.groups,
      (entry.pod.toList.length = length ∧ "pod-".toList <+: entry.pod.toList) ∨
        (entry.pod = Resolver.fallback entry.group ∧ entry.container = "") := by
    intro entry hmem
    have hlabels := ((hlists.mem_iff entry).1 hmem).2
    unfold GroupReport.labels Resolver.labels at hlabels
    cases hresolve : resolver.resolve entry.group with
    | none =>
        rw [hresolve] at hlabels
        exact .inr (Prod.mk.inj hlabels)
    | some info =>
        rw [hresolve] at hlabels
        obtain ⟨before, after, hsplit, -⟩ := List.lookup_eq_some_iff.1 hresolve
        have hinfo : (entry.group, info) ∈ resolver.pods := by
          rw [hsplit]
          simp
        rw [(Prod.mk.inj hlabels).1]
        exact .inl ⟨hlength _ hinfo, hpods _ hinfo⟩
  have hmixed : ∀ {a b : GroupReport}, "pod-".toList <+: a.pod.toList →
      b.pod = Resolver.fallback b.group → sampleKey a ≠ sampleKey b := by
    rintro a b ⟨tail, htail⟩ hb hkey
    rw [sampleKey, sampleKey, ← htail, hb, Resolver.toList_fallback] at hkey
    simp at hkey
  intro a ha b hb hkey
  rcases hcases a ha with ⟨halength, hapod⟩ | ⟨hapod, hacontainer⟩ <;>
    rcases hcases b hb with ⟨hblength, hbpod⟩ | ⟨hbpod, hbcontainer⟩
  · obtain ⟨hpod, hcontainer⟩ := List.append_inj hkey (halength.trans hblength.symm)
    exact Prod.ext (String.toList_inj.1 hpod) (String.toList_inj.1 hcontainer)
  · exact absurd hkey (hmixed hapod hbpod)
  · exact absurd hkey.symm (hmixed hbpod hapod)
  · have hpod : a.pod = b.pod := by
      rw [sampleKey, sampleKey, hacontainer, hbcontainer, List.append_cancel_right_eq] at hkey
      exact String.toList_inj.1 hkey
    exact Prod.ext hpod (hacontainer.trans hbcontainer.symm)

/-- The labels of pods with short identifiers may not be told apart. -/
example : sampleKey ⟨1, {}, "pod-a", "bc"⟩ = sampleKey ⟨2, {}, "pod-ab", "c"⟩ := by decide

end Report

end DentryWatch
