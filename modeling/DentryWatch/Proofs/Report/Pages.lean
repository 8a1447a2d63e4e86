import DentryWatch.Proofs.Report.Text

/-!
# What the page of a report shows

The exposition of a report shows its numbers and nothing else: a line for each sum
over groups with the same labels, one for the reclaim passes, and three for the node
if its counts could be read.
-/

namespace DentryWatch.Report

open Exposition

/-- The families that count per group. -/
def groupCounters : List (String × (Counts → UInt64)) :=
  [("dentry_alloc_total", Counts.alloc), ("dentry_positive_total", Counts.positive),
    ("dentry_negative_total", Counts.negative)]

/-- The line of a sample for a pair of labels. -/
def pairLine (name : String) (pair : String × String) (value : Nat) : List Char :=
  lineOf name
    { labels := [("container", pair.2), ("pod", pair.1)], value := Text.decimal value }

example : pairLine "dentry_alloc_total" ("pod-a", "c\"1") 12 =
    "dentry_alloc_total\x7bcontainer=\"c\\\"1\",pod=\"pod-a\"\x7d 12".toList := by decide

/-- A line tells its labels and its number. -/
theorem pairLine_inj {name : String} {pair other : String × String} {value number : Nat}
    (h : pairLine name pair value = pairLine name other number) : pair = other ∧ value = number := by
  have hlines : ∀ (pair : String × String) (value : Nat), pairLine name pair value =
      name.toList ++ ("\x7bcontainer=\"".toList ++ (pair.2.toList.flatMap escapeChar ++
        '"' :: (",pod=\"".toList ++ (pair.1.toList.flatMap escapeChar ++
          '"' :: ("\x7d ".toList ++ Text.decimal value))))) := by
    intro pair value
    simp [pairLine, lineOf, writeLabels, writeLabel, List.intercalate]
  rw [hlines, hlines, List.append_cancel_left_eq, List.append_cancel_left_eq] at h
  obtain ⟨hcontainer, h⟩ := escape_inj h
  rw [List.append_cancel_left_eq] at h
  obtain ⟨hpod, h⟩ := escape_inj h
  rw [List.append_cancel_left_eq] at h
  exact ⟨Prod.ext (String.toList_inj.1 hpod) (String.toList_inj.1 hcontainer), Text.decimal_inj h⟩

variable (report : Report)

theorem lineFeed_not_mem_shown (n : Nat) : '\n' ∉ Decimal.shown n :=
  fun hmem => absurd (Text.isDigit_of_mem_decimal hmem) (by decide)

theorem lineFeed_not_mem_shownInt (n : Int) : '\n' ∉ Decimal.shownInt n := by
  unfold Decimal.shownInt
  split <;> simp [lineFeed_not_mem_shown]

theorem clean_groupFamily {name help : String} (hname : '\n' ∉ name.toList)
    (hhelp : '\n' ∉ help.toList) (counter : Counts → UInt64) :
    Clean (report.groupFamily name help counter) := by
  have hkind : '\n' ∉ "counter".toList := by decide
  refine ⟨hname, hhelp, hkind, ?_, ?_⟩
  · intro sample hmem label hlabel
    obtain ⟨sum, -, rfl⟩ := List.mem_map.1 hmem
    simp only [List.mem_cons, List.not_mem_nil, or_false] at hlabel
    rcases hlabel with rfl | rfl <;> dsimp only <;> decide
  · intro sample hmem
    obtain ⟨sum, -, rfl⟩ := List.mem_map.1 hmem
    exact lineFeed_not_mem_shown _

theorem clean_families : ∀ family ∈ report.families, Clean family := by
  intro family hmem
  simp only [families, List.mem_cons, List.not_mem_nil, or_false] at hmem
  rcases hmem with rfl | rfl | rfl | rfl | rfl
  · exact report.clean_groupFamily (by decide) (by decide) _
  · exact report.clean_groupFamily (by decide) (by decide) _
  · exact report.clean_groupFamily (by decide) (by decide) _
  · constructor <;> dsimp only
    · decide
    · decide
    · decide
    · simp
    · simp [lineFeed_not_mem_shown]
  · constructor <;> dsimp only
    · decide
    · decide
    · decide
    · cases report.node <;> simp [nodeSample]
    · cases report.node <;> simp [nodeSample, lineFeed_not_mem_shownInt]

theorem labels_groupFamily (name help : String) (counter : Counts → UInt64) :
    ∀ sample ∈ (report.groupFamily name help counter).samples, sample.labels ≠ [] := by
  intro sample hmem
  obtain ⟨sum, -, rfl⟩ := List.mem_map.1 hmem
  exact List.cons_ne_nil _ _

def familyNames : List String :=
  groupCounters.map Prod.fst ++ ["dentry_reclaim_total", "dentry_count"]

theorem names_families : report.families.map MetricFamily.name = familyNames :=
  rfl

/-- The names of the families are told apart by how they begin. -/
theorem apart_of_split {before after : List MetricFamily} {family : MetricFamily}
    (hsplit : report.families = before ++ family :: after) :
    ∀ other ∈ (before ++ after).map MetricFamily.name, Apart family.name other := by
  have hnames : familyNames.Pairwise Apart := by decide
  rw [← report.names_families, hsplit, List.map_append, List.map_cons, List.pairwise_append,
    List.pairwise_cons] at hnames
  obtain ⟨-, ⟨hafter, -⟩, hbefore⟩ := hnames
  intro other hmem
  rw [List.map_append, List.mem_append] at hmem
  rcases hmem with hmem | hmem
  · have hapart := hbefore other hmem family.name List.mem_cons_self
    exact ⟨hapart.right, hapart.left⟩
  · exact hafter other hmem

/-- The lines of a family are its samples. -/
theorem linesFrom_exposition {family : MetricFamily} (h : family ∈ report.families) :
    (linesFrom family.name report.exposition).Perm (family.samples.map (lineOf family.name)) := by
  obtain ⟨before, after, hsplit⟩ := List.append_of_mem h
  have hnames : ∀ name ∈ familyNames, name.toList ≠ [] ∧ name.toList.head? ≠ some '#' := by
    decide
  obtain ⟨hname, hmark⟩ := hnames family.name (List.mem_map_of_mem h)
  exact linesFrom_write hsplit (report.apart_of_split hsplit) report.clean_families hname hmark

theorem linesFrom_groupFamily {name : String} {counter : Counts → UInt64}
    (h : (name, counter) ∈ groupCounters) :
    (linesFrom name report.exposition).Perm
      ((report.groupFamily name "" counter).samples.map (lineOf name)) := by
  have hmem : ∃ help, report.groupFamily name help counter ∈ report.families := by
    simp only [groupCounters, List.mem_cons, List.not_mem_nil, or_false, Prod.mk.injEq] at h
    rcases h with ⟨rfl, rfl⟩ | ⟨rfl, rfl⟩ | ⟨rfl, rfl⟩
    · exact ⟨_, .head _⟩
    · exact ⟨_, .tail _ (.head _)⟩
    · exact ⟨_, .tail _ (.tail _ (.head _))⟩
  obtain ⟨help, hmem⟩ := hmem
  exact report.linesFrom_exposition hmem

/-- The samples of a family that counts per group are its lines in the exposition. -/
theorem sampleLines_exposition {name : String} {counter : Counts → UInt64}
    (h : (name, counter) ∈ groupCounters) :
    (sampleLines name report.exposition).Perm (linesFrom name report.exposition) :=
  sampleLines_perm (report.linesFrom_groupFamily h) (report.labels_groupFamily name "" counter)

/-! ## The page -/

def sumLine (name : String) (sum : GroupReport × UInt64) : List Char :=
  lineOf name
    { labels := [("container", sum.1.container), ("pod", sum.1.pod)]
      value := Decimal.shown sum.2.toNat }

def nodeLine (kind : String) (value : Int) : List Char :=
  lineOf "dentry_count" { labels := [("type", kind)], value := Decimal.shownInt value }

example : nodeLine "unused" (-12) = "dentry_count\x7btype=\"unused\"\x7d -12".toList := by
  decide +kernel

def nodeLines : Option NodeState → List (List Char)
  | none => []
  | some node =>
      [nodeLine "total" node.total, nodeLine "unused" node.unused,
        nodeLine "negative" node.negative]

/-- The page shows the groups of a report, merged by labels, its reclaim passes and its node. -/
structure ShownOn (report : Report) (page : String) : Prop where
  merged : ∀ name counter, (name, counter) ∈ groupCounters → ∃ sums,
    Sums counter report.groups sums ∧ (linesFrom name page).Perm (sums.map (sumLine name))
  pairs : report.Separated → ∀ name counter, (name, counter) ∈ groupCounters →
    (∀ pair ∈ report.pairs, report.sum counter pair < 2 ^ 53) →
    (linesFrom name page).Perm
      (report.pairs.map fun pair => pairLine name pair (report.sum counter pair))
  reclaims : linesFrom "dentry_reclaim_total" page =
    ["dentry_reclaim_total ".toList ++ Decimal.shown report.reclaims.toNat]
  node : (linesFrom "dentry_count" page).Perm (nodeLines report.node)
  nothing_else : ∀ line ∈ page.toList.splitOn '\n', line = [] ∨ line.head? = some '#' ∨
    ∃ name ∈ familyNames, name.toList <+: line

variable {report}

/-- While labels are told apart, each pair has one line with the sum over its groups. -/
theorem Separated.pairLines (h : report.Separated) {name : String} {counter : Counts → UInt64}
    (hfamily : (name, counter) ∈ groupCounters)
    (hsmall : ∀ pair ∈ report.pairs, report.sum counter pair < 2 ^ 53) :
    (linesFrom name report.exposition).Perm
      (report.pairs.map fun pair => pairLine name pair (report.sum counter pair)) := by
  refine (report.linesFrom_groupFamily hfamily).trans ?_
  refine ((h.samples_perm name "" counter).map (lineOf name)).trans (List.Perm.of_eq ?_)
  rw [List.map_map]
  apply List.map_congr_left
  intro pair hmem
  have hless := hsmall pair hmem
  have hword : (UInt64.ofNat (report.sum counter pair)).toNat = report.sum counter pair :=
    UInt64.toNat_ofNat_of_lt' (Nat.lt_trans hless (by decide))
  rw [Function.comp_apply, hword, Decimal.shown_of_lt hless, pairLine]

theorem shownOn_exposition (report : Report) : report.ShownOn report.exposition where
  merged name counter hfamily := by
    refine ⟨totals counter report.groups, sums_totals counter report.groups, ?_⟩
    refine (report.linesFrom_groupFamily hfamily).trans (List.Perm.of_eq ?_)
    rw [groupFamily, List.map_map]
    rfl
  pairs hseparated name counter hfamily := hseparated.pairLines hfamily
  reclaims := by
    have hlines := report.linesFrom_exposition (.tail _ (.tail _ (.tail _ (.head _))))
    have hline : lineOf "dentry_reclaim_total"
        { labels := [], value := Decimal.shown report.reclaims.toNat } =
        "dentry_reclaim_total ".toList ++ Decimal.shown report.reclaims.toNat := by
      simp [lineOf, writeLabels]
    exact hline ▸ hlines.eq_singleton
  node := by
    have hlines := report.linesFrom_exposition
      (.tail _ (.tail _ (.tail _ (.tail _ (.head _)))))
    refine hlines.trans (List.Perm.of_eq ?_)
    cases report.node <;> rfl
  nothing_else _ := mem_splitOn_write report.clean_families

end DentryWatch.Report
