import DentryWatch.Proofs.Report.Totals
import DentryWatch.Proofs.Text.Splitting
import DentryWatch.Proofs.Text.Tables

/-!
# Reading sums off an exposition

An exposition is made of lines, and the samples of a family are the lines that begin
with its name and a brace. Whole numbers are shown exactly as long as they have at
most 53 bits.
-/

namespace DentryWatch

/-! ## Exact numbers -/

namespace Decimal

theorem WholeDouble.eq_of_admits {n m : Nat} (h : admits ⟨n, 0⟩ m = true) : m = n := by
  have hvalue : value ⟨n, 0⟩ = n := Nat.shiftLeft_zero
  have hbelow : (if n = leadingBit then 1 <<< 0 / 2 else 1 <<< 0) ≤ 1 := by
    split <;> decide
  unfold admits at h
  rw [hvalue] at h
  dsimp only at h
  rw [show (1 <<< 0 : Nat) = 1 from rfl] at h hbelow
  generalize (if n = leadingBit then 1 / 2 else 1) = below at h hbelow
  split at h <;> simp only [Bool.and_eq_true, decide_eq_true_eq] at h <;> omega

theorem WholeDouble.eq_of_onGrid {n places m : Nat} (h : onGrid? ⟨n, 0⟩ places = some m) :
    m = n := by
  unfold onGrid? at h
  dsimp only at h
  split at h
  · next hlow hhigh =>
      have hlower := eq_of_admits hlow
      have hupper := eq_of_admits hhigh
      have hm := Option.some.inj h
      split at hm <;> omega
  · next hlow hhigh =>
      rw [← Option.some.inj h]
      exact eq_of_admits hlow
  · next hlow hhigh =>
      rw [← Option.some.inj h]
      exact eq_of_admits hhigh
  · cases h

theorem shown_of_lt {n : Nat} (h : n < 2 ^ 53) : shown n = Text.decimal n := by
  have hnearest : WholeDouble.nearest n = ⟨n, 0⟩ := if_pos h
  have hshortest : (⟨n, 0⟩ : WholeDouble).shortest = n := by
    rw [WholeDouble.shortest]
    cases hfound : (List.range (Text.decimal (WholeDouble.value ⟨n, 0⟩)).length).reverse.findSome?
        (WholeDouble.onGrid? ⟨n, 0⟩) with
    | none => exact Nat.shiftLeft_zero
    | some m =>
        obtain ⟨places, -, hplaces⟩ := List.exists_of_findSome?_eq_some hfound
        exact WholeDouble.eq_of_onGrid hplaces
  rw [shown, hnearest, hshortest]

/-- Numbers of at most 53 bits are shown exactly, with and without a sign. -/
theorem shows_of_lt {n : Nat} (h : n < 2 ^ 53) :
    shown n = Text.decimal n ∧ shownInt n = Text.decimal n ∧
      (0 < n → shownInt (-n) = '-' :: Text.decimal n) := by
  have hshown := shown_of_lt h
  refine ⟨hshown, ?_, fun hpos => ?_⟩
  · rw [shownInt, if_neg (by omega), Int.natAbs_natCast, hshown]
  · rw [shownInt, if_pos (by omega), Int.natAbs_neg, Int.natAbs_natCast, hshown]

end Decimal

/-! ## Lines -/

namespace Exposition

def lineOf (name : String) (sample : Sample) : List Char :=
  name.toList ++ writeLabels sample.labels ++ ' ' :: sample.value

def headerLines (family : MetricFamily) : List (List Char) :=
  ["# HELP ".toList ++ family.name.toList ++ ' ' :: family.help.toList,
    "# TYPE ".toList ++ family.name.toList ++ ' ' :: family.kind.toList]

def familyLines (family : MetricFamily) : List (List Char) :=
  if family.samples.isEmpty then []
  else
    headerLines family ++
      (family.samples.mergeSort fun a b => labelsLE a.labels b.labels).map (lineOf family.name)

theorem writeFamily_eq (family : MetricFamily) :
    writeFamily family = (familyLines family).flatMap (· ++ ['\n']) := by
  unfold writeFamily familyLines
  split
  · rfl
  · have htext : ∀ text : String, toString text = text := fun _ => rfl
    rw [List.flatMap_append, List.flatMap_map]
    congr 1
    simp [headerLines, htext]

/-- Nothing in the family breaks a line. -/
structure Clean (family : MetricFamily) : Prop where
  name : '\n' ∉ family.name.toList
  help : '\n' ∉ family.help.toList
  kind : '\n' ∉ family.kind.toList
  labels : ∀ sample ∈ family.samples, ∀ label ∈ sample.labels, '\n' ∉ label.1.toList
  value : ∀ sample ∈ family.samples, '\n' ∉ sample.value

theorem lineFeed_not_mem_escape (text : List Char) : '\n' ∉ text.flatMap escapeChar := by
  intro hmem
  obtain ⟨c, -, hc⟩ := List.mem_flatMap.1 hmem
  unfold escapeChar at hc
  split at hc <;> simp_all [eq_comm]

theorem escapeChar_append_inj {c d : Char} {s t : List Char}
    (h : escapeChar c ++ s = escapeChar d ++ t) : c = d ∧ s = t := by
  unfold escapeChar at h
  split at h <;> split at h <;> grind

theorem escapeChar_append_ne (c : Char) (s t : List Char) : escapeChar c ++ s ≠ '"' :: t := by
  unfold escapeChar
  split <;> simp_all

/-- A label value ends at the first quote that is not escaped. -/
theorem escape_inj {a b s t : List Char}
    (h : a.flatMap escapeChar ++ '"' :: s = b.flatMap escapeChar ++ '"' :: t) : a = b ∧ s = t := by
  induction a generalizing b with
  | nil =>
      cases b with
      | nil => exact ⟨rfl, (List.cons.inj h).2⟩
      | cons d rest =>
          rw [List.flatMap_cons, List.append_assoc] at h
          exact absurd h.symm (escapeChar_append_ne d _ _)
  | cons c more ih =>
      cases b with
      | nil =>
          rw [List.flatMap_cons, List.append_assoc] at h
          exact absurd h (escapeChar_append_ne c _ _)
      | cons d rest =>
          rw [List.flatMap_cons, List.flatMap_cons, List.append_assoc, List.append_assoc] at h
          obtain ⟨rfl, hrest⟩ := escapeChar_append_inj h
          obtain ⟨rfl, htail⟩ := ih hrest
          exact ⟨rfl, htail⟩

theorem lineFeed_not_mem_writeLabels {labels : List (String × String)}
    (h : ∀ label ∈ labels, '\n' ∉ label.1.toList) : '\n' ∉ writeLabels labels := by
  have hlabel : ∀ label ∈ labels, '\n' ∉ writeLabel label := by
    intro label hmem
    have hescaped := lineFeed_not_mem_escape label.2.toList
    simp only [writeLabel, List.mem_append, not_or]
    exact ⟨⟨⟨h label hmem, by decide⟩, hescaped⟩, by decide⟩
  have hjoined : '\n' ∉ [','].intercalate (labels.map writeLabel) := by
    apply not_mem_intercalate (by decide)
    intro part hpart
    obtain ⟨label, hmem, rfl⟩ := List.mem_map.1 hpart
    exact hlabel label hmem
  unfold writeLabels
  split
  · exact List.not_mem_nil
  · simp [hjoined]

theorem Clean.lines {family : MetricFamily} (h : Clean family) :
    ∀ line ∈ familyLines family, '\n' ∉ line := by
  intro line hmem
  unfold familyLines at hmem
  split at hmem
  · cases hmem
  rcases List.mem_append.1 hmem with hheader | hsample
  · simp only [headerLines, List.mem_cons, List.not_mem_nil, or_false] at hheader
    rcases hheader with rfl | rfl
    · simp [h.name, h.help]
    · simp [h.name, h.kind]
  · obtain ⟨sample, hsorted, rfl⟩ := List.mem_map.1 hsample
    have hmem : sample ∈ family.samples := (List.mergeSort_perm _ _).mem_iff.1 hsorted
    simp [lineOf, h.name, h.value sample hmem,
      lineFeed_not_mem_writeLabels (h.labels sample hmem)]

/-! ## Samples of one family -/

/-- The lines of a text that begin with a name. -/
def linesFrom (name text : String) : List (List Char) :=
  (text.toList.splitOn '\n').filter name.toList.isPrefixOf

/-- Whether a line shows a sample with labels of the family. -/
def shows (name : String) (line : List Char) : Bool := (name.toList ++ ['{']).isPrefixOf line

/-- The lines of a text that show samples with labels of a family. -/
def sampleLines (name text : String) : List (List Char) :=
  (text.toList.splitOn '\n').filter (shows name)

/-- The names begin neither with each other nor with the mark of a comment. -/
structure Apart (name other : String) : Prop where
  left : ¬ name.toList <+: other.toList
  right : ¬ other.toList <+: name.toList

instance (name other : String) : Decidable (Apart name other) :=
  decidable_of_iff (¬ name.toList <+: other.toList ∧ ¬ other.toList <+: name.toList)
    ⟨fun h => ⟨h.1, h.2⟩, fun h => ⟨h.left, h.right⟩⟩

theorem filter_headerLines {name : String} (hname : name.toList ≠ [])
    (hmark : name.toList.head? ≠ some '#') (family : MetricFamily) :
    (headerLines family).filter name.toList.isPrefixOf = [] := by
  obtain ⟨c, rest, hcons⟩ := List.exists_cons_of_ne_nil hname
  have hc : c ≠ '#' := by
    rintro rfl
    exact hmark (by rw [hcons]; rfl)
  simp [headerLines, hcons, hc]

theorem filter_familyLines_of_apart {name : String} {family : MetricFamily}
    (hname : name.toList ≠ []) (hmark : name.toList.head? ≠ some '#')
    (h : Apart name family.name) :
    (familyLines family).filter name.toList.isPrefixOf = [] := by
  unfold familyLines
  split
  · rfl
  rw [List.filter_append, filter_headerLines hname hmark, List.nil_append, List.filter_eq_nil_iff]
  intro line hmem hshows
  obtain ⟨sample, -, rfl⟩ := List.mem_map.1 hmem
  have hprefix := List.isPrefixOf_iff_prefix.1 hshows
  rw [lineOf, List.append_assoc] at hprefix
  rcases List.prefix_or_prefix_of_prefix hprefix (List.prefix_append _ _) with hleft | hright
  · exact h.left hleft
  · exact h.right hright

theorem filter_familyLines_self {family : MetricFamily} (hname : family.name.toList ≠ [])
    (hmark : family.name.toList.head? ≠ some '#') :
    ((familyLines family).filter family.name.toList.isPrefixOf).Perm
      (family.samples.map (lineOf family.name)) := by
  unfold familyLines
  split
  · next hempty => rw [List.isEmpty_iff.1 hempty]; rfl
  · have hperm := (List.mergeSort_perm family.samples fun a b =>
      labelsLE a.labels b.labels).map (lineOf family.name)
    rw [List.filter_append, filter_headerLines hname hmark, List.nil_append, List.filter_eq_self.2]
    · exact hperm
    · intro line hmem
      obtain ⟨sample, -, rfl⟩ := List.mem_map.1 hmem
      simp [lineOf, List.isPrefixOf_iff_prefix]

theorem splitOn_write {families : List MetricFamily} (h : ∀ family ∈ families, Clean family) :
    (write families).toList.splitOn '\n' =
      (families.mergeSort fun a b => textLE a.name b.name).flatMap familyLines ++ [[]] := by
  have hsorted := List.mergeSort_perm families fun a b => textLE a.name b.name
  have htext : (write families).toList =
      ((families.mergeSort fun a b => textLE a.name b.name).flatMap familyLines).flatMap
        (· ++ ['\n']) := by
    rw [write, String.toList_ofList, List.flatMap_assoc]
    apply List.flatMap_congr
    intro family _
    exact writeFamily_eq family
  rw [htext, Text.splitOn_flatMap]
  intro line hmem
  obtain ⟨family, hfamily, hline⟩ := List.mem_flatMap.1 hmem
  exact (h family (hsorted.mem_iff.1 hfamily)).lines line hline

/-- The lines that begin with the name of a family are its samples, whatever else is written. -/
theorem linesFrom_write {families before after : List MetricFamily} {family : MetricFamily}
    (hsplit : families = before ++ family :: after)
    (hapart : ∀ other ∈ (before ++ after).map MetricFamily.name, Apart family.name other)
    (hclean : ∀ member ∈ families, Clean member) (hname : family.name.toList ≠ [])
    (hmark : family.name.toList.head? ≠ some '#') :
    (linesFrom family.name (write families)).Perm (family.samples.map (lineOf family.name)) := by
  have hsorted := List.mergeSort_perm families fun a b => textLE a.name b.name
  have hothers : ∀ others : List MetricFamily, (∀ other ∈ others, Apart family.name other.name) →
      (others.flatMap familyLines).filter family.name.toList.isPrefixOf = [] := by
    intro others h
    rw [List.filter_flatMap, List.flatMap_eq_nil_iff]
    intro other hmem
    exact filter_familyLines_of_apart hname hmark (h other hmem)
  have hlast : ([[]] : List (List Char)).filter family.name.toList.isPrefixOf = [] := by
    simpa using hname
  rw [linesFrom, splitOn_write hclean, List.filter_append, hlast, List.append_nil]
  refine ((hsorted.flatMap_right familyLines).filter _).trans ?_
  rw [hsplit, List.flatMap_append, List.flatMap_cons, List.filter_append, List.filter_append,
    hothers before fun other hmem =>
      hapart _ (List.mem_map_of_mem (List.mem_append_left after hmem)),
    hothers after fun other hmem =>
      hapart _ (List.mem_map_of_mem (List.mem_append_right before hmem)),
    List.nil_append, List.append_nil]
  exact filter_familyLines_self hname hmark

/-- A line that is written is a comment or begins with the name of a family. -/
theorem mem_splitOn_write {families : List MetricFamily} (h : ∀ family ∈ families, Clean family)
    {line : List Char} (hmem : line ∈ (write families).toList.splitOn '\n') :
    line = [] ∨ line.head? = some '#' ∨
      ∃ name ∈ families.map MetricFamily.name, name.toList <+: line := by
  rw [splitOn_write h, List.mem_append, List.mem_singleton] at hmem
  rcases hmem with hmem | rfl
  · obtain ⟨family, hsorted, hline⟩ := List.mem_flatMap.1 hmem
    have hfamily : family ∈ families := (List.mergeSort_perm _ _).mem_iff.1 hsorted
    unfold familyLines at hline
    split at hline
    · cases hline
    rcases List.mem_append.1 hline with hheader | hsample
    · simp only [headerLines, List.mem_cons, List.not_mem_nil, or_false] at hheader
      rcases hheader with rfl | rfl
      · exact .inr (.inl (by simp))
      · exact .inr (.inl (by simp))
    · obtain ⟨sample, -, rfl⟩ := List.mem_map.1 hsample
      refine .inr (.inr ⟨family.name, List.mem_map_of_mem hfamily, ?_⟩)
      rw [lineOf, List.append_assoc]
      exact List.prefix_append _ _
  · exact .inl rfl

theorem sampleLines_eq (name text : String) :
    sampleLines name text = (linesFrom name text).filter (shows name) := by
  rw [sampleLines, linesFrom, List.filter_filter]
  apply List.filter_congr
  intro line _
  have hname : shows name line = true → name.toList.isPrefixOf line = true := by
    intro h
    rw [List.isPrefixOf_iff_prefix]
    exact (List.prefix_append _ _).trans (List.isPrefixOf_iff_prefix.1 h)
  rw [Bool.eq_iff_iff, Bool.and_eq_true]
  exact ⟨fun h => ⟨h, hname h⟩, And.left⟩

/-- Where all samples have labels, these lines are the samples with labels. -/
theorem sampleLines_perm {name text : String} {samples : List Sample}
    (h : (linesFrom name text).Perm (samples.map (lineOf name)))
    (hlabels : ∀ sample ∈ samples, sample.labels ≠ []) :
    (sampleLines name text).Perm (linesFrom name text) := by
  rw [sampleLines_eq, List.filter_eq_self.2]
  intro line hmem
  obtain ⟨sample, hsample, rfl⟩ := List.mem_map.1 (h.mem_iff.1 hmem)
  simp [shows, lineOf, writeLabels, hlabels sample hsample, List.isPrefixOf_iff_prefix]

end Exposition

end DentryWatch
