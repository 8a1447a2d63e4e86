import DentryWatch.PathFilter
import DentryWatch.Proofs.Text.Splitting
import DentryWatch.Proofs.Text.Words

/-!
# Path filters are canonical

A filter keeps the entries of its list that are more than blanks, trimmed. Its patterns
read again are the same filter. The filter of two lists joined by a comma lets through
what either of them lets through, unless one of them is all blank and adds nothing.
-/

namespace DentryWatch.PathFilter

def entries (spec : String) : List (List Char) := spec.toList.splitOn ','

/-- An entry is more than blanks, so that not everything passes. -/
def Restricts (spec : String) : Prop := ∃ entry ∈ entries spec, ¬ Text.AllBlank entry

instance (spec : String) : Decidable (Restricts spec) := List.decidableBEx _ _

def spelled (filter : PathFilter) : String := String.ofList ([','].intercalate filter.patterns)

theorem parse_eq (spec : String) : parse spec = ofEntries (entries spec) := rfl

/-! ## The patterns of a list -/

theorem mem_ofEntries {list : List (List Char)} {pattern : List Char} :
    pattern ∈ (ofEntries list).patterns ↔
      ∃ entry ∈ list, ¬ Text.AllBlank entry ∧ Text.Trims entry pattern := by
  simp only [ofEntries, List.mem_filter, List.mem_map, Text.trims_iff, ← Text.trim_eq_nil_iff]
  constructor
  · rintro ⟨⟨entry, hmem, rfl⟩, hne⟩
    exact ⟨entry, hmem, by simpa using hne, rfl⟩
  · rintro ⟨entry, hmem, hne, rfl⟩
    exact ⟨⟨entry, hmem, rfl⟩, by simpa using hne⟩

theorem isEmpty_parse_iff {spec : String} :
    (parse spec).isEmpty = true ↔ ∀ entry ∈ entries spec, Text.AllBlank entry := by
  rw [isEmpty, List.isEmpty_iff, parse_eq]
  simp [ofEntries, List.filter_eq_nil_iff, Text.trim_eq_nil_iff]

theorem Restricts.isEmpty_parse {spec : String} (h : Restricts spec) :
    (parse spec).isEmpty = false := by
  obtain ⟨entry, hmem, hentry⟩ := h
  rw [← Bool.not_eq_true, isEmpty_parse_iff]
  exact fun hblank => hentry (hblank entry hmem)

theorem accepts_parse_iff {spec path : String} :
    (parse spec).accepts path = true ↔
      (∀ entry ∈ entries spec, Text.AllBlank entry) ∨
        ∃ entry ∈ entries spec, ¬ Text.AllBlank entry ∧
          ∃ core, Text.Trims entry core ∧ core <:+: path.toList := by
  rw [accepts, Bool.or_eq_true, isEmpty_parse_iff, List.any_eq_true]
  refine or_congr_right ⟨?_, ?_⟩
  · rintro ⟨pattern, hpattern, hoccurs⟩
    obtain ⟨entry, hmem, hentry, htrims⟩ := mem_ofEntries.1 hpattern
    exact ⟨entry, hmem, hentry, pattern, htrims, Text.occursIn_iff.1 hoccurs⟩
  · rintro ⟨entry, hmem, hentry, core, htrims, hoccurs⟩
    exact ⟨core, mem_ofEntries.2 ⟨entry, hmem, hentry, htrims⟩, Text.occursIn_iff.2 hoccurs⟩

/-- A filter with a pattern does not let the empty path through. -/
theorem Restricts.accepts_empty {spec : String} (h : Restricts spec) :
    (parse spec).accepts "" = false := by
  rw [accepts, h.isEmpty_parse, Bool.false_or, List.any_eq_false]
  intro pattern hpattern hoccurs
  exact ne_nil_of_mem_ofEntries hpattern (List.infix_nil.1 (Text.occursIn_iff.1 hoccurs))

/-! ## Reading the patterns again -/

theorem patterns_ofEntries_self {list : List (List Char)}
    (h : ∀ entry ∈ list, entry ≠ [] ∧ Text.trim entry = entry) :
    (ofEntries list).patterns = list := by
  have hmap : list.map Text.trim = list :=
    (List.map_congr_left fun entry hmem => (h entry hmem).2).trans (List.map_id _)
  rw [ofEntries, hmap, List.filter_eq_self]
  intro entry hmem
  simpa using (h entry hmem).1

theorem entries_spelled {filter : PathFilter} (hne : filter.patterns ≠ [])
    (h : ∀ pattern ∈ filter.patterns, ',' ∉ pattern) :
    entries filter.spelled = filter.patterns := by
  rw [entries, spelled, String.toList_ofList]
  exact List.splitOn_intercalate ',' h hne

theorem comma_not_mem_patterns {spec : String} {pattern : List Char}
    (h : pattern ∈ (parse spec).patterns) : ',' ∉ pattern := by
  obtain ⟨entry, hmem, -, htrims⟩ := mem_ofEntries.1 h
  rw [← Text.trims_iff.1 htrims]
  exact fun hcomma => (of_mem_splitOn hmem).1 (Text.trim_subset entry hcomma)

theorem trim_of_mem_patterns {spec : String} {pattern : List Char}
    (h : pattern ∈ (parse spec).patterns) : Text.trim pattern = pattern := by
  obtain ⟨entry, -, -, htrims⟩ := mem_ofEntries.1 h
  rw [← Text.trims_iff.1 htrims, Text.trim_trim]

theorem parse_spelled (spec : String) : parse (parse spec).spelled = parse spec := by
  by_cases hne : (parse spec).patterns = []
  · -- no pattern is spelled as one blank entry
    have hspelled : (parse spec).spelled = "" := by rw [spelled, hne]; rfl
    rw [hspelled]
    exact congrArg PathFilter.mk hne.symm
  · refine congrArg PathFilter.mk ?_
    rw [← entries, entries_spelled hne fun _ => comma_not_mem_patterns]
    exact patterns_ofEntries_self fun pattern hmem =>
      ⟨ne_nil_of_mem_ofEntries hmem, trim_of_mem_patterns hmem⟩

/-! ## Two lists joined -/

theorem entries_join (spec other : String) :
    entries (spec ++ "," ++ other) = entries spec ++ entries other := by
  have hcomma : (",").toList = [','] := rfl
  rw [entries, String.toList_append, String.toList_append, hcomma, List.append_assoc,
    List.singleton_append, List.splitOn_append_cons_self]
  rfl

theorem patterns_parse_join (spec other : String) :
    (parse (spec ++ "," ++ other)).patterns = (parse spec).patterns ++ (parse other).patterns := by
  rw [parse_eq, entries_join]
  simp only [ofEntries, List.map_append, List.filter_append]
  rfl

theorem restricts_join_iff {spec other : String} :
    Restricts (spec ++ "," ++ other) ↔ Restricts spec ∨ Restricts other := by
  simp only [Restricts, entries_join, List.mem_append, or_and_right, exists_or]

theorem accepts_parse_join {spec other : String} (hspec : Restricts spec)
    (hother : Restricts other) (path : String) :
    (parse (spec ++ "," ++ other)).accepts path =
      ((parse spec).accepts path || (parse other).accepts path) := by
  have hjoin : Restricts (spec ++ "," ++ other) := restricts_join_iff.2 (.inl hspec)
  rw [accepts, accepts, accepts, hspec.isEmpty_parse, hother.isEmpty_parse, hjoin.isEmpty_parse,
    patterns_parse_join, List.any_append]
  rfl

/-- A list that is all blank adds nothing on either side. -/
theorem parse_join_of_blank {spec other : String} (h : ¬ Restricts other) :
    parse (spec ++ "," ++ other) = parse spec ∧ parse (other ++ "," ++ spec) = parse spec := by
  have hblank : ∀ entry ∈ entries other, Text.AllBlank entry := by
    intro entry hmem
    by_contra hentry
    exact h ⟨entry, hmem, hentry⟩
  have hnone : (parse other).patterns = [] := List.isEmpty_iff.1 (isEmpty_parse_iff.2 hblank)
  have hafter : (parse (spec ++ "," ++ other)).patterns = (parse spec).patterns := by
    rw [patterns_parse_join, hnone, List.append_nil]
  have hbefore : (parse (other ++ "," ++ spec)).patterns = (parse spec).patterns := by
    rw [patterns_parse_join, hnone, List.nil_append]
  exact ⟨congrArg PathFilter.mk hafter, congrArg PathFilter.mk hbefore⟩

/--
The patterns of a filter are a list of the same filter. A path passes if the whole list is
blank or a trimmed entry occurs in it. Two lists that restrict something let through
together what one of them does; a blank one adds nothing and never lets everything through.
-/
theorem parse_composes_by_union (spec : String) :
    parse (parse spec).spelled = parse spec ∧
      (∀ path, (parse spec).accepts path = true ↔
        (∀ entry ∈ entries spec, Text.AllBlank entry) ∨
          ∃ entry ∈ entries spec, ¬ Text.AllBlank entry ∧
            ∃ core, Text.Trims entry core ∧ core <:+: path.toList) ∧
      ∀ other : String,
        (Restricts spec → Restricts other → ∀ path,
          (parse (spec ++ "," ++ other)).accepts path =
            ((parse spec).accepts path || (parse other).accepts path)) ∧
        (¬ Restricts other →
          parse (spec ++ "," ++ other) = parse spec ∧ parse (other ++ "," ++ spec) = parse spec) ∧
        (Restricts spec →
          (parse (spec ++ "," ++ other)).accepts "" = false ∧
            (parse (other ++ "," ++ spec)).accepts "" = false) := by
  refine ⟨parse_spelled spec, fun path => accepts_parse_iff, fun other => ⟨?_, ?_, ?_⟩⟩
  · exact fun hspec hother path => accepts_parse_join hspec hother path
  · exact parse_join_of_blank
  · intro hspec
    exact ⟨(restricts_join_iff.2 (.inl hspec)).accepts_empty,
      (restricts_join_iff.2 (.inr hspec)).accepts_empty⟩

/-- A pattern between an ideographic space and a tab, joined with another one and with blanks. -/
theorem parse_composes_by_union_blanks :
    let spec := "\u3000tmp\t, ,"
    let other := "log,,\u00A0"
    let blank := " ,\u2028"
    Restricts spec ∧ Restricts other ∧ ¬ Restricts blank ∧
      (parse spec).patterns = ["tmp".toList] ∧
      parse (parse spec).spelled = parse spec ∧
      (parse (spec ++ "," ++ other)).accepts "/var/log" = true ∧
      (parse (spec ++ "," ++ blank)).accepts "/var/log" = false := by
  intro spec other blank
  have hspec : Restricts spec := by decide +kernel
  have hother : Restricts other := by decide +kernel
  have hblank : ¬ Restricts blank := by decide +kernel
  obtain ⟨hagain, haccepts, hjoin⟩ := parse_composes_by_union spec
  have hunion := (hjoin other).1 hspec hother "/var/log"
  have hsame := ((hjoin blank).2.1 hblank).1
  refine ⟨hspec, hother, hblank, by decide +kernel, hagain, ?_, ?_⟩
  · rw [hunion]
    decide +kernel
  · rw [hsame]
    decide +kernel

end DentryWatch.PathFilter
