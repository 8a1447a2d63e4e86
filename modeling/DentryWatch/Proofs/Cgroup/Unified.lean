import DentryWatch.Proofs.Cgroup.Classes
import DentryWatch.Proofs.Text.Lines

/-!
# Paths of the unified hierarchy

The path is on the first line that begins with `0::`. It is cleaned and, if its
beginning was lost, restored; listed again it is the same, and so it is when
detours stand in front of what was listed.
-/

namespace DentryWatch

namespace Text

variable {start : List Char}

theorem linesAfter_append {before : List Char} (h : before = [] ∨ before.getLast? = some '\n')
    (rest : List Char) :
    linesAfter start (before ++ rest) = linesAfter start before ++ linesAfter start rest := by
  rw [linesAfter, lines_append h, List.filterMap_append]
  rfl

/-- The first line that begins with the given characters. -/
theorem head?_linesAfter_eq_some_iff {text raw : List Char} :
    (linesAfter start text).head? = some raw ↔ ∃ earlier later,
      lines text = earlier ++ (start ++ raw) :: later ∧ ∀ line ∈ earlier, ¬ start <+: line := by
  rw [linesAfter, List.head?_filterMap, List.findSome?_eq_some_iff]
  constructor
  · rintro ⟨earlier, line, later, hlines, hline, hearlier⟩
    rw [← List.isPrefixOf?_eq_some_iff_append_eq.1 hline] at hlines
    exact ⟨earlier, later, hlines,
      fun line hmem => (isPrefixOf?_eq_none_iff start line).1 (hearlier line hmem)⟩
  · rintro ⟨earlier, later, hlines, hearlier⟩
    exact ⟨earlier, _, later, hlines, List.isPrefixOf?_eq_some_iff_append_eq.2 rfl,
      fun line hmem => (isPrefixOf?_eq_none_iff start line).2 (hearlier line hmem)⟩

theorem head?_linesAfter {text raw : List Char} {later : List (List Char)}
    (h : lines text = (start ++ raw) :: later) : (linesAfter start text).head? = some raw :=
  head?_linesAfter_eq_some_iff.2 ⟨[], later, h, fun _ hnone => absurd hnone List.not_mem_nil⟩

/-- What is inserted in the first line, in front of a slash, changes nothing after it. -/
theorem exists_linesAfter (hstart : '\n' ∉ start) (after : List Char) :
    ∃ kept, ∀ inserted, '\n' ∉ inserted →
      (linesAfter start (start ++ (inserted ++ '/' :: after))).head? =
        some (inserted ++ '/' :: kept) := by
  have hline : ∀ {inserted raw : List Char}, '\n' ∉ inserted → '\n' ∉ raw →
      '\n' ∉ start ++ (inserted ++ '/' :: raw) := by
    intro inserted raw hinserted hraw
    simp [hstart, hinserted, hraw]
  by_cases hfeed : '\n' ∈ after
  · obtain ⟨raw, rest, rfl, hraw⟩ := List.eq_append_cons_of_mem hfeed
    -- the line loses at most a carriage return behind the slash, whatever is inserted
    refine ⟨dropReturn raw, fun inserted hinserted => ?_⟩
    have hlines : lines (start ++ (inserted ++ '/' :: (raw ++ '\n' :: rest))) =
        (start ++ (inserted ++ '/' :: dropReturn raw)) :: lines rest := by
      have hsplit : start ++ (inserted ++ '/' :: (raw ++ '\n' :: rest)) =
          start ++ (inserted ++ '/' :: raw) ++ '\n' :: rest := by simp
      rw [hsplit, lines_append_cons, List.splitOn_eq_singleton (hline hinserted hraw),
        List.map_singleton, ← List.append_assoc, dropReturn_append _ _ (by decide)]
      simp
    exact head?_linesAfter hlines
  · exact ⟨after, fun inserted hinserted => head?_linesAfter
      (lines_of_not_mem (hline hinserted hfeed) (by simp))⟩

end Text

namespace Cgroup

theorem unifiedPath?_eq_some_iff {text path : List Char} :
    unifiedPath? text = some path ↔ ∃ earlier raw later,
      Text.lines text = earlier ++ ("0::".toList ++ raw) :: later ∧
        (∀ line ∈ earlier, ¬ "0::".toList <+: line) ∧ path = restore (clean raw) := by
  rw [unifiedPath?, Option.map_eq_some_iff]
  constructor
  · rintro ⟨raw, hraw, rfl⟩
    obtain ⟨earlier, later, hlines, hearlier⟩ := Text.head?_linesAfter_eq_some_iff.1 hraw
    exact ⟨earlier, raw, later, hlines, hearlier, rfl⟩
  · rintro ⟨earlier, raw, later, hlines, hearlier, rfl⟩
    exact ⟨raw, Text.head?_linesAfter_eq_some_iff.2 ⟨earlier, later, hlines, hearlier⟩, rfl⟩

/-- What is listed is an absolute path of proper components on one line. -/
theorem exists_parts_of_unifiedPath? {text path : List Char} (h : unifiedPath? text = some path) :
    ∃ found, path = absolute found ∧ (∀ part ∈ found, Proper part) ∧ '\n' ∉ path := by
  obtain ⟨earlier, raw, later, hlines, -, rfl⟩ := unifiedPath?_eq_some_iff.1 h
  have hparts : ∀ part ∈ cleanParts raw, Proper part ∧ part ⊆ raw := fun part => mem_cleanParts
  have hraw : '\n' ∉ raw := by
    have hline : "0::".toList ++ raw ∈ Text.lines text := by simp [hlines]
    exact fun hfeed => Text.of_mem_lines hline (List.mem_append_right _ hfeed)
  obtain ⟨found, hfound, hmem⟩ := (restores fun part hmem => (hparts part hmem).1).exists_parts
  have hfeed : ∀ part ∈ found, '\n' ∉ part := by
    intro part hpart
    rcases hmem part hpart with rfl | hpart
    · decide
    · exact fun hc => hraw ((hparts part hpart).2 hc)
  refine ⟨found, hfound, fun part hpart => ?_, ?_⟩
  · rcases hmem part hpart with rfl | hpart
    · exact proper_podMark
    · exact (hparts part hpart).1
  · rw [clean, hfound]
    exact not_mem_absolute (by decide) hfeed

/-- What was listed is listed again as it is. -/
theorem unifiedPath?_fixed {text path : List Char} (h : unifiedPath? text = some path) :
    unifiedPath? ("0::".toList ++ path) = some path := by
  obtain ⟨found, hpath, hproper, hfeed⟩ := exists_parts_of_unifiedPath? h
  obtain ⟨-, raw, -, -, -, hraw⟩ := unifiedPath?_eq_some_iff.1 h
  have hline : '\n' ∉ "0::".toList ++ path := by
    rw [List.mem_append, not_or]
    exact ⟨by decide, hfeed⟩
  have hclean : clean path = path := by rw [hpath, clean_absolute hproper]
  rw [unifiedPath?, Text.head?_linesAfter (Text.lines_of_not_mem hline (by simp)),
    Option.map_some, hclean, hraw, restore_restore]

/-- Detours in front of an absolute path on the line change nothing. -/
theorem unifiedPath?_detours {pieces : List (List Char)} (h : ∀ piece ∈ pieces, piece ∈ detours)
    {before : List Char} (hbefore : before = [] ∨ before.getLast? = some '\n') (after : List Char) :
    unifiedPath? (before ++ ("0::".toList ++ (pieces.flatten ++ '/' :: after))) =
      unifiedPath? (before ++ ("0::".toList ++ '/' :: after)) := by
  have hfeed : '\n' ∉ pieces.flatten := by
    intro hmem
    obtain ⟨piece, hpiece, hc⟩ := List.mem_flatten.1 hmem
    have hdetours : ∀ piece ∈ detours, '\n' ∉ piece := by decide
    exact hdetours piece (h piece hpiece) hc
  obtain ⟨kept, hkept⟩ := Text.exists_linesAfter (show '\n' ∉ "0::".toList by decide) after
  have hplain := hkept [] List.not_mem_nil
  rw [List.nil_append, List.nil_append] at hplain
  rw [unifiedPath?, unifiedPath?, Text.linesAfter_append hbefore, Text.linesAfter_append hbefore,
    List.head?_append, List.head?_append, hkept _ hfeed, hplain]
  cases (Text.linesAfter "0::".toList before).head? with
  | none => exact congrArg (fun path => some (restore path)) (clean_detours h kept)
  | some raw => rfl

end Cgroup

end DentryWatch
