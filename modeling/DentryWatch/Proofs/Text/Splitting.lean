import Mathlib.Data.List.Basic

/-!
# Splitting and joining

The pieces between the marks of a sequence do not contain the mark and nothing
that is not in the sequence. Pieces that are joined have nothing else than they
and the separator have, and nothing is left of what does not begin as asked.
-/

namespace DentryWatch

variable {α : Type}

theorem not_mem_intercalate {item : α} {separator : List α} (hseparator : item ∉ separator)
    {parts : List (List α)} (h : ∀ part ∈ parts, item ∉ part) :
    item ∉ separator.intercalate parts := by
  induction parts with
  | nil => exact List.not_mem_nil
  | cons first rest ih =>
      have hfirst := h first List.mem_cons_self
      have hrest := ih fun part hmem => h part (List.mem_cons_of_mem _ hmem)
      cases rest with
      | nil => rwa [List.intercalate_singleton]
      | cons second rest =>
          rw [List.intercalate_cons_cons]
          simp [hfirst, hseparator, hrest]

variable [BEq α] [LawfulBEq α] {mark : α}

theorem isPrefixOf?_eq_none_iff (front whole : List α) :
    front.isPrefixOf? whole = none ↔ ¬ front <+: whole := by
  rw [← Option.not_isSome_iff_eq_none, List.isSome_isPrefixOf?_eq_isPrefixOf,
    List.isPrefixOf_iff_prefix]

/-- Where a mark first occurs is the same however a sequence is written. -/
theorem cut_unique {before before' after after' : List α} (h : mark ∉ before)
    (h' : mark ∉ before') (heq : before ++ mark :: after = before' ++ mark :: after') :
    before = before' := by
  have hsplit := congrArg (List.splitOn mark) heq
  rw [List.splitOn_append_cons_self_of_not_mem h,
    List.splitOn_append_cons_self_of_not_mem h'] at hsplit
  exact (List.cons_eq_cons.1 hsplit).1

theorem of_mem_splitOn {whole piece : List α} (h : piece ∈ whole.splitOn mark) :
    mark ∉ piece ∧ piece ⊆ whole := by
  induction whole generalizing piece with
  | nil =>
      obtain rfl := List.mem_singleton.1 h
      exact ⟨List.not_mem_nil, List.Subset.refl _⟩
  | cons item rest ih =>
      have hold : ∀ {piece}, piece ∈ rest.splitOn mark → mark ∉ piece ∧ piece ⊆ item :: rest :=
        fun hmem => (ih hmem).imp_right fun hsub => List.subset_cons_of_subset item hsub
      rw [List.splitOn_cons_eq_if_modifyHead] at h
      split at h
      · rcases List.mem_cons.1 h with rfl | hmem
        · exact ⟨List.not_mem_nil, List.nil_subset _⟩
        · exact hold hmem
      next hitem =>
        obtain ⟨first, others, hsplit⟩ := List.exists_cons_of_ne_nil (List.splitOn_ne_nil mark rest)
        rw [hsplit, List.modifyHead_cons] at h
        rw [hsplit] at ih hold
        rcases List.mem_cons.1 h with rfl | hmem
        · obtain ⟨hmark, hsub⟩ := ih List.mem_cons_self
          refine ⟨fun hmem => ?_, List.cons_subset_cons item hsub⟩
          rcases List.mem_cons.1 hmem with rfl | hmem
          · exact hitem (beq_self_eq_true mark)
          · exact hmark hmem
        · exact hold (List.mem_cons_of_mem first hmem)

end DentryWatch
