import DentryWatch.Cgroup.Path
import DentryWatch.Proofs.Text.Splitting
import Mathlib.Data.List.Induction

/-!
# Components of cleaned paths

Walking a path keeps components that lead one step down each. An absolute path
of such components is walked to the same components, whatever leads nowhere in
front of it.
-/

namespace DentryWatch.Cgroup

/-- A component that leads one step down. -/
structure Proper (part : List Char) : Prop where
  ne_nil : part ≠ []
  ne_dot : part ≠ ['.']
  ne_dots : part ≠ ['.', '.']
  slash : '/' ∉ part

variable {parts : List (List Char)}

/-! ## Walking -/

theorem step_of_proper (kept : List (List Char)) {part : List Char} (h : Proper part) :
    step kept part = kept ++ [part] := by
  rw [step, if_neg (by simp [h.ne_nil, h.ne_dot]), if_neg h.ne_dots]

theorem foldl_step_of_proper (h : ∀ part ∈ parts, Proper part) (kept : List (List Char)) :
    parts.foldl step kept = kept ++ parts := by
  induction parts generalizing kept with
  | nil => exact (List.append_nil kept).symm
  | cons part rest ih =>
      rw [List.foldl_cons, step_of_proper kept (h part List.mem_cons_self),
        ih fun part hmem => h part (List.mem_cons_of_mem _ hmem), List.append_assoc]
      rfl

/-- A component that a step keeps is one that was kept before, or the proper one just walked. -/
theorem mem_step {kept : List (List Char)} {component part : List Char}
    (h : part ∈ step kept component) :
    part ∈ kept ∨ part = component ∧ part ≠ [] ∧ part ≠ ['.'] ∧ part ≠ ['.', '.'] := by
  rw [step] at h
  split at h
  · exact .inl h
  next hidle =>
    split at h
    · exact .inl ((List.dropLast_sublist kept).subset h)
    next hup =>
      rcases List.mem_append.1 h with hmem | hmem
      · exact .inl hmem
      · obtain rfl := List.mem_singleton.1 hmem
        simp only [Bool.or_eq_true, List.isEmpty_iff, decide_eq_true_eq, not_or] at hidle
        exact .inr ⟨rfl, hidle.1, hidle.2, hup⟩

theorem mem_foldl_step {components kept : List (List Char)} {part : List Char}
    (h : part ∈ components.foldl step kept) :
    part ∈ kept ∨ part ∈ components ∧ part ≠ [] ∧ part ≠ ['.'] ∧ part ≠ ['.', '.'] := by
  induction components generalizing kept with
  | nil => exact .inl h
  | cons component rest ih =>
      rcases ih h with hkept | ⟨hmem, hproper⟩
      · rcases mem_step hkept with hold | ⟨rfl, hproper⟩
        · exact .inl hold
        · exact .inr ⟨List.mem_cons_self, hproper⟩
      · exact .inr ⟨List.mem_cons_of_mem _ hmem, hproper⟩

theorem mem_cleanParts {path part : List Char} (h : part ∈ cleanParts path) :
    Proper part ∧ part ⊆ path := by
  rcases mem_foldl_step h with hnone | ⟨hmem, hnil, hdot, hdots⟩
  · cases hnone
  · obtain ⟨hslash, hsub⟩ := of_mem_splitOn hmem
    exact ⟨⟨hnil, hdot, hdots, hslash⟩, hsub⟩

theorem cleanParts_append_slash (front tail : List Char) :
    cleanParts (front ++ '/' :: tail) = (tail.splitOn '/').foldl step (cleanParts front) := by
  rw [cleanParts, List.splitOn_append_cons_self, List.foldl_append]
  rfl

/-! ## Absolute paths -/

@[simp] theorem absolute_singleton (part : List Char) : absolute [part] = '/' :: part := by
  rw [absolute, List.intercalate_singleton]

@[simp] theorem absolute_cons_cons (part next : List Char) (rest : List (List Char)) :
    absolute (part :: next :: rest) = '/' :: part ++ absolute (next :: rest) := by
  rw [absolute, absolute, List.intercalate_cons_cons]
  simp

theorem splitOn_absolute (hne : parts ≠ []) (h : ∀ part ∈ parts, '/' ∉ part) :
    (absolute parts).splitOn '/' = [] :: parts := by
  refine (List.splitOn_append_cons_self_of_not_mem List.not_mem_nil _).trans ?_
  rw [List.splitOn_intercalate '/' h hne]

/-- Walking an absolute path of proper components finds them all. -/
theorem cleanParts_absolute (h : ∀ part ∈ parts, Proper part) :
    cleanParts (absolute parts) = parts := by
  rcases List.eq_nil_or_concat parts with rfl | ⟨_, _, hparts⟩
  · rfl
  · have hne : parts ≠ [] := by simp [hparts]
    rw [cleanParts, splitOn_absolute hne fun part hmem => (h part hmem).slash]
    exact foldl_step_of_proper h []

theorem clean_absolute (h : ∀ part ∈ parts, Proper part) :
    clean (absolute parts) = absolute parts :=
  congrArg absolute (cleanParts_absolute h)

theorem not_mem_absolute {c : Char} (hc : c ≠ '/') (h : ∀ part ∈ parts, c ∉ part) :
    c ∉ absolute parts := by
  rw [absolute, List.mem_cons, not_or]
  exact ⟨hc, not_mem_intercalate (mt List.mem_singleton.1 hc) h⟩

/-! ## Detours -/

/-- What leads nowhere from the root. -/
def detours : List (List Char) := ["/".toList, "/.".toList, "/..".toList]

theorem cleanParts_detours {pieces : List (List Char)} (h : ∀ piece ∈ pieces, piece ∈ detours) :
    cleanParts pieces.flatten = [] := by
  induction pieces using List.reverseRecOn with
  | nil => rfl
  | append_singleton pieces piece ih =>
      have hwalk : ∀ tail, cleanParts (pieces.flatten ++ '/' :: tail) =
          (tail.splitOn '/').foldl step [] := by
        intro tail
        rw [cleanParts_append_slash, ih fun piece hmem => h piece (List.mem_append_left _ hmem)]
      have hpiece := h piece (List.mem_append_right _ List.mem_cons_self)
      rw [List.flatten_append, List.flatten_singleton]
      simp only [detours, List.mem_cons, List.not_mem_nil, or_false] at hpiece
      rcases hpiece with rfl | rfl | rfl
      · exact hwalk []
      · exact hwalk ['.']
      · exact hwalk ['.', '.']

/-- An absolute path is cleaned to the same after any detours. -/
theorem clean_detours {pieces : List (List Char)} (h : ∀ piece ∈ pieces, piece ∈ detours)
    (tail : List Char) : clean (pieces.flatten ++ '/' :: tail) = clean ('/' :: tail) := by
  have hroot := cleanParts_append_slash [] tail
  rw [clean, cleanParts_append_slash, cleanParts_detours h]
  exact congrArg absolute hroot.symm

end DentryWatch.Cgroup
